/-! # Names as people type them

Settings name their alternatives loosely: capitals count as small letters, and some take an
underscore for a hyphen. Only ASCII letters have a small form here. -/

namespace Failover.Text

/-- The text with ASCII capitals made small, character by character (`Char.toLower`). -/
def lower (s : String) : String := s.map Char.toLower

/-- The text made small (`lower`), with underscores made hyphens. -/
def hyphenated (s : String) : String :=
  (lower s).map fun c => if c = '_' then '-' else c

end Failover.Text
