import Failover.Json.Scan

/-! # Picking values out of a scan

For texts whose form is known, a scan is taken apart by the names of members. What is missing, or is
not of the kind asked for, gives none, or the plainest value of that kind. -/

namespace Failover.Scan

/-- `s.member? name` is the first member of that name. -/
def member? (s : Scan) (name : String) : Option Scan :=
  match s with
  | .object ms _ => ms.lookup (some name)
  | _ => none

/-- `s.member name` is the first member of that name, or `null`. -/
def member (s : Scan) (name : String) : Scan := (s.member? name).getD .null

/-- The members with their names, in text order; a name that is no text is left out. -/
def entries : Scan → List (String × Scan)
  | .object ms _ => ms.filterMap fun (k, v) => k.map (·, v)
  | _ => []

/-- The items of an `array`, and none of anything else. -/
def items : Scan → List Scan
  | .array ss _ => ss
  | _ => []

/-- The text of a `string`. -/
def text? : Scan → Option String
  | .string t => t
  | _ => none

/-- The text of a `string`, or the empty one. -/
def text (s : Scan) : String := s.text?.getD ""

/-- The integer of a `number` that is one. -/
def int? : Scan → Option Int
  | .number (some (.int n)) => some n
  | _ => none

/-- The truth value of a `bool`. -/
def bool? : Scan → Option Bool
  | .bool b => some b
  | _ => none

end Failover.Scan
