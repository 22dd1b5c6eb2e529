/-! # Blank characters

The characters that count as white space around a setting: those with the Unicode property
White_Space. -/

namespace Failover.Text

/-- `isBlank` tells the characters with the Unicode property White_Space. -/
def isBlank (c : Char) : Bool :=
  let n := c.toNat
  (9 ≤ n && n ≤ 13) || n = 0x20 || n = 0x85 || n = 0xA0 || n = 0x1680
    || (0x2000 ≤ n && n ≤ 0x200A) || n = 0x2028 || n = 0x2029 || n = 0x202F || n = 0x205F
    || n = 0x3000

/-- The characters of `s` without those at its ends that are `isBlank`. -/
def trimmed (s : String) : List Char :=
  ((s.toList.dropWhile isBlank).reverse.dropWhile isBlank).reverse

/-- Whether `s` is empty or all `isBlank`. -/
def isAllBlank (s : String) : Bool := s.toList.all isBlank

/-- `Char.isWhitespace` holds of fewer characters than `isBlank`. -/
theorem isBlank_of_isWhitespace {c : Char} (h : c.isWhitespace) : isBlank c := by
  simp only [Char.isWhitespace, Bool.or_eq_true, decide_eq_true_eq] at h
  rcases h with ((rfl | rfl) | rfl) | rfl <;> rfl

end Failover.Text
