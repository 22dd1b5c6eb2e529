import Failover.Text.Unprintable

/-! # Texts shown in quotes

Messages show a text between double quotes so that every character can be told: the quote and the
backslash take a backslash, four control characters have a letter, and what has no printed form is
shown by its code point. -/

namespace Failover.Text

/-- A character as it stands inside the quotes of `quoted`. -/
def shownChar (c : Char) : List Char :=
  match c with
  | '"' => ['\\', '"']
  | '\\' => ['\\', '\\']
  | '\x00' => ['\\', '0']
  | '\t' => ['\\', 't']
  | '\n' => ['\\', 'n']
  | '\r' => ['\\', 'r']
  | c =>
    if isUnprintable c then '\\' :: 'u' :: '\x7b' :: Nat.toDigits 16 c.toNat ++ ['\x7d'] else [c]

/-- A text in double quotes, each of its characters as `shownChar` gives it. -/
def quoted (s : String) : String :=
  String.ofList ('"' :: s.toList.flatMap shownChar ++ ['"'])

end Failover.Text
