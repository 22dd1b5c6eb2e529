import Failover.Json.Value

/-! # JSON text

The stored form of a JSON value: members and items on lines of their own, indented by two blanks
for each level, `[]` and `\x7b\x7d` where there are none, and no line end after the value. -/

namespace Failover.Json

/-- The hexadecimal digit of a number below 16, in lower case (`Nat.digitChar`). -/
def hexDigit (n : Nat) : Char := Nat.digitChar n

/-- A character inside the quotes of `quote`. The quote, the backslash and the control characters
below the blank are escaped, five of them by a letter; all else stands for itself. -/
def escape (c : Char) : List Char :=
  match c with
  | '"' => ['\\', '"']
  | '\\' => ['\\', '\\']
  | '\x08' => ['\\', 'b']
  | '\t' => ['\\', 't']
  | '\n' => ['\\', 'n']
  | '\x0c' => ['\\', 'f']
  | '\r' => ['\\', 'r']
  | c =>
    if c.toNat < 32 then ['\\', 'u', '0', '0', hexDigit (c.toNat / 16), hexDigit (c.toNat % 16)]
    else [c]

/-- A text in quotes, each of its characters as `escape` gives it. -/
def quote (s : String) : List Char := '"' :: s.toList.flatMap escape ++ ['"']

/-- A line end and the indentation of the next line, two blanks for each `level`. -/
def newline (level : Nat) : List Char := '\n' :: List.replicate (2 * level) ' '

mutual

/-- The text of a value that stands at a given `level` of indentation. -/
def pretty (level : Nat) : Json → List Char
  | .null => ['n', 'u', 'l', 'l']
  | .bool true => ['t', 'r', 'u', 'e']
  | .bool false => ['f', 'a', 'l', 's', 'e']
  | .number n => n.text
  | .string s => quote s
  | .array [] => ['[', ']']
  | .array (j :: js) =>
    '[' :: newline (level + 1) ++ pretty (level + 1) j ++ prettyItems (level + 1) js
      ++ newline level ++ [']']
  | .object [] => ['\x7b', '\x7d']
  | .object ((k, j) :: ms) =>
    '\x7b' :: newline (level + 1) ++ quote k ++ ':' :: ' ' :: pretty (level + 1) j
      ++ prettyMembers (level + 1) ms ++ newline level ++ ['\x7d']

/-- The further items of an array, after the one that `pretty` writes first. -/
def prettyItems (level : Nat) : List Json → List Char
  | [] => []
  | j :: js => ',' :: newline level ++ pretty level j ++ prettyItems level js

/-- The further members of an object, after the one that `pretty` writes first. -/
def prettyMembers (level : Nat) : List (String × Json) → List Char
  | [] => []
  | (k, j) :: ms =>
    ',' :: newline level ++ quote k ++ ':' :: ' ' :: pretty level j ++ prettyMembers level ms

end

/-- The stored text of a value: `pretty` at level zero. -/
def toText (j : Json) : String := String.ofList (pretty 0 j)

mutual

/-- The text of a value on one line, without blanks. -/
def inline : Json → List Char
  | .array [] => ['[', ']']
  | .array (j :: js) => '[' :: inline j ++ inlineItems js ++ [']']
  | .object [] => ['\x7b', '\x7d']
  | .object ((k, j) :: ms) =>
    '\x7b' :: quote k ++ ':' :: inline j ++ inlineMembers ms ++ ['\x7d']
  | .null => pretty 0 .null
  | .bool b => pretty 0 (.bool b)
  | .number n => n.text
  | .string s => quote s

/-- The further items of an array on one line, after the one that `inline` writes first. -/
def inlineItems : List Json → List Char
  | [] => []
  | j :: js => ',' :: inline j ++ inlineItems js

/-- The further members of an object on one line, after the one that `inline` writes first. -/
def inlineMembers : List (String × Json) → List Char
  | [] => []
  | (k, j) :: ms => ',' :: quote k ++ ':' :: inline j ++ inlineMembers ms

end

/-- The text of a value on one line, by `inline`. -/
def toLine (j : Json) : String := String.ofList (inline j)

end Failover.Json
