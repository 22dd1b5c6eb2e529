import Failover.Json.Value

/-! # What a JSON text says

`Scan.ofText` takes a text apart as far as it can be followed. A `Scan` keeps what reading depends
on and a value would lose: members in text order with repeated keys, literals that no value stands
for (a number beyond the doubles, a text with half a surrogate pair), and the place where the text
stops making sense. Readers then walk the scan in text order, so that of several faults the first
one decides, while members that nobody reads need only be followed to their end (`complete`). -/

namespace Failover

/-- A `Scan` is the outline of a JSON text, as far as the text can be followed. -/
inductive Scan where
  | null
  | bool (b : Bool)
  /-- A number literal; none if its value is beyond the doubles. -/
  | number (value : Option Number)
  /-- A quoted text; none if it holds half a surrogate pair. -/
  | string (value : Option String)
  /-- The items, and whether the closing bracket was found. -/
  | array (items : List Scan) (closed : Bool)
  /-- The members, and whether the closing brace was found. -/
  | object (members : List (Option String × Scan)) (closed : Bool)
  /-- Nothing that can be followed. -/
  | broken
deriving Inhabited, Repr

namespace Scan

/-! ## Texts in quotes -/

/-- A `Piece` of a quoted text: a character, or half of a surrogate pair. -/
inductive Piece where
  | char (c : Char)
  | half (unit : Nat)
deriving DecidableEq, Repr

/-- The value of a hexadecimal digit; `hexValue?` knows both cases. -/
def hexValue? (c : Char) : Option Nat :=
  if '0' ≤ c ∧ c ≤ '9' then some (c.toNat - 48)
  else if 'a' ≤ c ∧ c ≤ 'f' then some (c.toNat - 87)
  else if 'A' ≤ c ∧ c ≤ 'F' then some (c.toNat - 55)
  else none

/-- The `Piece` that four hexadecimal digits stand for. -/
def pieceOfUnit (unit : Nat) : Piece :=
  if 0xD800 ≤ unit ∧ unit < 0xE000 then .half unit else .char (Char.ofNat unit)

/-- The character that the letter after a backslash stands for; `\u` is not one of these. -/
def escaped? (c : Char) : Option Char :=
  match c with
  | '"' => some '"'
  | '\\' => some '\\'
  | '/' => some '/'
  | 'b' => some '\x08'
  | 'f' => some '\x0c'
  | 'n' => some '\n'
  | 'r' => some '\r'
  | 't' => some '\t'
  | _ => none

/-- The `Piece`s of a quoted text up to its closing quote, and what follows. -/
def pieces? : List Char → Option (List Piece × List Char)
  | [] => none
  | '"' :: rest => some ([], rest)
  | '\\' :: 'u' :: a :: b :: c :: d :: rest =>
    match hexValue? a, hexValue? b, hexValue? c, hexValue? d with
    | some a, some b, some c, some d =>
      (pieces? rest).map fun (ps, rest) =>
        (pieceOfUnit (((a * 16 + b) * 16 + c) * 16 + d) :: ps, rest)
    | _, _, _, _ => none
  | '\\' :: e :: rest =>
    match escaped? e with
    | some c => (pieces? rest).map fun (ps, rest) => (.char c :: ps, rest)
    | none => none
  | c :: rest =>
    if c.toNat < 32 ∨ c = '\\' then none
    else (pieces? rest).map fun (ps, rest) => (.char c :: ps, rest)

/-- The characters of `Piece`s, each high `half` joined to the low one after it. -/
def joined? : List Piece → Option (List Char)
  | [] => some []
  | .char c :: rest => (joined? rest).map (c :: ·)
  | .half high :: .half low :: rest =>
    if high < 0xDC00 ∧ 0xDC00 ≤ low then
      (joined? rest).map (Char.ofNat (0x10000 + (high - 0xD800) * 0x400 + (low - 0xDC00)) :: ·)
    else none
  | .half _ :: _ => none

/-- The text that `Piece`s make up; none if a `half` is left over. -/
def textOf? (ps : List Piece) : Option String := (joined? ps).map String.ofList

/-! ## Number literals -/

/-- The exponent of a number literal, if there is one, and what follows; `none` if its digits are
missing. -/
def exponent? (cs : List Char) : Option (Option Int × List Char) :=
  match cs with
  | e :: rest =>
    if e = 'e' ∨ e = 'E' then
      let (minus, rest) := match rest with
        | '-' :: rest => (true, rest)
        | '+' :: rest => (false, rest)
        | rest => (false, rest)
      let ds := rest.takeWhile Char.isDigit
      if ds.isEmpty then none
      else
        let n : Int := Number.ofDigits ds
        some (some (if minus then -n else n), rest.dropWhile Char.isDigit)
    else some (none, cs)
  | [] => some (none, [])

/-- A number literal without its sign, and what follows; `none` if it is not one. -/
def number? (negative : Bool) (cs : List Char) : Option (Option Number × List Char) :=
  let whole := cs.takeWhile Char.isDigit
  let rest := cs.dropWhile Char.isDigit
  if whole.isEmpty ∨ (whole.head? = some '0' ∧ whole.length ≠ 1) then none
  else
    let fraction? := match rest with
      | '.' :: rest =>
        let ds := rest.takeWhile Char.isDigit
        if ds.isEmpty then none else some (ds, rest.dropWhile Char.isDigit)
      | rest => some ([], rest)
    fraction?.bind fun (fraction, rest) =>
      (exponent? rest).map fun (exponent, rest) =>
        (Number.ofLiteral? ⟨negative, whole, fraction, exponent⟩, rest)

/-! ## Values -/

/-- The blanks between the parts of a JSON text: space, tab, line feed and carriage return. -/
def isBlank (c : Char) : Bool := c = ' ' || c = '\t' || c = '\n' || c = '\r'

/-- The text after leading characters that are `isBlank`. -/
def skipBlanks (cs : List Char) : List Char := cs.dropWhile isBlank

/-- A leaf of the outline: its `Scan`, and what follows. -/
def leaf (s : Scan) (rest : List Char) : Scan × Option (List Char) := (s, some rest)

/-- A `leaf`, or `broken` with nothing that follows. -/
def leafOf (r : Option (Scan × List Char)) : Scan × Option (List Char) :=
  match r with
  | some (s, rest) => (s, some rest)
  | none => (.broken, none)

mutual

/-- The `Scan` of the value at the start of a text, and what follows it; nothing follows where the
text stops making sense. The count bounds how many values are looked at. -/
def value : Nat → List Char → Scan × Option (List Char)
  | 0, _ => (.broken, none)
  | fuel + 1, cs =>
    match skipBlanks cs with
    | '"' :: rest => leafOf ((pieces? rest).map fun (ps, rest) => (.string (textOf? ps), rest))
    | '[' :: rest =>
      match skipBlanks rest with
      | ']' :: rest => leaf (.array [] true) rest
      | rest =>
        let (items, after) := values fuel rest
        (.array items after.isSome, after)
    | '\x7b' :: rest =>
      match skipBlanks rest with
      | '\x7d' :: rest => leaf (.object [] true) rest
      | rest =>
        let (ms, after) := members fuel rest
        (.object ms after.isSome, after)
    | 'n' :: 'u' :: 'l' :: 'l' :: rest => leaf .null rest
    | 't' :: 'r' :: 'u' :: 'e' :: rest => leaf (.bool true) rest
    | 'f' :: 'a' :: 'l' :: 's' :: 'e' :: rest => leaf (.bool false) rest
    -- All else is a number or nothing.
    | '-' :: rest => leafOf ((number? true rest).map fun (n, rest) => (.number n, rest))
    | rest => leafOf ((number? false rest).map fun (n, rest) => (.number n, rest))

/-- The items of an array from a `value` that must be there, and what follows the closing bracket.
-/
def values : Nat → List Char → List Scan × Option (List Char)
  | 0, _ => ([], none)
  | fuel + 1, cs =>
    match value fuel cs with
    | (item, none) => ([item], none)
    | (item, some rest) =>
      match skipBlanks rest with
      | ']' :: rest => ([item], some rest)
      | ',' :: rest =>
        let (items, after) := values fuel rest
        (item :: items, after)
      | _ => ([item], none)

/-- The members of an object from one that must be there, and what follows the closing brace. -/
def members : Nat → List Char → List (Option String × Scan) × Option (List Char)
  | 0, _ => ([], none)
  | fuel + 1, cs =>
    match skipBlanks cs with
    | '"' :: rest =>
      match pieces? rest with
      | none => ([], none)
      | some (ps, rest) =>
        match skipBlanks rest with
        | ':' :: rest =>
          match value fuel rest with
          | (v, none) => ([(textOf? ps, v)], none)
          | (v, some rest) =>
            match skipBlanks rest with
            | '\x7d' :: rest => ([(textOf? ps, v)], some rest)
            | ',' :: rest =>
              let (ms, after) := members fuel rest
              ((textOf? ps, v) :: ms, after)
            | _ => ([(textOf? ps, v)], none)
        -- The key counts even where its colon is missing.
        | _ => ([(textOf? ps, .broken)], none)
    -- Only a quoted text is a key.
    | _ => ([], none)

end

/-- The `Scan` of a whole text, and whether nothing but blanks follows the value. -/
def ofChars (cs : List Char) : Scan × Bool :=
  let (s, after) := value (2 * cs.length + 2) cs
  (s, match after with
    | some rest => (skipBlanks rest).isEmpty
    | none => false)

/-- The `Scan` of a text, and whether nothing but blanks follows the value (`ofChars`). -/
def ofText (s : String) : Scan × Bool := ofChars s.toList

/-! ## Skipping -/

mutual

/-- Whether a `Scan` can be followed to its end. Literals without a value do not stand in the way.
-/
def complete : Scan → Bool
  | .array items closed => completeItems items && closed
  | .object ms closed => completeMembers ms && closed
  | .broken => false
  | _ => true

/-- Whether every `Scan` of a list is `complete`. -/
def completeItems : List Scan → Bool
  | [] => true
  | s :: ss => s.complete && completeItems ss

/-- Whether the value of every member is `complete`. -/
def completeMembers : List (Option String × Scan) → Bool
  | [] => true
  | (_, s) :: ms => s.complete && completeMembers ms

end

/-! ## Scans of values -/

mutual

/-- The `Scan` of the text of a value, as `Json.toText` writes it. -/
def ofJson : Json → Scan
  | .null => .null
  | .bool b => .bool b
  | .number n => .number (some n)
  | .string s => .string (some s)
  | .array items => .array (ofItems items) true
  | .object ms => .object (ofMembers ms) true

/-- The `Scan`s of a list of values (`ofJson`). -/
def ofItems : List Json → List Scan
  | [] => []
  | j :: js => ofJson j :: ofItems js

/-- The `Scan`s of members (`ofJson`). -/
def ofMembers : List (String × Json) → List (Option String × Scan)
  | [] => []
  | (k, j) :: ms => (some k, ofJson j) :: ofMembers ms

end

end Scan

end Failover
