import Failover.Json.Double

/-! # Numbers of JSON texts

A `Number` is an integer, where the literal has no fraction and no exponent and fits 64 bits, or a
double. `Number.ofLiteral?` gives the value of a literal and `Number.text` writes one. -/

namespace Failover

/-- A `Number` stands in a JSON value. Integers are those of 64 bits, signed or unsigned. -/
inductive Number where
  | int (n : Int)
  | double (x : Double)
deriving DecidableEq, Repr, Inhabited

namespace Number

/-- The integers that stay `int`: those that a signed or an unsigned word of 64 bits holds. -/
def inRange (n : Int) : Bool := Int64.minValue.toInt ≤ n && n < UInt64.size

/-- The parts of a number literal: its sign, the digits before and after the point, and the
exponent. No fraction is an empty list. -/
structure Literal where
  negative : Bool
  whole : List Char
  fraction : List Char
  exponent : Option Int
deriving DecidableEq, Repr

/-- The natural number that the decimal digits `ds` write. -/
def ofDigits (ds : List Char) : Nat := ds.foldl (fun n d => n * 10 + (d.toNat - 48)) 0

/-- `keepDigits` takes digits up into a significand as long as it fits 64 bits: the significand, and
the number of digits that were left out. -/
def keepDigits (significand : Nat) : List Char → Nat × Nat
  | [] => (significand, 0)
  | d :: ds =>
    let next := significand * 10 + (d.toNat - 48)
    if next < UInt64.size then keepDigits next ds else (significand, ds.length + 1)

/-- The `Number` of a `Literal`, or `none` where it is beyond the doubles. A literal without
fraction and exponent is an `int` if it fits 64 bits, but `-0` is a `double`. -/
def ofLiteral? (l : Literal) : Option Number :=
  let n := ofDigits l.whole
  if l.fraction.isEmpty && l.exponent.isNone && n < UInt64.size then
    if !l.negative then some (.int n)
    -- Zero with a sign, or beyond what a signed word holds.
    else if n = 0 || -(n : Int) < Int64.minValue.toInt then
      some (.double ((Double.ofNat n).withSign true))
    else some (.int (-n))
  else
    -- Digits left out before the point scale the value up; after it they do not count.
    let (significand, dropped) := keepDigits 0 l.whole
    let (significand, cut) := keepDigits significand l.fraction
    let scale := (dropped : Int) - (l.fraction.length - cut : Nat) + l.exponent.getD 0
    (Double.ofDecimal? significand scale).map fun x => .double (x.withSign l.negative)

/-- The digits of a double laid out: positional with at least one digit after the point from
`1e-5` up to below `1e16`, otherwise with an exponent that shows its sign. -/
def layout (digits : List Char) (power : Int) : List Char :=
  let point := power + digits.length
  if 0 < point ∧ point ≤ 16 then
    let n := point.toNat
    if digits.length ≤ n then digits ++ List.replicate (n - digits.length) '0' ++ ['.', '0']
    else digits.take n ++ '.' :: digits.drop n
  else if -5 < point ∧ point ≤ 0 then
    '0' :: '.' :: List.replicate (-point).toNat '0' ++ digits
  else
    let exponent := point - 1
    let sign := if exponent < 0 then '-' else '+'
    let mantissa := match digits with
      | d :: rest@(_ :: _) => d :: '.' :: rest
      | ds => ds
    mantissa ++ 'e' :: sign :: Nat.toDigits 10 exponent.natAbs

/-- The text of a `Double`: the fewest digits that read back (`Double.shortest`), laid out by
`layout`. -/
def doubleText (x : Double) : List Char :=
  let sign := if x.negative then ['-'] else []
  if x.mantissa = 0 then sign ++ ['0', '.', '0']
  else
    let (d, k) := x.shortest
    sign ++ layout (Nat.toDigits 10 d) k

/-- The text of an integer: an optional minus sign and the digits of `Nat.toDigits`. -/
def intText (n : Int) : List Char :=
  if n < 0 then '-' :: Nat.toDigits 10 n.natAbs else Nat.toDigits 10 n.natAbs

/-- The text of a `Number`, by `intText` or `doubleText`. -/
def text : Number → List Char
  | .int n => intText n
  | .double x => doubleText x

end Number

end Failover
