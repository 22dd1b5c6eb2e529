/-! # Doubles, exactly

A `Double` is a finite binary64 value held as sign, significand and power of two, so that every
operation on it is integer arithmetic. This file rounds a quotient of natural numbers to the
nearest double (`nearest?`), builds the two scalings that reading a decimal literal needs (`times?`
and `quotient`), and finds the fewest decimal digits that read back (`shortest`). -/

namespace Failover

/-- A `Double` is a finite binary64 value: `mantissa · 2 ^ exponent`, with its sign apart. Values
are built by rounding, which keeps the mantissa below `mantissaEnd` and the exponent at or above
`minExponent`. -/
structure Double where
  negative : Bool
  mantissa : Nat
  exponent : Int
deriving DecidableEq, Repr, Inhabited

namespace Double

/-- The least `exponent` of a double. -/
def minExponent : Int := -1074

/-- The greatest `exponent` of a double. -/
def maxExponent : Int := 971

/-- The power of two, `2 ^ 53`, that every `mantissa` is below. -/
def mantissaEnd : Nat := 9007199254740992

/-- The `Double` zero without a sign. -/
def zero : Double := ⟨false, 0, minExponent⟩

/-- `x.withSign negative` has the magnitude of `x` and the sign bit set as told. -/
def withSign (x : Double) (negative : Bool) : Double := { x with negative }

/-- The quotient `num / den · 2 ^ -e` as a quotient of naturals. -/
def rescale (num den : Nat) (e : Int) : Nat × Nat :=
  if 0 ≤ e then (num, den * Nat.pow 2 e.toNat) else (num * Nat.pow 2 (-e).toNat, den)

/-- The quotient `num / den` rounded to a whole number, a half going to the even neighbour. -/
def roundDiv (num den : Nat) : Nat :=
  let q := num / den
  let r := num % den
  if 2 * r < den then q else if den < 2 * r then q + 1 else q + q % 2

/-- The `Double` nearest to `num / den`, a tie going to the even mantissa; `none` where that
quotient is beyond the greatest double. -/
def nearest? (num den : Nat) : Option Double :=
  if num = 0 then some zero
  else
    -- With the guess the quotient has 53 or 54 binary digits, or is subnormal.
    let guess := max minExponent ((num.log2 : Int) - den.log2 - 53)
    let whole := (rescale num den guess).1 / (rescale num den guess).2
    let e := if whole < mantissaEnd then guess else guess + 1
    let m := roundDiv (rescale num den e).1 (rescale num den e).2
    -- Rounding up may have reached the next power of two.
    let (m, e) := if m < mantissaEnd then (m, e) else (m / 2, e + 1)
    if e ≤ maxExponent then some ⟨false, m, e⟩ else none

/-- The magnitude of a `Double` as a quotient of naturals. -/
def ratio (x : Double) : Nat × Nat :=
  if 0 ≤ x.exponent then (x.mantissa * Nat.pow 2 x.exponent.toNat, 1)
  else (x.mantissa, Nat.pow 2 (-x.exponent).toNat)

/-- The `Double` nearest to a natural number that has 64 bits at most. -/
def ofNat (n : Nat) : Double := (nearest? n 1).getD zero

/-- The `Double` nearest to `10 ^ k`, for `k` up to 308. -/
def tenPow (k : Nat) : Double := ofNat (Nat.pow 10 k)

/-- The product of two magnitudes, rounded by `nearest?`; `none` where it is too large. -/
def times? (x y : Double) : Option Double :=
  nearest? (x.ratio.1 * y.ratio.1) (x.ratio.2 * y.ratio.2)

/-- The quotient of two magnitudes, rounded by `nearest?`. -/
def quotient (x y : Double) : Double :=
  (nearest? (x.ratio.1 * y.ratio.2) (x.ratio.2 * y.ratio.1)).getD zero

/-- A magnitude divided by `10 ^ k`. A power above 308 is taken off in steps of 308, with one
rounding by `quotient` for each step. -/
def overTenPow (x : Double) (k : Nat) : Double :=
  if k ≤ 308 then x.quotient (tenPow k)
  else if x.mantissa = 0 then x
  else overTenPow (x.quotient (tenPow 308)) (k - 308)
termination_by k

/-- The value of `significand · 10 ^ scale`: the significand is rounded to a double first, then
scaled by a power of ten that is itself a double. None where the value is too large. -/
def ofDecimal? (significand : Nat) (scale : Int) : Option Double :=
  let x := ofNat significand
  if scale < 0 then some (x.overTenPow scale.natAbs)
  else if scale ≤ 308 then x.times? (tenPow scale.natAbs)
  else if x.mantissa = 0 then some x else none

/-! ## The fewest digits that read back -/

/-- The number of decimal digits that `Nat.toDigits` writes for a natural number; zero has one. -/
def digitCount (n : Nat) : Nat := (Nat.toDigits 10 n).length

/-- The power of ten of the leading digit of `num / den`, for `num` and `den` above zero. -/
def leadingPower (num den : Nat) : Int :=
  if den ≤ num then (digitCount (num / den) : Int) - 1
  else -(digitCount ((den + num - 1) / num - 1) : Int)

/-- Whether `d · 10 ^ k` lies among the reals that round to a double: `unit` is a quarter of its
last place as a quotient, `low` and `high` are the ends in those units, and the ends belong to the
double if `closed`. -/
def readsBack (unit : Nat × Nat) (low high : Nat) (closed : Bool) (k : Int) (d : Nat) : Bool :=
  -- Both sides are multiplied out, so that only naturals are compared.
  let point := if 0 ≤ k then d * Nat.pow 10 k.toNat * unit.2 else d * unit.2
  let scale := if 0 ≤ k then unit.1 else unit.1 * Nat.pow 10 (-k).toNat
  if closed then low * scale ≤ point && point ≤ high * scale
  else low * scale < point && point < high * scale

/-- On the grid of multiples of `10 ^ k`, the neighbour of the value that `reads` back: of two the
nearer, and of two equally near the even one. -/
def onGrid? (num den : Nat) (reads : Nat → Bool) (k : Int) : Option Nat :=
  let scaled :=
    if 0 ≤ k then (num, den * Nat.pow 10 k.toNat) else (num * Nat.pow 10 (-k).toNat, den)
  -- The value lies at or above `below`, and nearer to the next point if `twice` is above the unit.
  let below := scaled.1 / scaled.2
  let twice := 2 * (scaled.1 % scaled.2)
  match reads below, reads (below + 1) with
  | true, false => some below
  | false, true => some (below + 1)
  | true, true =>
    if twice < scaled.2 then some below
    else if scaled.2 < twice then some (below + 1)
    else some (below + below % 2)
  | false, false => none

/-- The first grid, from the coarsest to the finest, on which `onGrid?` finds a neighbour that reads
back; the answer is the digits and their power of ten. -/
def firstGrid? (num den : Nat) (reads : Int → Nat → Bool) (top : Int) : Nat → Option (Nat × Int)
  | 0 => none
  | steps + 1 =>
    match onGrid? num den (reads top) top with
    | some d => some (d, top)
    | none => firstGrid? num den reads (top - 1) steps

/-- The digits `d` and the power `k` of the shortest decimal `d · 10 ^ k` that reads back as the
magnitude of `x`, the nearest one where several are as short. The search starts one place above
the leading digit, since a value just below a power of ten may read back from that power. -/
def shortest (x : Double) : Nat × Int :=
  if x.mantissa = 0 then (0, 0)
  else
    -- The ends lie half a place away; below a power of two the place is half as wide.
    let quarter := x.exponent - 2
    let unit :=
      if 0 ≤ quarter then (Nat.pow 2 quarter.toNat, 1) else (1, Nat.pow 2 (-quarter).toNat)
    let narrow := 2 * x.mantissa = mantissaEnd ∧ minExponent < x.exponent
    let low := if narrow then 4 * x.mantissa - 1 else 4 * x.mantissa - 2
    let high := 4 * x.mantissa + 2
    let reads := readsBack unit low high (x.mantissa % 2 == 0)
    let (num, den) := x.ratio
    (firstGrid? num den reads (leadingPower num den + 1) 18).getD (0, 0)

end Double

end Failover
