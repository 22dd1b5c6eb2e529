/-! # Time

A `Timestamp` counts milliseconds since the epoch in a signed word of 64 bits. Differences are
clamped to that word (`Timestamp.since`), so that extreme timestamps do not wrap around. A
`Duration` is a number of nanoseconds; where it meets timestamps it counts in whole milliseconds,
clamped too. -/

namespace Failover

/-- A `Timestamp` is a number of UTC milliseconds since the epoch. -/
abbrev Timestamp := Int64

namespace Timestamp

/-- The `Timestamp` nearest to an integer: `Int64.minValue` or `Int64.maxValue` beyond the ends. -/
def clamp (n : Int) : Timestamp :=
  Int64.ofInt (max Int64.minValue.toInt (min n Int64.maxValue.toInt))

/-- The milliseconds from `t` to `now`, clamped by `Timestamp.clamp`. -/
def since (now t : Timestamp) : Timestamp := clamp (now.toInt - t.toInt)

theorem toInt_clamp (n : Int) :
    (clamp n).toInt = max Int64.minValue.toInt (min n Int64.maxValue.toInt) := by
  have hmin : Int64.minValue.toInt = -2 ^ 63 := rfl
  have hmax : Int64.maxValue.toInt = 2 ^ 63 - 1 := rfl
  rw [clamp, Int64.toInt_ofInt_of_le (by omega) (by omega)]

/-- `clamp` changes no integer that is a timestamp already. -/
theorem toInt_clamp_of_le {n : Int} (h : Int64.minValue.toInt ≤ n)
    (h' : n ≤ Int64.maxValue.toInt) : (clamp n).toInt = n := by
  rw [toInt_clamp]
  omega

end Timestamp

/-- A `Duration` is a span of time, never negative. -/
structure Duration where
  /-- The length of the span in nanoseconds. -/
  nanos : Nat
deriving DecidableEq, Repr, Inhabited

namespace Duration

/-- The `Duration` of `n` milliseconds. -/
def ofMillis (n : Nat) : Duration := ⟨n * 1000000⟩

/-- The `Duration` of so many `seconds` and `nanos`. -/
def ofSeconds (seconds : Nat) (nanos : Nat) : Duration := ⟨seconds * 1000000000 + nanos⟩

/-- The whole milliseconds of a `Duration`; the rest of its `nanos` is dropped. -/
def millis (d : Duration) : Nat := d.nanos / 1000000

/-- The `millis` of a span as a difference of timestamps, clamped. -/
def asTimestamp (d : Duration) : Timestamp := .clamp d.millis

@[simp] theorem millis_ofMillis (n : Nat) : (ofMillis n).millis = n := by
  simp [millis, ofMillis]

/-- The decimal text of `whole` units and a `fraction` of which `10 ^ places` make a unit, with as
many decimals as are needed. -/
def decimal (whole fraction places : Nat) : String :=
  let digits := Nat.toDigits 10 fraction
  let padded := List.replicate (places - digits.length) '0' ++ digits
  let needed := (padded.reverse.dropWhile (· = '0')).reverse
  Nat.repr whole ++ if needed.isEmpty then "" else String.ofList ('.' :: needed)

/-- The text of a span in the greatest unit of which it holds one, with all decimals
(`Duration.decimal`). -/
def text (d : Duration) : String :=
  if 1000000000 ≤ d.nanos then decimal (d.nanos / 1000000000) (d.nanos % 1000000000) 9 ++ "s"
  else if 1000000 ≤ d.nanos then decimal (d.nanos / 1000000) (d.nanos % 1000000) 6 ++ "ms"
  else if 1000 ≤ d.nanos then decimal (d.nanos / 1000) (d.nanos % 1000) 3 ++ "µs"
  else Nat.repr d.nanos ++ "ns"

end Duration

/-- A `ManualClock` moves only when it is told to. -/
structure ManualClock where
  now : Timestamp
deriving DecidableEq, Repr, Inhabited

namespace ManualClock

/-- `advance` moves the clock forward; past the greatest timestamp it wraps around. -/
def advance (c : ManualClock) (by' : Duration) : ManualClock := ⟨c.now + by'.asTimestamp⟩

/-- `set` puts the clock to `t`, whatever it showed. -/
def set (_ : ManualClock) (t : Timestamp) : ManualClock := ⟨t⟩

end ManualClock

end Failover
