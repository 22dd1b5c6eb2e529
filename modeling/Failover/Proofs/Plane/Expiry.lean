import Failover.Plane.Basic

/-!
# When a record has expired

A record has expired once it is older than the heartbeat timeout. Its age is the difference of two
timestamps, clamped to a signed word of 64 bits, and the timeout is clamped to such a word too. At
no end of the range does this tell: a record has expired exactly if its true age exceeds the whole
milliseconds of the timeout, unless the timeout fills the word. No age exceeds that, so that under
such a timeout no record ever expires.

## Key results

- `NodeRecord.isExpired_iff`: when a record has expired, by exact integers
- `NodeRecord.isExpired_of_age_le`: a record that is no older than the timeout has not
- `NodeRecord.isExpired_mono`: nor has one that is no older than another that has not
-/

namespace Failover

/-- `asTimestamp` by exact integers: the whole milliseconds, or the greatest timestamp. -/
theorem Duration.toInt_asTimestamp (d : Duration) :
    d.asTimestamp.toInt = min (d.millis : Int) Int64.maxValue.toInt := by
  have hmin : Int64.minValue.toInt = -2 ^ 63 := rfl
  have hmax : Int64.maxValue.toInt = 2 ^ 63 - 1 := rfl
  rw [asTimestamp, Timestamp.toInt_clamp]
  omega

namespace NodeRecord

variable {r q : NodeRecord} {now later : Timestamp} {timeout : Duration}

/-- By exact integers, a record `isExpired` if its age exceeds a timeout that an age can exceed. -/
theorem isExpired_iff : r.isExpired now timeout = true ↔
    (timeout.millis : Int) < Int64.maxValue.toInt ∧
      (timeout.millis : Int) < now.toInt - r.timestamp.toInt := by
  have hmin : Int64.minValue.toInt = -2 ^ 63 := rfl
  have hmax : Int64.maxValue.toInt = 2 ^ 63 - 1 := rfl
  rw [isExpired, decide_eq_true_eq, Int64.lt_iff_toInt_lt, Duration.toInt_asTimestamp, age,
    Timestamp.since, Timestamp.toInt_clamp]
  omega

/-- By exact integers, a record is not expired if its age is within the timeout, or no age exceeds
that. -/
theorem isExpired_eq_false_iff : r.isExpired now timeout = false ↔
    Int64.maxValue.toInt ≤ timeout.millis ∨ now.toInt - r.timestamp.toInt ≤ timeout.millis := by
  rw [← Bool.not_eq_true, isExpired_iff]
  omega

/-- A record that is no older than the timeout is not expired. -/
theorem isExpired_of_age_le (h : now.toInt - r.timestamp.toInt ≤ timeout.millis) :
    r.isExpired now timeout = false :=
  isExpired_eq_false_iff.2 (.inr h)

/-- A record written `now` is not expired, whatever the timeout. -/
theorem isExpired_of_timestamp_eq (h : r.timestamp = now) (timeout : Duration) :
    r.isExpired now timeout = false := by
  refine isExpired_of_age_le ?_
  rw [h]
  omega

/-- A record that is no older than another was is not expired if the other was not. -/
theorem isExpired_mono (h : now.toInt - q.timestamp.toInt ≤ later.toInt - r.timestamp.toInt)
    (hlive : r.isExpired later timeout = false) : q.isExpired now timeout = false := by
  rw [isExpired_eq_false_iff] at *
  omega

/-- A record that is not expired was not expired before. -/
theorem isExpired_of_le (h : now ≤ later) (hlive : r.isExpired later timeout = false) :
    r.isExpired now timeout = false := by
  refine isExpired_mono ?_ hlive
  have hle := Int64.le_iff_toInt_le.1 h
  omega

/-- A record that is as young as one that is not expired is not expired either. -/
theorem isExpired_of_younger (h : r.timestamp ≤ q.timestamp)
    (hlive : r.isExpired now timeout = false) : q.isExpired now timeout = false := by
  refine isExpired_mono ?_ hlive
  have hle := Int64.le_iff_toInt_le.1 h
  omega

end NodeRecord

end Failover
