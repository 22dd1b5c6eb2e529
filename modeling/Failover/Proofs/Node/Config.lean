import Failover.Node.Config
import Failover.Proofs.Outcome
import Failover.Proofs.Plane.Expiry

/-!
# A configured node outlives its polls

Variables give a configuration exactly if each of them can be read and the times go together: no
period is zero, and the poll period is shorter than the heartbeat timeout. Times are read as numbers
of 64 bits and count in whole milliseconds, so they reach beyond the ages of records, which are
signed. Still, a record that is no older than the poll period has not expired, whatever its time and
the time now.

## Key results

- `NodeConfig.validate_eq_ok`, `NodeConfig.ofVariables_eq_ok`: which configurations there are
- `NodeConfig.isWhole_of_isRead`: their times are whole milliseconds
- `NodeConfig.outlives_polls`: no heartbeat expires between two polls of a configured node
-/

namespace Failover

/-- So many whole milliseconds, their number one of 64 bits. -/
def Duration.IsWhole (d : Duration) : Prop := ∃ n < UInt64.size, d = ofMillis n

/-- A time that `IsWhole` has no part of a millisecond. -/
theorem Duration.IsWhole.nanos_eq {d : Duration} (h : d.IsWhole) : d.nanos = d.millis * 1000000 := by
  obtain ⟨n, -, rfl⟩ := h
  rw [millis_ofMillis, ofMillis]

namespace NodeConfig

variable {vars : String → Option String} {c : NodeConfig}

/-! ## Times -/

/-- A number that `word?` reads has 64 bits. -/
theorem lt_of_word?_eq_some {cs : List Char} {n : Nat} (h : word? cs = some n) :
    n < UInt64.size := by
  simp only [word?, Option.ite_none_left_eq_some, Option.ite_none_right_eq_some,
    Option.some.injEq] at h
  obtain ⟨-, hlt, rfl⟩ := h
  exact hlt

/-- A time that `millis` has read `IsWhole` if the default is. -/
theorem isWhole_of_millis_eq_ok {value? : Option String} {setting : Setting} {default d : Duration}
    (hdefault : default.IsWhole) (h : millis value? setting default = .ok d) : d.IsWhole := by
  cases value? with
  | none =>
    obtain rfl := Except.ok.inj h
    exact hdefault
  | some value =>
    simp only [millis] at h
    split at h
    · next n hn =>
      obtain rfl := Except.ok.inj h
      exact ⟨n, lt_of_word?_eq_some hn, rfl⟩
    · cases h

/-! ## Configurations -/

/-- The times of a configuration go together, as `validate` wants them. -/
structure IsValid (c : NodeConfig) : Prop where
  poll_lt_timeout : c.pollPeriod.nanos < c.heartbeatTimeout.nanos
  poll_pos : 0 < c.pollPeriod.nanos
  persist_pos : 0 < c.persistPeriod.nanos

/-- A configuration has been read from variables, each by itself, before `validate` looks at it. -/
structure IsRead (vars : String → Option String) (c : NodeConfig) : Prop where
  home : c.home = homeOf vars
  nodeId : c.nodeId = vars Setting.nodeId.name
  startMode : choice (vars Setting.startMode.name) .startMode StartMode.ofName? .auto =
    .ok c.startMode
  pollPeriod : millis (vars Setting.pollPeriod.name) .pollPeriod defaultPollPeriod =
    .ok c.pollPeriod
  heartbeatTimeout : millis (vars Setting.heartbeatTimeout.name) .heartbeatTimeout
    defaultHeartbeatTimeout = .ok c.heartbeatTimeout
  persistPeriod : millis (vars Setting.persistPeriod.name) .persistPeriod
    Workspace.defaultPersistPeriod = .ok c.persistPeriod
  failureMode : choice (vars Setting.failureMode.name) .failureMode FailureMode.ofName?
    .failAtEnd = .ok c.failureMode

/-- `validate` passes the configurations that are `IsValid`, and no others. -/
theorem validate_eq_ok : c.validate = .ok () ↔ c.IsValid := by
  constructor
  · intro h
    simp only [validate] at h
    -- Each of the three tests refuses what one field of `IsValid` rules out.
    split at h
    · cases h
    · split at h
      · cases h
      · split at h
        · cases h
        · next hlt hpoll hpersist => exact ⟨by omega, by omega, by omega⟩
  · rintro ⟨hlt, hpoll, hpersist⟩
    rw [validate, if_neg (by omega), if_neg (by omega), if_neg (by omega)]

/-- Variables give a configuration by `ofVariables` exactly if it `IsRead` from them and its times
go together. -/
theorem ofVariables_eq_ok : ofVariables vars = .ok c ↔ c.IsRead vars ∧ c.IsValid := by
  constructor
  · intro h
    -- The variables are read one after the other, and the first that cannot be read ends it.
    obtain ⟨startMode, hstart, h⟩ := exists_of_bind_eq_ok h
    obtain ⟨pollPeriod, hpoll, h⟩ := exists_of_bind_eq_ok h
    obtain ⟨heartbeatTimeout, htimeout, h⟩ := exists_of_bind_eq_ok h
    obtain ⟨persistPeriod, hpersist, h⟩ := exists_of_bind_eq_ok h
    obtain ⟨failureMode, hfailure, h⟩ := exists_of_bind_eq_ok h
    obtain ⟨⟨⟩, hvalid, h⟩ := exists_of_bind_eq_ok h
    obtain rfl := Except.ok.inj h
    exact ⟨⟨rfl, rfl, hstart, hpoll, htimeout, hpersist, hfailure⟩, validate_eq_ok.1 hvalid⟩
  · rintro ⟨⟨hhome, hid, hstart, hpoll, htimeout, hpersist, hfailure⟩, hvalid⟩
    have hvalidate := validate_eq_ok.2 hvalid
    obtain ⟨home, nodeId, startMode, pollPeriod, heartbeatTimeout, persistPeriod, failureMode⟩ := c
    obtain rfl : home = homeOf vars := hhome
    obtain rfl : nodeId = vars Setting.nodeId.name := hid
    simp only [ofVariables, hstart, hpoll, htimeout, hpersist, hfailure, bind, Except.bind]
    rw [hvalidate]
    rfl

/-- All times of a configuration are whole milliseconds. -/
structure IsWhole (c : NodeConfig) : Prop where
  pollPeriod : c.pollPeriod.IsWhole
  heartbeatTimeout : c.heartbeatTimeout.IsWhole
  persistPeriod : c.persistPeriod.IsWhole

/-- A configuration that `IsRead` from variables has times of whole milliseconds, as the defaults
are. -/
theorem isWhole_of_isRead (h : c.IsRead vars) : c.IsWhole where
  pollPeriod := isWhole_of_millis_eq_ok ⟨5000, by decide, rfl⟩ h.pollPeriod
  heartbeatTimeout := isWhole_of_millis_eq_ok ⟨30000, by decide, rfl⟩ h.heartbeatTimeout
  persistPeriod := isWhole_of_millis_eq_ok ⟨1000, by decide, rfl⟩ h.persistPeriod

/-! ## Heartbeats -/

/-- In a configuration that `IsValid` a record that is no older than the poll period has not
expired. -/
theorem IsValid.isExpired_eq_false (h : c.IsValid) {r : NodeRecord} {now : Timestamp}
    (hage : now.toInt - r.timestamp.toInt ≤ c.pollPeriod.millis) :
    r.isExpired now c.heartbeatTimeout = false := by
  have hle : c.pollPeriod.millis ≤ c.heartbeatTimeout.millis :=
    Nat.div_le_div_right (Nat.le_of_lt h.poll_lt_timeout)
  exact NodeRecord.isExpired_of_age_le (by omega)

/-- In a configuration that `ofVariables` gives, no period is zero and the poll period is shorter
than the heartbeat timeout; so a heartbeat that is no older than the poll period has not expired.
Clamping never tells: `isExpired` holds when the true age exceeds the whole milliseconds of the
timeout, and under a timeout that no age can exceed it never does. -/
theorem outlives_polls :
    (∀ (vars : String → Option String) (c : NodeConfig), ofVariables vars = .ok c →
      0 < c.pollPeriod.millis ∧ 0 < c.persistPeriod.millis ∧
        c.pollPeriod.millis < c.heartbeatTimeout.millis ∧
        ∀ (r : NodeRecord) (now : Timestamp),
          now.toInt - r.timestamp.toInt ≤ c.pollPeriod.millis →
            r.isExpired now c.heartbeatTimeout = false) ∧
      ∀ (r : NodeRecord) (now : Timestamp) (d : Duration),
        (d.nanos < (Duration.ofMillis 9223372036854775807).nanos →
          (r.isExpired now d = true ↔ (d.millis : Int) < now.toInt - r.timestamp.toInt)) ∧
        ((Duration.ofMillis 9223372036854775807).nanos ≤ d.nanos →
          r.isExpired now d = false) := by
  have hmax : Int64.maxValue.toInt = 9223372036854775807 := rfl
  refine ⟨fun vars c h => ?_, fun r now d => ⟨fun hd => ?_, fun hd => ?_⟩⟩
  · obtain ⟨hread, hvalid⟩ := ofVariables_eq_ok.1 h
    have hlt := hvalid.poll_lt_timeout
    have hpoll := hvalid.poll_pos
    have hpersist := hvalid.persist_pos
    -- Times of whole milliseconds compare as their milliseconds do.
    have hwhole := isWhole_of_isRead hread
    rw [hwhole.pollPeriod.nanos_eq] at hlt hpoll
    rw [hwhole.heartbeatTimeout.nanos_eq] at hlt
    rw [hwhole.persistPeriod.nanos_eq] at hpersist
    exact ⟨by omega, by omega, by omega, fun _ _ hage => hvalid.isExpired_eq_false hage⟩
  · have hmillis : d.millis < 9223372036854775807 :=
      Nat.div_lt_of_lt_mul (by rwa [Nat.mul_comm])
    rw [NodeRecord.isExpired_iff]
    exact and_iff_right (by omega)
  · have hmillis : 9223372036854775807 ≤ d.millis := (Nat.le_div_iff_mul_le (by decide)).2 hd
    exact NodeRecord.isExpired_eq_false_iff.2 (.inl (by omega))

/-- The variables of a node that polls only once in the greatest age that a record can show. -/
def patient : String → Option String := fun name =>
  if name = Setting.pollPeriod.name then some " +9223372036854775807\t"
  else if name = Setting.heartbeatTimeout.name then some "9223372036854775808"
  else none

/-- Under the configuration of `patient`, a record from the beginning of time is as old in the last
millisecond before the epoch, and later on older than a timestamp can tell. -/
theorem outlives_polls_patient :
    let c : NodeConfig := ⟨"/tmp/.keelson", none, .auto, .ofMillis 9223372036854775807,
      .ofMillis 9223372036854775808, .ofSeconds 1 0, .failAtEnd⟩
    let r : NodeRecord := { nodeId := "a", state := .master, timestamp := Int64.minValue }
    ofVariables patient = .ok c ∧ r.isExpired (-1) c.heartbeatTimeout = false ∧
      r.isExpired Int64.maxValue (.ofMillis 9223372036854775806) = true ∧
      r.isExpired Int64.maxValue c.heartbeatTimeout = false := by
  intro c r
  -- Blanks and a sign around a number are read over.
  have hc : ofVariables patient = .ok c := rfl
  obtain ⟨hlive, hexact⟩ := outlives_polls
  obtain ⟨-, -, -, hlive⟩ := hlive patient c hc
  exact ⟨hc, hlive r (-1) (by decide), ((hexact r _ _).1 (by decide)).2 (by decide),
    (hexact r _ _).2 (by decide)⟩

end NodeConfig

end Failover
