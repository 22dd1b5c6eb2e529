import Mathlib.Data.List.Induction
import Failover.Proofs.Node.Audit
import Failover.Proofs.Node.Starting

/-!
# The state that a node reports

A node is in a state, reports one, and has one in the record that the store took of it last. As long
as the store fails nothing, the three are the same after every call, but for one way to part them: a
start as master that fails while the objects are taken over changes the state and hands over its
record, and comes back before the report is brought up to date. The report lags behind until the
node polls or stops.

## Key results

- `Node.IsTold.act`, `Node.Lags.act`: what a call does to a node whose report is right, and to one
  whose report lags behind
- `Node.Accounted.act`: what a call does to the record that was taken
- `Node.reports_iff`: when the three states are the same
-/

namespace Failover.Node

variable {ω : Type} {env : Surroundings ω} {n n' : Node} {w w' : ω} {a : Audited ω}

/-! ## Reports -/

/-- A node has `reported` its state, and starts from nothing if it has not started. -/
structure IsTold (n : Node) : Prop where
  reported_eq : n.reported = n.state
  state_eq : n.mode = none → n.state = .initializing

/-- A node that has started as master has `reported` a state that it has left. -/
structure Lags (n : Node) : Prop where
  mode_eq : n.mode = some .master
  state_ne : n.state ≠ .terminated
  reported_ne : n.reported ≠ n.state

/-- A node that has not started would fail in `start` as master, while it takes over its objects. -/
def FailsAsMaster (env : Surroundings ω) (n : Node) (w : ω) : Prop :=
  n.mode = none ∧ n.TakesOver env .master w ∧ ∃ e, (n.start env .master w).1 = .error e

/-- A node that has started `IsTold` if it has reported its state. -/
private theorem isTold_of_mode {mode : StartMode} (hmode : n.mode = some mode)
    (h : n.reported = n.state) : n.IsTold :=
  ⟨h, fun hnone => absurd (hmode.symm.trans hnone) (Option.some_ne_none mode)⟩

private theorem isTold_round {mode : StartMode} (hmode : n.mode = some mode) :
    (n.round env w).1.IsTold :=
  isTold_of_mode (mode_round.trans hmode) reported_round

private theorem isTold_join {mode : StartMode} (hmode : n.mode = some mode) :
    (n.join env w).2.1.IsTold :=
  ⟨(isTold_round hmode).reported_eq, (isTold_round hmode).state_eq⟩

/-- A `promote` that fails takes a node out of its first state, and so its report `Lags`. -/
private theorem lags_of_promote {now : Timestamp} {e : NodeError} (hmode : n.mode = some .master)
    (hstate : n.state = .initializing) (hreported : n.reported = n.state)
    (h : n.promote env now w = (.error e, n', w')) : n'.Lags := by
  rw [promote] at h
  cases htake : env.takeOver w with
  | mk r w₁ =>
    rw [htake] at h
    cases r with
    | ok => cases h
    | error e' =>
      dsimp only at h
      -- A failure that is final makes the node a failed one, and any other a standby.
      split at h
      · obtain rfl : n.asFailed = n' := congrArg (·.2.1) h
        exact ⟨hmode, by simp [asFailed], by simp [asFailed, hreported, hstate]⟩
      · rw [stayStandby, if_pos hstate] at h
        obtain rfl : { n with state := .standby } = n' := congrArg (·.2.1) h
        exact ⟨hmode, by simp, by simp [hreported, hstate]⟩

private theorem IsTold.startDisabled (h : n.IsTold) (hmode : n.mode = some .disabled) :
    (n.startDisabled env w).2.1.IsTold := by
  rw [Node.startDisabled]
  cases env.takeOver w with
  | mk r w₁ =>
    cases r with
    | ok => exact isTold_of_mode hmode rfl
    | error e =>
      dsimp only
      split
      · exact isTold_of_mode hmode rfl
      · exact h

/-- After `start` a node `IsTold`, or it `FailsAsMaster` and its report `Lags`. -/
private theorem IsTold.start (h : n.IsTold) (hn : n.mode = none) (env : Surroundings ω)
    (mode : StartMode) (w : ω) :
    (n.start env mode w).2.1.IsTold ∧ ¬ (mode = .master ∧ n.FailsAsMaster env w) ∨
      (n.start env mode w).2.1.Lags ∧ mode = .master ∧ n.FailsAsMaster env w := by
  have hcases := accept_cases env n mode w
  -- A report is brought up to date at the end of every start but one that fails.
  rcases start_cases env n mode w with ⟨e, m, v, hx, -, heq⟩ | ⟨rfl, -, -, heq⟩ |
    ⟨m, v, hmode, hx, -, heq⟩
  · rw [hx] at hcases
    rw [heq]
    cases hcases with
    | started hsome => exact absurd hn hsome
    | refused _ _ hother =>
      refine .inl ⟨h, ?_⟩
      rintro ⟨rfl, -, ⟨plane, w₁, hload, hnone⟩, -⟩
      exact hother rfl plane w₁ hload hnone
    | fails _ hload hother hpromote =>
      have hlags : m.Lags := lags_of_promote (n := { n with mode := some .master }) rfl
        (h.state_eq hn) h.reported_eq hpromote
      exact .inr ⟨hlags, rfl, hn, ⟨_, _, hload, hother⟩, e, by rw [heq]⟩
  · rw [heq]
    refine .inl ⟨IsTold.startDisabled (n := { n with mode := some .disabled }) ?_ rfl, by simp⟩
    exact isTold_of_mode rfl h.reported_eq
  · rw [heq]
    refine .inl ⟨isTold_join (mode_of_accept hx), ?_⟩
    rintro ⟨rfl, -, -, e, he⟩
    rw [heq] at he
    cases he

private theorem IsTold.poll (h : n.IsTold) : (n.poll env w).2.1.IsTold := by
  rcases poll_cases env n w with ⟨-, heq⟩ | ⟨-, hmode, heq⟩ <;> rw [heq]
  · exact h
  · obtain ⟨mode, hmode⟩ := Option.ne_none_iff_exists'.1 hmode
    exact isTold_round hmode

/-- After `stop` a node `IsTold`, even one whose report `Lags`. -/
private theorem isTold_stop (h : n.IsTold ∨ n.Lags) : (n.stop env w).1.IsTold := by
  rw [Node.stop]
  dsimp only
  split
  · next hleft =>
    obtain h | h := h
    · exact ⟨h.reported_eq, h.state_eq⟩
    · simp [h.mode_eq, h.state_ne] at hleft
  · next hleft =>
    refine ⟨rfl, fun hmode => ?_⟩
    have hmode : n.mode = none := hmode
    simp [hmode] at hleft

/-- What a call does to a node that `IsTold`: it stays so, unless the call is a start as master in
which it `FailsAsMaster`. -/
theorem IsTold.act (h : n.IsTold) (env : Surroundings ω) (w : ω) (c : Call ω) :
    (c.act env n w).1.IsTold ∧ ¬ (c = .start .master ∧ n.FailsAsMaster env w) ∨
      (c.act env n w).1.Lags ∧ c = .start .master ∧ n.FailsAsMaster env w := by
  cases c with
  | start mode =>
    show (n.start env mode w).2.1.IsTold ∧ _ ∨ (n.start env mode w).2.1.Lags ∧ _
    rw [Call.start.injEq]
    -- A node that has started before refuses the start and stays as it is.
    by_cases hn : n.mode = none
    · exact h.start hn env mode w
    · rw [start_eq_alreadyStarted hn]
      exact .inl ⟨h, fun hf => hn hf.2.1⟩
  | poll => exact .inl ⟨h.poll, by simp⟩
  | stop => exact .inl ⟨isTold_stop (.inl h), by simp⟩
  | meanwhile f => exact .inl ⟨h, by simp⟩

/-- A report that `Lags` is right again after a poll or a stop; nothing else changes the node. -/
theorem Lags.act (h : n.Lags) (env : Surroundings ω) (w : ω) (c : Call ω) :
    (c.act env n w).1.IsTold ∧ (c = .poll ∨ c = .stop) ∨
      (c.act env n w).1 = n ∧ c ≠ .poll ∧ c ≠ .stop := by
  cases c with
  | start mode =>
    refine .inr ⟨?_, by simp, by simp⟩
    show (n.start env mode w).2.1 = n
    rw [start_eq_alreadyStarted (by simp [h.mode_eq])]
  -- A round ends with a report, whatever comes of it.
  | poll =>
    refine .inl ⟨?_, .inl rfl⟩
    show (n.poll env w).2.1.IsTold
    rw [poll_eq_round h.mode_eq (by decide) h.state_ne]
    exact isTold_round h.mode_eq
  | stop => exact .inl ⟨isTold_stop (.inr h), .inr rfl⟩
  | meanwhile f => exact .inr ⟨rfl, by simp, by simp⟩

/-! ## The record that was taken -/

/-- The record that the store took last is of the state of the node, as long as the ledger is clean.
-/
def Agrees (x : Node × Audited ω) : Prop :=
  x.2.isClean = true → ∀ r, x.2.taken = some r → r.state = x.1.state

private theorem agrees_tell (m : Node) (now : Timestamp) (a : Audited ω) :
    Agrees (m, env.audited.tell (m.record now) a) :=
  accords_tell (Q := fun n r => r.state = n.state) (fun _ => rfl) m a

private theorem agrees_promote (h : Agrees (n, a)) (now : Timestamp) :
    Agrees (n.promote env.audited now a).2 :=
  accords_promote (Q := fun n r => r.state = n.state) (fun _ => rfl) h

/-- After a `round` a node `Agrees` with what was taken, as it begins by handing over its record. -/
private theorem agrees_round (a : Audited ω) : Agrees (n.round env.audited a) := by
  obtain ⟨plane, w₁, w₂, -, -, hround⟩ | hclean := round_audited env n a
  · rw [hround]
    refine accords_settle (n := { n with lastSync := some (env.now a.world) })
      (Q := fun n r => r.state = n.state) (fun _ => rfl) ?_ _
    rintro - r hr
    cases hr
    rfl
  · exact fun h => absurd (hclean.symm.trans h) Bool.false_ne_true

private theorem agrees_join (a : Audited ω) : Agrees (n.join env.audited a).2 := agrees_round a

/-- A node `Agrees` with what was taken, and of one that has not joined by election nothing was. -/
structure Accounted (x : Node × Audited ω) : Prop where
  agrees : Agrees x
  taken_eq : x.1.mode = none ∨ x.1.mode = some .disabled → x.2.taken = none

/-- A node of which nothing was taken is `Accounted` for. -/
private theorem accounted_of_taken_eq_none (h : a.taken = none) : Accounted (n, a) :=
  ⟨fun _ r hr => by simp [h] at hr, fun _ => h⟩

/-- A node that has joined by election is `Accounted` for if it `Agrees` with what was taken. -/
private theorem Agrees.accounted {x : Node × Audited ω} (h : Agrees x) {mode : StartMode}
    (hmode : x.1.mode = some mode) (hne : mode ≠ .disabled) : Accounted x := by
  refine ⟨h, fun hor => ?_⟩
  rw [hmode] at hor
  obtain hor | hor := hor
  · cases hor
  · exact absurd (Option.some.inj hor) hne

private theorem accounted_join (mode : StartMode) (hmode : n.mode = some mode)
    (hne : mode ≠ .disabled) (a : Audited ω) : Accounted (n.join env.audited a).2 := by
  have hround : (n.round env.audited a).1.mode = some mode := mode_round.trans hmode
  exact (agrees_join a).accounted hround hne

/-- After `startDisabled` a node is `Accounted` for, as it hands over nothing. -/
private theorem accounted_startDisabled (h : a.taken = none) :
    Accounted (n.startDisabled env.audited a).2 := by
  rw [startDisabled, Surroundings.takeOver_audited]
  cases (env.takeOver a.world).1 with
  | ok => exact accounted_of_taken_eq_none h
  | error e => exact accounted_of_taken_eq_none h

/-- After `accept` a node is `Accounted` for: the store has taken nothing but the record of its
promotion. -/
private theorem accounted_accept (h : a.taken = none) (mode : StartMode) :
    Accounted (n.accept env.audited mode a).2 := by
  have hcases := accept_cases env.audited n mode a
  -- Reading the plane hands over nothing.
  have hload {plane : Plane} {b : Audited ω}
      (hrun : env.audited.loadPlane.run a = (.ok plane, b)) : b.taken = none := by
    rw [Surroundings.audited_loadPlane] at hrun
    exact (congrArg (·.2.taken) hrun).symm.trans h
  have hpromote {b : Audited ω} (hb : b.taken = none) (now : Timestamp) :
      Accounted ({ n with mode := some .master }.promote env.audited now b).2 :=
    (agrees_promote (accounted_of_taken_eq_none hb).agrees now).accounted
      (promote_continues now).mode_eq (by decide)
  generalize n.accept env.audited mode a = x at hcases
  cases hcases with
  | started | atOnce => exact accounted_of_taken_eq_none h
  | refused => exact accounted_of_taken_eq_none h
  | waits _ _ hrun => exact accounted_of_taken_eq_none (hload hrun)
  | @fails _ plane b hrun _ e m v hp =>
    have haccounted := hpromote (hload hrun) (env.audited.now b)
    rwa [hp] at haccounted
  | @leads _ plane b hrun _ m v hp =>
    have haccounted := hpromote (hload hrun) (env.audited.now b)
    rw [hp] at haccounted
    exact ⟨haccounted.agrees, haccounted.taken_eq⟩

private theorem accounted_start (h : a.taken = none) (mode : StartMode) :
    Accounted (n.start env.audited mode a).2 := by
  have haccept : Accounted (n.accept env.audited mode a).2 := accounted_accept h mode
  rcases start_cases env.audited n mode a with ⟨e, m, v, hx, -, heq⟩ | ⟨-, -, -, heq⟩ |
    ⟨m, v, hne, hx, -, heq⟩
  · rw [hx] at haccept
    rwa [heq]
  · rw [heq]
    exact accounted_startDisabled h
  · rw [heq]
    exact accounted_join mode (mode_of_accept hx) hne v

/-- After every call a node is `Accounted` for that was before. -/
theorem Accounted.act (h : Accounted (n, a)) (c : Call ω) :
    Accounted (c.audited.act env.audited n a) := by
  cases c with
  | start mode =>
    show Accounted (n.start env.audited mode a).2
    by_cases hn : n.mode = none
    · exact accounted_start (h.taken_eq (.inl hn)) mode
    · rw [start_eq_alreadyStarted hn]
      exact h
  | poll =>
    show Accounted (n.poll env.audited a).2
    rw [Node.poll]
    cases hmode : n.mode with
    | none => exact h
    | some mode =>
      dsimp only
      split
      · exact h
      · split
        · exact h
        · next hne => exact (agrees_round a).accounted (mode_round.trans hmode) hne
  | stop =>
    show Accounted (n.stop env.audited a)
    rw [Node.stop]
    dsimp only
    split
    · exact ⟨h.agrees, h.taken_eq⟩
    · next hleft =>
      rw [Surroundings.stopPersisting_audited]
      split
      · -- A node outside the elections hands over no record when it leaves.
        next hdisabled => exact accounted_of_taken_eq_none (h.taken_eq (.inr hdisabled))
      · next hne =>
        obtain ⟨mode, hmode⟩ : ∃ mode, n.mode = some mode := by
          cases hmode : n.mode with
          | none => simp [hmode] at hleft
          | some mode => exact ⟨mode, rfl⟩
        refine Agrees.accounted (agrees_tell _ _ _) hmode ?_
        rintro rfl
        exact hne hmode
  | meanwhile f => exact ⟨h.agrees, h.taken_eq⟩

/-! ## Runs of calls -/

namespace Call

/-- What a call does after a `run` of others. -/
theorem run_concat (env : Surroundings ω) (n : Node) (w : ω) (cs : List (Call ω)) (c : Call ω) :
    run env n w (cs ++ [c]) = c.act env (run env n w cs).1 (run env n w cs).2 :=
  List.foldl_append

/-- A run of calls leaves the report of a node behind: in a start as master it `FailsAsMaster`, and
since then there was neither a poll nor a stop. -/
def LeavesBehind (env : Surroundings ω) (n : Node) (w : ω) (cs : List (Call ω)) : Prop :=
  ∃ before after, cs = before ++ .start .master :: after ∧
    (run env n w before).1.FailsAsMaster env (run env n w before).2 ∧
    ∀ c ∈ after, c ≠ .poll ∧ c ≠ .stop

/-- To do nothing `LeavesBehind` no report. -/
theorem not_leavesBehind_nil : ¬ LeavesBehind env n w [] := by
  rintro ⟨before, after, h, -⟩
  simp at h

/-- When a run `LeavesBehind` the report, told by its last call: that one fails so, or the calls
before it have left the report behind and it does not bring it up to date. -/
theorem leavesBehind_concat {cs : List (Call ω)} {c : Call ω} :
    LeavesBehind env n w (cs ++ [c]) ↔
      (c = .start .master ∧ (run env n w cs).1.FailsAsMaster env (run env n w cs).2) ∨
        LeavesBehind env n w cs ∧ c ≠ .poll ∧ c ≠ .stop := by
  constructor
  · rintro ⟨before, after, h, hfails, hafter⟩
    -- The start that failed is the last call, or one before it.
    obtain rfl | ⟨after, d, rfl⟩ := List.eq_nil_or_concat after
    · obtain ⟨rfl, hc⟩ := List.append_inj' h rfl
      exact .inl ⟨List.singleton_inj.1 hc, hfails⟩
    · rw [List.concat_eq_append, ← List.cons_append, ← List.append_assoc] at h
      obtain ⟨hcs, hc⟩ := List.append_inj' h rfl
      obtain rfl := List.singleton_inj.1 hc
      rw [List.concat_eq_append, List.forall_mem_append, List.forall_mem_singleton] at hafter
      exact .inr ⟨⟨before, after, hcs, hfails, hafter.1⟩, hafter.2⟩
  · rintro (⟨rfl, hfails⟩ | ⟨⟨before, after, rfl, hfails, hafter⟩, hc⟩)
    · exact ⟨cs, [], rfl, hfails, by simp⟩
    · refine ⟨before, after ++ [c], by simp, hfails, ?_⟩
      rw [List.forall_mem_append, List.forall_mem_singleton]
      exact ⟨hafter, hc⟩

/-- After a run of calls a node `IsTold`, or the run `LeavesBehind` its report, which `Lags`. -/
theorem isTold_or_lags (hn : n.IsTold) (env : Surroundings ω) (w : ω) (cs : List (Call ω)) :
    (run env n w cs).1.IsTold ∧ ¬ LeavesBehind env n w cs ∨
      (run env n w cs).1.Lags ∧ LeavesBehind env n w cs := by
  -- By induction from the end: a call is judged by what the calls before it have left.
  induction cs using List.reverseRecOn with
  | nil => exact .inl ⟨hn, not_leavesBehind_nil⟩
  | append_singleton cs c ih =>
    rw [run_concat, leavesBehind_concat]
    obtain ⟨htold, hnot⟩ | ⟨hlags, hleaves⟩ := ih
    · obtain ⟨htold', hnot'⟩ | ⟨hlags', hfails⟩ := htold.act env (run env n w cs).2 c
      · exact .inl ⟨htold', fun h => h.elim hnot' fun h => hnot h.1⟩
      · exact .inr ⟨hlags', .inl hfails⟩
    · obtain ⟨htold', hc⟩ | ⟨hsame, hc⟩ := hlags.act env (run env n w cs).2 c
      · refine .inl ⟨htold', ?_⟩
        rintro (⟨-, hmode, -⟩ | ⟨-, hpoll, hstop⟩)
        · exact absurd (hlags.mode_eq.symm.trans hmode) (by simp)
        · exact hc.elim hpoll hstop
      · rw [hsame]
        exact .inr ⟨hlags, .inr ⟨hleaves, hc⟩⟩

end Call

theorem Accounted.run (h : Accounted (n, a)) (cs : List (Call ω)) :
    Accounted (Call.run env.audited n a (cs.map .audited)) := by
  induction cs generalizing n a with
  | nil => exact h
  | cons c cs ih => exact ih (h.act c)

/-- After every run of calls, whatever fails and whatever happens elsewhere, a node has `reported`
its state unless the run `LeavesBehind` its report. If the ledger is clean, the record that was
`taken` last, if there is one, is of that state too. -/
theorem reports_iff (env : Surroundings ω) (id : String) (uri : Option String) (timeout : Duration)
    (w : ω) (cs : List (Call ω)) :
    let n : Node := { id, uri, timeout }
    let after := (Call.run env n w cs).1
    let ledger := (Call.run env.audited n { world := w } (cs.map .audited)).2
    (after.reported = after.state ↔ ¬ Call.LeavesBehind env n w cs) ∧
      ∀ r, ledger.isClean = true → ledger.taken = some r →
        r.state = after.state ∧ (after.reported = r.state ↔ ¬ Call.LeavesBehind env n w cs) := by
  intro n after ledger
  have hreport : after.reported = after.state ↔ ¬ Call.LeavesBehind env n w cs := by
    have hn : n.IsTold := ⟨rfl, fun _ => rfl⟩
    obtain ⟨htold, hnot⟩ | ⟨hlags, hleaves⟩ := Call.isTold_or_lags hn env w cs
    · exact iff_of_true htold.reported_eq hnot
    · exact iff_of_false hlags.reported_ne (not_not_intro hleaves)
  refine ⟨hreport, fun r hclean hr => ?_⟩
  have haccounted : Accounted (Call.run env.audited n { world := w } (cs.map .audited)) :=
    (accounted_of_taken_eq_none rfl).run cs
  -- The ledger is beside the point for what the node does.
  have hsame := (run_audited env n { world := w } cs).1
  have hstate : r.state = after.state :=
    (haccounted.agrees hclean r hr).trans (congrArg Node.state hsame)
  exact ⟨hstate, hstate ▸ hreport⟩

/-- A member that is `unreachable` starts as master. It is a standby then, and its record says so,
but it reports that it is still starting up. -/
theorem reports_iff_unreachable :
    let env := Site.surroundings (Workspace.faulty Memory.store) (Workspace.faulty Memory.store)
      .pretended
    let n : Node := { id := "a" }
    let after := (Call.run env n unreachable [.start .master]).1
    let ledger := (Call.run env.audited n { world := unreachable } [.start .master]).2
    ledger.isClean = true ∧ after.reported = .initializing ∧
      ∃ r, ledger.taken = some r ∧ r.state = .standby ∧ r.state = after.state ∧
        after.reported ≠ r.state := by
  intro env n after ledger
  have hclean : ledger.isClean = true := by decide +kernel
  have htaken : ledger.taken = some { nodeId := "a", state := .standby, timestamp := 0 } := by
    decide +kernel
  -- The run is the one start, which comes to take over the objects and fails there.
  have hleaves : Call.LeavesBehind env n unreachable [.start .master] :=
    ⟨[], [], rfl, ⟨rfl, ⟨_, _, rfl, by decide +kernel⟩, _, rfl⟩, by simp⟩
  obtain ⟨-, hrecord⟩ := reports_iff env "a" none NodeConfig.defaultHeartbeatTimeout unreachable
    [.start .master]
  obtain ⟨hstate, hreport⟩ := hrecord _ hclean htaken
  exact ⟨hclean, rfl, _, htaken, rfl, hstate, fun h => hreport.1 h hleaves⟩

end Failover.Node
