import Failover.Proofs.Node.Turns

/-!
# What a node says of itself

A node reports that it is master exactly while it believes to be, only a node that has started is
master, and a master knows since when. This holds of a new node, and no call changes it, whatever is
around the node and however the calls come out.

## Key results

- `Node.Consistent.act`: every call keeps a node consistent
- `Node.state_ne_master_of_promote`: a promotion that fails leaves no master
-/

namespace Failover.Node

variable {ω : Type} {env : Surroundings ω} {n n' : Node} {w w' : ω}

/-- A node says of itself what it believes, and that it is master only if it has started and knows
since when. -/
structure Consistent (n : Node) : Prop where
  reported_iff : n.reported = .master ↔ n.state = .master
  mode_ne_none : n.state = .master → n.mode ≠ none
  masterSince_ne_none : n.state = .master → n.masterSince ≠ none

/-- A new node is `Consistent`. -/
theorem consistent_new (id : String) (uri : Option String) (timeout : Duration) :
    ({ id, uri, timeout } : Node).Consistent :=
  ⟨by simp, nofun, nofun⟩

/-- What a change of state from `n` to `n'` keeps: how the node was started and what it reports. A
master still knows since when. -/
structure Continues (n n' : Node) : Prop where
  mode_eq : n'.mode = n.mode
  reported_eq : n'.reported = n.reported
  masterSince_ne_none : (n.state = .master → n.masterSince ≠ none) →
    n'.state = .master → n'.masterSince ≠ none

theorem Continues.refl : n.Continues n := ⟨rfl, rfl, fun h => h⟩

/-- A node that `Continues` one that has started is `Consistent` once it has reported its state by
`observe`. -/
theorem Continues.observe (h : n.Continues n') (hmode : n.mode ≠ none)
    (hsince : n.state = .master → n.masterSince ≠ none) (now : Timestamp) (plane : Option Plane) :
    (n'.observe now plane).Consistent :=
  ⟨Iff.rfl, fun _ => h.mode_eq ▸ hmode, h.masterSince_ne_none hsince⟩

/-! ## Changes of state -/

theorem stayStandby_continues (now : Timestamp) :
    n.Continues (n.stayStandby env now w).1 := by
  rw [stayStandby]
  split
  · exact ⟨rfl, rfl, fun _ h => by cases h⟩
  · exact .refl

theorem promote_continues (now : Timestamp) : n.Continues (n.promote env now w).2.1 := by
  rw [promote]
  cases env.takeOver w with
  | mk r w =>
    cases r with
    | ok => exact ⟨rfl, rfl, fun _ _ => Option.some_ne_none _⟩
    | error e =>
      dsimp only
      split
      · exact ⟨rfl, rfl, fun _ h => by cases h⟩
      · exact stayStandby_continues now

/-- `settle` leaves a node that `Continues` this one, however the election went. -/
theorem settle_continues (now : Timestamp) (isElected : Bool) :
    n.Continues (n.settle env now isElected w).1 := by
  rw [settle]
  -- A new master knows since when; one that stays knew before.
  cases n.state <;> dsimp only
  case master =>
    cases isElected
    · exact ⟨rfl, rfl, fun _ h => by cases h⟩
    · exact .refl
  case failed | terminated => exact .refl
  case initializing | standby =>
    cases isElected
    · exact stayStandby_continues now
    · exact promote_continues now

/-- A `promote` that fails leaves no master. -/
theorem state_ne_master_of_promote {now : Timestamp} {e : NodeError} (hs : n.state ≠ .master)
    (h : n.promote env now w = (.error e, n', w')) : n'.state ≠ .master := by
  rw [promote] at h
  cases htake : env.takeOver w with
  | mk r w₁ =>
    rw [htake] at h
    cases r with
    | ok => cases h
    | error e =>
      dsimp only at h
      -- A failure that is final leaves a failed node, any other a standby or what it was.
      split at h
      · cases h
        exact NodeState.noConfusion
      · obtain rfl : (n.stayStandby env now w₁).1 = n' := by
          simpa using congrArg (fun r => r.2.1) h
        rw [stayStandby]
        split
        · exact NodeState.noConfusion
        · exact hs

/-- A node that `accept` lets in has its mode from then on. -/
theorem mode_of_accept {mode : StartMode} (h : n.accept env mode w = (.ok (), n', w')) :
    n'.mode = some mode := by
  have hcases := accept_cases env n mode w
  rw [h] at hcases
  cases hcases with
  | atOnce | waits => rfl
  | @leads _ plane w₁ _ _ m v hp =>
    have hcontinues : Continues { n with mode := some .master }
        ({ n with mode := some .master }.promote env (env.now w₁) w₁).2.1 := promote_continues _
    rw [hp] at hcontinues
    exact hcontinues.mode_eq

/-! ## Calls -/

/-- A `round` goes on as the node was started. -/
theorem mode_round : (n.round env w).1.mode = n.mode := by
  rw [round]
  dsimp only
  split
  · exact (settle_continues _ _).mode_eq
  · rw [checkSync]
    split <;> rfl

/-- No call but a start without an election takes a node out of the elections. -/
theorem mode_act_ne_disabled (hn : n.mode ≠ some .disabled) {c : Call ω}
    (hc : c ≠ .start .disabled) : (c.act env n w).1.mode ≠ some .disabled := by
  cases c with
  | start mode =>
    show (n.start env mode w).2.1.mode ≠ some .disabled
    have hcases := accept_cases env n mode w
    -- A start that fails leaves the node's mode or that of the promotion; one that succeeds has its
    -- own.
    rcases start_cases env n mode w with ⟨e, m, v, hx, -, heq⟩ | ⟨rfl, -⟩ | ⟨m, v, hne, hx, -, heq⟩
    · rw [hx] at hcases
      rw [heq]
      cases hcases with
      | started | refused => exact hn
      | @fails _ plane w₁ _ _ _ m v hp =>
        have hcontinues : Continues { n with mode := some .master }
            ({ n with mode := some .master }.promote env (env.now w₁) w₁).2.1 :=
          promote_continues _
        rw [hp] at hcontinues
        have hmode : m.mode = some .master := hcontinues.mode_eq
        simp [hmode]
    · exact absurd rfl hc
    · rw [heq]
      show (m.round env v).1.mode ≠ some .disabled
      rw [mode_round, mode_of_accept hx]
      exact fun h => hne (Option.some.inj h)
  | poll =>
    show (n.poll env w).2.1.mode ≠ some .disabled
    rcases poll_cases env n w with ⟨-, heq⟩ | ⟨-, -, heq⟩ <;> rw [heq]
    · exact hn
    · rwa [mode_round]
  | stop =>
    show (n.stop env w).1.mode ≠ some .disabled
    rw [stop]
    dsimp only
    split <;> exact hn
  | meanwhile f => exact hn

/-- A run of calls without a start outside the elections leaves the node in them. -/
theorem mode_run_ne_disabled (hn : n.mode ≠ some .disabled) {cs : List (Call ω)}
    (hcs : .start .disabled ∉ cs) : (Call.run env n w cs).1.mode ≠ some .disabled := by
  induction cs generalizing n w with
  | nil => exact hn
  | cons c cs ih =>
    have hc : c ≠ .start .disabled := fun h => hcs (h ▸ List.mem_cons_self)
    exact ih (mode_act_ne_disabled hn hc) fun h => hcs (List.mem_cons_of_mem c h)

/-- After a `round` a node reports its state. -/
theorem reported_round : (n.round env w).1.reported = (n.round env w).1.state := by
  rw [round]
  dsimp only
  split <;> rfl

/-- After a `round` a node that has started is `Consistent`. -/
private theorem round_consistent (hmode : n.mode ≠ none)
    (hsince : n.state = .master → n.masterSince ≠ none) : (n.round env w).1.Consistent := by
  rw [round]
  dsimp only
  split
  · next plane _ _ =>
    have hsettle (w' : ω) (isElected : Bool) : Continues { n with lastSync := some (env.now w) }
        ({ n with lastSync := some (env.now w) }.settle env (env.now w) isElected w').1 :=
      settle_continues (env.now w) isElected
    exact (hsettle _ _).observe hmode hsince _ _
  · -- Without a sync the node stays as it was, or is a standby that reports so.
    rw [checkSync]
    split
    · have hdemoted : n.Continues n.asStandby := ⟨rfl, rfl, fun _ => nofun⟩
      exact hdemoted.observe hmode hsince _ _
    · exact Continues.refl.observe hmode hsince _ _

private theorem join_consistent (hmode : n.mode ≠ none)
    (hsince : n.state = .master → n.masterSince ≠ none) : (n.join env w).2.1.Consistent := by
  have hround : (n.round env w).1.Consistent := round_consistent hmode hsince
  exact ⟨hround.reported_iff, hround.mode_ne_none, hround.masterSince_ne_none⟩

/-- Whether or not `accept` lets a node in, it stays `Consistent`. -/
private theorem accept_consistent (hn : n.Consistent) (mode : StartMode) :
    (n.accept env mode w).2.1.Consistent := by
  have hmode : ({ n with mode := some mode } : Node).Consistent :=
    ⟨hn.reported_iff, fun _ => nofun, hn.masterSince_ne_none⟩
  have hpromote {w : ω} (now : Timestamp) : Continues { n with mode := some .master }
      ({ n with mode := some .master }.promote env now w).2.1 := promote_continues now
  have hs (hnone : n.mode = none) : n.state ≠ .master := fun h => hn.mode_ne_none h hnone
  generalize hx : n.accept env mode w = x
  cases hx ▸ accept_cases env n mode w with
  | started | refused => exact hn
  | atOnce | waits => exact hmode
  | @fails hnone plane w₁ _ _ e n' w' hp =>
    -- A node that could not take over was no master, and does not report that it was.
    have hcontinues := hpromote (w := w₁) (env.now w₁)
    rw [hp] at hcontinues
    have hne := state_ne_master_of_promote (n := { n with mode := some .master }) (hs hnone) hp
    have hreported : n'.reported ≠ .master := by
      rw [hcontinues.reported_eq]
      exact fun h => hs hnone (hn.reported_iff.1 h)
    exact ⟨iff_of_false hreported hne, fun h => absurd h hne, fun h => absurd h hne⟩
  | @leads hnone plane w₁ _ _ n' w' hp =>
    have hcontinues := hpromote (w := w₁) (env.now w₁)
    rw [hp] at hcontinues
    exact hcontinues.observe nofun (fun h => absurd h (hs hnone)) _ _

private theorem startDisabled_consistent (hn : n.Consistent) (hmode : n.mode ≠ none) :
    (n.startDisabled env w).2.1.Consistent := by
  rw [startDisabled]
  cases env.takeOver w with
  | mk r w =>
    cases r with
    | ok => exact ⟨Iff.rfl, fun _ => hmode, fun _ => nofun⟩
    | error e =>
      dsimp only
      split
      · exact ⟨Iff.rfl, nofun, nofun⟩
      · exact hn

private theorem start_consistent (hn : n.Consistent) (mode : StartMode) :
    (n.start env mode w).2.1.Consistent := by
  have haccept : (n.accept env mode w).2.1.Consistent := accept_consistent hn mode
  -- In every ending the node is one that `accept` has left, and what follows keeps it consistent.
  rcases start_cases env n mode w with ⟨e, m, v, hx, -, heq⟩ | ⟨-, -, -, heq⟩ |
    ⟨m, v, -, hx, -, heq⟩
  · rw [hx] at haccept
    rwa [heq]
  · have hmode : ({ n with mode := some .disabled } : Node).Consistent :=
      ⟨hn.reported_iff, fun _ => nofun, hn.masterSince_ne_none⟩
    rw [heq]
    exact startDisabled_consistent hmode nofun
  · rw [hx] at haccept
    rw [heq]
    exact join_consistent (by simp [mode_of_accept hx]) haccept.masterSince_ne_none

/-- Every call keeps a node `Consistent`. -/
theorem Consistent.act (hn : n.Consistent) (c : Call ω) : (c.act env n w).1.Consistent := by
  cases c with
  | start mode => exact start_consistent hn mode
  | poll =>
    show (n.poll env w).2.1.Consistent
    rcases poll_cases env n w with ⟨-, heq⟩ | ⟨-, hmode, heq⟩ <;> rw [heq]
    · exact hn
    · exact round_consistent hmode hn.masterSince_ne_none
  | stop =>
    show (n.stop env w).1.Consistent
    rw [Node.stop]
    dsimp only
    split
    · exact ⟨hn.reported_iff, hn.mode_ne_none, hn.masterSince_ne_none⟩
    · exact ⟨Iff.rfl, nofun, nofun⟩
  | meanwhile f => exact hn

end Failover.Node
