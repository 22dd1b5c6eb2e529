import Failover.Proofs.Node.Effects
import Failover.Proofs.Node.Log

/-!
# The rounds of a run

A run of calls holds one round after the other (`Node.rounds`). What happens before a round, and in
calls without one, is told in few words by `Node.Reaches`: time goes on, and a node is promoted or
not. `Node.Call.act_of_round?` tells the rest.

## Key results

- `Node.Call.reaches_round`, `Node.Call.reaches_act`: what a call does before its round, or without
  one
- `Site.surroundings_clockRuns`: the members of a cluster leave the clock alone
-/

namespace Failover

variable {ω : Type}

/-- Nothing that a node does turns back the clock: a lower bound of `now` is among what it keeps. -/
def Surroundings.ClockRuns (env : Surroundings ω) : Prop :=
  ∀ id t, env.Keeps id fun w => t ≤ env.now w

namespace Node

/-- The rounds of a run of calls, one after the other, each as `Call.round?` tells it. -/
def rounds (env : Surroundings ω) (n : Node) (w : ω) : List (Call ω) → List (Node × ω)
  | [] => []
  | c :: cs =>
    (c.round? env n w).toList ++ rounds env (c.act env n w).1 (c.act env n w).2 cs

variable {env : Surroundings ω} {n m : Node} {w v : ω}

/-- What a node has come to without a round: time has gone on, and if the node is master now, it was
and nothing has changed for it, or it has been promoted meanwhile. -/
structure Reaches (env : Surroundings ω) (n : Node) (w : ω) (m : Node) (v : ω) : Prop where
  timeout_eq : m.timeout = n.timeout
  now_le : env.now w ≤ env.now v
  master : m.state = .master →
    (n.state = .master ∧ m.masterSince = n.masterSince ∧ m.lastSync = n.lastSync) ∨
      ∃ t, env.now w ≤ t ∧ t ≤ env.now v ∧ m.masterSince = some t ∧ m.lastSync = some t

/-- A node `Reaches` itself in another mode, at a later time. -/
theorem Reaches.same (h : env.now w ≤ env.now v) (mode : Option StartMode) :
    Reaches env n w { n with mode } v :=
  ⟨rfl, h, fun hm => .inl ⟨hm, rfl, rfl⟩⟩

/-- A node `Reaches` any that is no master, at a later time. -/
theorem Reaches.of_ne (htimeout : m.timeout = n.timeout) (h : env.now w ≤ env.now v)
    (hm : m.state ≠ .master) : Reaches env n w m v :=
  ⟨htimeout, h, fun hmaster => absurd hmaster hm⟩

/-- What a node `Reaches` may go on without a round. -/
theorem Reaches.trans {k : Node} {u : ω} (h : Reaches env n w m v) (h' : Reaches env m v k u) :
    Reaches env n w k u := by
  refine ⟨h'.timeout_eq.trans h.timeout_eq, Int64.le_trans h.now_le h'.now_le, fun hk => ?_⟩
  rcases h'.master hk with ⟨hm, hsince, hsync⟩ | hpromoted
  · rcases h.master hm with ⟨hn, hsince', hsync'⟩ | ⟨t, hge, hle, hsince', hsync'⟩
    · exact .inl ⟨hn, hsince.trans hsince', hsync.trans hsync'⟩
    · have hle' := Int64.le_trans hle h'.now_le
      exact .inr ⟨t, hge, hle', hsince.trans hsince', hsync.trans hsync'⟩
  · obtain ⟨t, hge, hpromoted⟩ := hpromoted
    exact .inr ⟨t, Int64.le_trans h.now_le hge, hpromoted⟩

section Calls

variable (henv : env.ClockRuns)
include henv

/-- What a node `Reaches` by `promote`: it is a master of that moment, or no new one. -/
private theorem promote_reaches (n : Node) (w : ω) :
    Reaches env n w (n.promote env (env.now w) w).2.1 (n.promote env (env.now w) w).2.2 := by
  have hclock := ((henv n.id (env.now w)).promote (Int64.le_refl (env.now w)) (env.now w)).2
  rw [promote] at hclock ⊢
  -- Only a promotion that succeeds makes a new master, and either way the clock has not gone back.
  cases htake : env.takeOver w with
  | mk r w₁ =>
    rw [htake] at hclock
    cases r with
    | ok => exact ⟨rfl, hclock, fun _ => .inr ⟨env.now w, Int64.le_refl _, hclock, rfl, rfl⟩⟩
    | error e =>
      dsimp only at hclock ⊢
      split at hclock
      · next hfinal =>
        rw [if_pos hfinal]
        exact .of_ne rfl hclock (by simp [asFailed])
      · next hfinal =>
        rw [if_neg hfinal]
        dsimp only at hclock ⊢
        rw [stayStandby] at hclock ⊢
        split at hclock
        · next hstate =>
          rw [if_pos hstate]
          exact .of_ne rfl hclock (by simp)
        · next hstate =>
          rw [if_neg hstate]
          exact .same hclock n.mode

/-- What a node `Reaches` by `accept`: it was promoted, or nothing has changed for it but its mode.
-/
private theorem accept_reaches (n : Node) (mode : StartMode) (w : ω) :
    Reaches env n w (n.accept env mode w).2.1 (n.accept env mode w).2.2 := by
  have hload := (henv n.id (env.now w)).loadPlane w (Int64.le_refl (env.now w))
  have hpromote {w₁ : ω} (hw₁ : env.now w ≤ env.now w₁) :
      Reaches env n w ({ n with mode := some .master }.promote env (env.now w₁) w₁).2.1
        ({ n with mode := some .master }.promote env (env.now w₁) w₁).2.2 :=
    (Reaches.same hw₁ (some .master)).trans (promote_reaches henv _ w₁)
  have hcases := accept_cases env n mode w
  generalize n.accept env mode w = x at hcases
  cases hcases with
  | started => exact .same (Int64.le_refl _) n.mode
  | atOnce => exact .same (Int64.le_refl _) (some mode)
  | refused => exact .same hload n.mode
  | waits _ _ hrun =>
    rw [hrun] at hload
    exact .same hload (some mode)
  | fails _ hrun _ hp =>
    rw [hrun] at hload
    have hreaches := hpromote hload
    rwa [hp] at hreaches
  | leads _ hrun _ hp =>
    rw [hrun] at hload
    have hreaches := hpromote hload
    rw [hp] at hreaches
    -- What the node reports has no part in `Reaches`.
    exact ⟨hreaches.timeout_eq, hreaches.now_le, hreaches.master⟩

/-- What a node `Reaches` by `stop`: it is no master, or had never started. -/
private theorem stop_reaches (n : Node) (w : ω) :
    Reaches env n w (n.stop env w).1 (n.stop env w).2 := by
  have hclock : env.now w ≤ env.now (n.stop env w).2 :=
    ((henv n.id (env.now w)).act (c := .stop) (Int64.le_refl (env.now w)) trivial).2
  rw [stop] at hclock ⊢
  dsimp only at hclock ⊢
  split
  · exact ⟨rfl, Int64.le_refl _, fun hm => .inl ⟨hm, rfl, rfl⟩⟩
  · next hstop =>
    rw [if_neg hstop] at hclock
    exact .of_ne rfl hclock (by simp [observe])

/-- What a node `Reaches` in a call before its `round?`. -/
theorem Call.reaches_round {c : Call ω} (h : c.round? env n w = some (m, v)) :
    Reaches env n w m v := by
  cases c with
  | start mode =>
    have haccept := accept_reaches henv n mode w
    -- Only the ending that joins has a round, and it begins with what `accept` has left.
    rcases start_cases env n mode w with ⟨_, _, _, -, hnone, -⟩ | ⟨-, -, hnone, -⟩ |
      ⟨m', v', -, hx, hsome, -⟩
    · cases hnone.symm.trans h
    · cases hnone.symm.trans h
    · cases hsome.symm.trans h
      rwa [hx] at haccept
  | poll =>
    rcases poll_cases env n w with ⟨hnone, -⟩ | ⟨hsome, -⟩
    · cases hnone.symm.trans h
    · cases hsome.symm.trans h
      exact .same (Int64.le_refl _) n.mode
  | stop | meanwhile f => cases h

/-- What a node `Reaches` in a call without a `round?`, if the call turns back no clock and starts
no node outside the election. -/
theorem Call.reaches_act {c : Call ω} (hc : ∀ t, c.Spares fun w => t ≤ env.now w)
    (h : c.round? env n w = none) : Reaches env n w (c.act env n w).1 (c.act env n w).2 := by
  cases c with
  | start mode =>
    show Reaches env n w (n.start env mode w).2.1 (n.start env mode w).2.2
    have haccept := accept_reaches henv n mode w
    -- A start without a round has failed, as one outside the election is left out.
    rcases start_cases env n mode w with ⟨e, m, v, hx, -, heq⟩ | ⟨hd, -⟩ | ⟨m, v, -, -, hsome, -⟩
    · rw [hx] at haccept
      rwa [heq]
    · exact absurd hd (hc 0)
    · cases h.symm.trans hsome
  | poll =>
    show Reaches env n w (n.poll env w).2.1 (n.poll env w).2.2
    rcases poll_cases env n w with ⟨-, heq⟩ | ⟨hsome, -⟩
    · rw [heq]
      exact .same (Int64.le_refl _) n.mode
    · cases h.symm.trans hsome
  | stop => exact stop_reaches henv n w
  | meanwhile f => exact .same (hc (env.now w) w (Int64.le_refl _)) n.mode

end Calls

end Node

/-! ## The members of a cluster -/

/-- What `Workspace.rebind`, `startPersisting` and `stopPersisting` keep of the workspace and the
clock of a member is kept by its rebinder. -/
theorem Site.rebinder_keeps {σ : Type} {mementos : ObjectStore (Workspace σ)}
    {rebinding : Rebinding} {Q : Workspace σ → ManualClock → Prop}
    (hrebind : ∀ clock registry mode readOnly,
      Action.Keeps (Q · clock) (Workspace.rebind mementos registry mode readOnly))
    (hstart : ∀ clock, Action.Keeps (Q · clock) (Workspace.startPersisting mementos))
    (hstop : ∀ w clock, Q w clock → Q w.stopPersisting clock) {rebinder : Rebinder (Site σ)}
    (h : rebinder? mementos rebinding = some rebinder) :
    rebinder.Keeps fun s => Q s.workspace s.clock := by
  -- The plan and the counts of a site have no part in `Q`.
  have hcounted {readOnly : Bool} {x : Action (Site σ) RebindError Unit}
      (hx : Action.Keeps (fun s => Q s.workspace s.clock) x) :
      Action.Keeps (fun s => Q s.workspace s.clock) (rebind readOnly x) :=
    rebind_keeps (fun _ _ h => h) (fun _ _ h => h) (fun _ _ h => h) hx
  have hallowed {x : Action (Site σ) PersistenceError Unit}
      (hx : Action.Keeps (fun s => Q s.workspace s.clock) x) :
      Action.Keeps (fun s => Q s.workspace s.clock) (startPersisting x) := by
    intro s hs
    rcases run_startPersisting x s with h | h <;> rw [h]
    · exact hs
    · exact hx s hs
  cases rebinding with
  | absent => cases h
  | pretended =>
    cases h
    exact ⟨fun _ => hcounted (Action.keeps_pure ()), hallowed fun _ hs => hs, fun _ hs => hs⟩
  | real registry mode =>
    cases h
    have hrun (readOnly : Bool) : Action.Keeps (fun s : Site σ => Q s.workspace s.clock)
        (inWorkspace (Workspace.rebind mementos registry mode readOnly)) :=
      fun s hs => hrebind s.clock registry mode readOnly s.workspace hs
    exact ⟨fun readOnly => hcounted ((hrun readOnly).bind fun _ => Action.keeps_pure ()),
      hallowed fun s hs => hstart s.clock s.workspace hs, fun s hs => hstop s.workspace s.clock hs⟩

/-- Nothing that a member of a cluster does turns back the clock that the members share: it
`ClockRuns`. -/
theorem Site.surroundings_clockRuns {σ : Type} (mementos records : ObjectStore (Workspace σ))
    (rebinding : Rebinding) : (surroundings mementos records rebinding).ClockRuns := by
  intro id t
  let P (s : Site σ) : Prop := t ≤ s.clock.now
  -- No part of the site but the clock is asked, and nothing turns that.
  have hrebinder : ∀ rebinder, (surroundings mementos records rebinding).rebinder = some rebinder →
      rebinder.Keeps P := by
    intro rebinder h
    exact rebinder_keeps (Q := fun _ clock => t ≤ clock.now) (fun _ _ _ _ _ hs => hs)
      (fun _ _ hs => hs) (fun _ _ hs => hs) h
  exact {
    publish := fun _ _ _ hs => hs
    loadPlane := fun _ hs => hs
    takeOver := fun _ hs => Surroundings.takeOver_keeps (P := P) hrebinder hs
    stopPersisting := fun _ hs => Surroundings.stopPersisting_keeps (P := P) hrebinder hs
    refresh := fun _ hs => Surroundings.refresh_keeps (P := P) hrebinder hs
    announce := fun _ _ _ _ _ hs => hs }

end Failover
