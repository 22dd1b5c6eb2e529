import Mathlib.Data.List.Forall2
import Failover.Proofs.Node.Turns
import Failover.Proofs.Store.Action

/-!
# Nodes that act in step

Two surroundings are in step under a relation between them if all that a node can do to them comes
out alike and leaves them related. A node does the same over surroundings that are in step: it ends
every call alike, so what is around it may be replaced by what is in step with it.

## Key results

- `Node.Call.run_inStep`: over surroundings in step a node does the same in a run of calls
- `Surroundings.takeOver_of_focus`: what a rebinder does that works on a part of the surroundings
-/

namespace Failover

variable {ω υ : Type}

/-- Two surroundings answer a node alike and stay related by `R`. -/
structure Surroundings.InStep (env : Surroundings ω) (env' : Surroundings υ) (R : ω → υ → Prop) :
    Prop where
  now_eq : ∀ {w v}, R w v → env.now w = env'.now v
  publish : ∀ r, Action.InStep R (env.publish r) (env'.publish r)
  loadPlane : Action.InStep R env.loadPlane env'.loadPlane
  takeOver : ∀ {w v}, R w v →
    (env.takeOver w).1 = (env'.takeOver v).1 ∧ R (env.takeOver w).2 (env'.takeOver v).2
  stopPersisting : ∀ {w v}, R w v → R (env.stopPersisting w) (env'.stopPersisting v)
  refresh : ∀ {w v}, R w v → R (env.refresh w) (env'.refresh v)
  announce : ∀ {w v}, R w v → R (env.announce w) (env'.announce v)

/-! ## Rebinders of a part -/

/-- A rebinder that works on a part of what is around a node, which `get` looks up and `set` puts
back. -/
def Rebinder.focus (r : Rebinder υ) (get : ω → υ) (set : ω → υ → ω) : Rebinder ω where
  rebind readOnly := (r.rebind readOnly).focus get set
  startPersisting := r.startPersisting.focus get set
  stopPersisting w := set w (r.stopPersisting (get w))

namespace Surroundings

variable {env : Surroundings ω} {part : Surroundings υ} {get : ω → υ} {set : ω → υ → ω}
  (h : env.rebinder = part.rebinder.map fun r => r.focus get set)
include h

/-- What `takeOver` does through a rebinder of a part is seen in that part, and leaves the rest as
it is. -/
theorem takeOver_of_focus (hget : ∀ w v, get (set w v) = v)
    (hset : ∀ w v v', set (set w v) v' = set w v') (hself : ∀ w, set w (get w) = w) (w : ω) :
    env.takeOver w = ((part.takeOver (get w)).1, set w (part.takeOver (get w)).2) := by
  rw [takeOver, takeOver, h]
  cases part.rebinder with
  | none => rw [hself]; rfl
  | some r =>
    simp only [Option.map_some, Rebinder.focus, Action.focus, Action.run]
    -- Both calls of the rebinder work on the part, the second on what the first has left there.
    cases r.rebind false (get w) with
    | mk res v =>
      cases res with
      | error e => rfl
      | ok =>
        dsimp only
        rw [hget]
        cases r.startPersisting v with
        | mk res v' =>
          dsimp only
          rw [hset]
          cases res <;> rfl

/-- What `stopPersisting` does through a rebinder of a part is done to that part. -/
theorem stopPersisting_of_focus (hself : ∀ w, set w (get w) = w) (w : ω) :
    env.stopPersisting w = set w (part.stopPersisting (get w)) := by
  rw [stopPersisting, stopPersisting, h]
  cases part.rebinder with
  | none => exact (hself w).symm
  | some r => rfl

/-- What `refresh` does through a rebinder of a part is done to that part. -/
theorem refresh_of_focus (hself : ∀ w, set w (get w) = w) (w : ω) :
    env.refresh w = set w (part.refresh (get w)) := by
  rw [refresh, refresh, h]
  cases part.rebinder with
  | none => exact (hself w).symm
  | some r => rfl

end Surroundings

namespace Node

variable {env : Surroundings ω} {env' : Surroundings υ} {R : ω → υ → Prop}

/-- Two nodes are the same, and what is around them is related by `R`. -/
def Alike (R : ω → υ → Prop) (x : Node × ω) (y : Node × υ) : Prop := x.1 = y.1 ∧ R x.2 y.2

/-! ## What a node does

Function by function: over surroundings `InStep` each has the same result and ends `Alike`, as a
node looks at nothing but what it is answered. -/

section Steps

variable (henv : env.InStep env' R) {w : ω} {v : υ} (hw : R w v) (n : Node)
include henv hw

private theorem tell_inStep (r : NodeRecord) : R (env.tell r w) (env'.tell r v) :=
  (henv.publish r w v hw).2

private theorem stayStandby_inStep (now : Timestamp) :
    Alike R (n.stayStandby env now w) (n.stayStandby env' now v) := by
  rw [stayStandby, stayStandby]
  split
  · exact ⟨rfl, tell_inStep henv hw _⟩
  · exact ⟨rfl, hw⟩

private theorem promote_inStep (now : Timestamp) :
    (n.promote env now w).1 = (n.promote env' now v).1 ∧
      Alike R (n.promote env now w).2 (n.promote env' now v).2 := by
  have htake := henv.takeOver hw
  rw [promote, promote]
  -- Both sides take over with the same result, and so go on alike.
  cases hx : env.takeOver w with
  | mk r w₁ =>
    cases hy : env'.takeOver v with
    | mk r' v₁ =>
      rw [hx, hy] at htake
      obtain ⟨rfl, hw₁⟩ := htake
      cases r with
      | ok => exact ⟨rfl, rfl, henv.announce (tell_inStep henv hw₁ _)⟩
      | error e =>
        dsimp only
        split
        · exact ⟨rfl, rfl, tell_inStep henv hw₁ _⟩
        · exact ⟨rfl, stayStandby_inStep henv hw₁ n now⟩

private theorem demote_inStep (now : Timestamp) :
    Alike R (n.demote env now w) (n.demote env' now v) :=
  ⟨rfl, tell_inStep henv (henv.stopPersisting hw) _⟩

private theorem checkSync_inStep (now : Timestamp) :
    Alike R (n.checkSync env now w) (n.checkSync env' now v) := by
  rw [checkSync, checkSync]
  split
  · exact ⟨rfl, henv.stopPersisting hw⟩
  · exact ⟨rfl, hw⟩

private theorem settle_inStep (now : Timestamp) (isElected : Bool) :
    Alike R (n.settle env now isElected w) (n.settle env' now isElected v) := by
  have hstay := stayStandby_inStep henv hw n now
  rw [settle, settle]
  -- The node is the same on both sides, and so it takes the same way.
  cases n.state <;> dsimp only
  case master =>
    cases isElected
    · exact demote_inStep henv hw n now
    · exact ⟨rfl, hw⟩
  case failed | terminated => exact ⟨rfl, hw⟩
  case initializing | standby =>
    cases isElected
    · refine ⟨hstay.1, ?_⟩
      -- One that is not elected may rebuild its warm copy.
      show R (if (n.stayStandby env now w).1.mode = some .hotStandby then
          env.refresh (n.stayStandby env now w).2 else (n.stayStandby env now w).2)
        (if (n.stayStandby env' now v).1.mode = some .hotStandby then
          env'.refresh (n.stayStandby env' now v).2 else (n.stayStandby env' now v).2)
      rw [← hstay.1]
      split
      · exact henv.refresh hstay.2
      · exact hstay.2
    · exact (promote_inStep henv hw n now).2

/-- Over surroundings `InStep`, a `round` ends `Alike`. -/
theorem round_inStep : Alike R (n.round env w) (n.round env' v) := by
  have hpublish := henv.publish (n.record (env.now w)) w v hw
  rw [round, round, ← henv.now_eq hw]
  dsimp only
  cases hx : (env.publish (n.record (env.now w))).run w with
  | mk published w₁ =>
    cases hy : (env'.publish (n.record (env.now w))).run v with
    | mk published' v₁ =>
      rw [hx, hy] at hpublish
      obtain ⟨rfl, hw₁⟩ := hpublish
      have hload := henv.loadPlane w₁ v₁ hw₁
      cases hx : env.loadPlane.run w₁ with
      | mk loaded w₂ =>
        cases hy : env'.loadPlane.run v₁ with
        | mk loaded' v₂ =>
          rw [hx, hy] at hload
          obtain ⟨rfl, hw₂⟩ := hload
          have hcheck := checkSync_inStep henv hw₂ n (env.now w)
          -- Whichever of the two calls of the store fails, the node is left with what it remembers.
          have hlost : Alike R
              ((n.checkSync env (env.now w) w₂).1.observe (env.now w) none,
                (n.checkSync env (env.now w) w₂).2)
              ((n.checkSync env' (env.now w) v₂).1.observe (env.now w) none,
                (n.checkSync env' (env.now w) v₂).2) :=
            ⟨congrArg (fun n' : Node => n'.observe _ none) hcheck.1, hcheck.2⟩
          cases published with
          | error e => exact hlost
          | ok =>
            cases loaded with
            | error e => exact hlost
            | ok plane =>
              have hsettle := settle_inStep henv hw₂ { n with lastSync := some (env.now w) }
                (env.now w) (decide (((plane.apply (.node (n.record (env.now w)))).elect
                  (env.now w) n.timeout).master = some n.id))
              exact ⟨congrArg (fun n' : Node => n'.observe _ _) hsettle.1, hsettle.2⟩

private theorem join_inStep : Alike R (n.join env w).2 (n.join env' v).2 := by
  have hround := round_inStep henv hw n
  exact ⟨congrArg (fun n' : Node => { n' with isPolling := !n'.isStopping }) hround.1, hround.2⟩

private theorem startDisabled_inStep :
    Alike R (n.startDisabled env w).2 (n.startDisabled env' v).2 := by
  have htake := henv.takeOver hw
  rw [startDisabled, startDisabled, ← henv.now_eq hw]
  cases hx : env.takeOver w with
  | mk r w₁ =>
    cases hy : env'.takeOver v with
    | mk r' v₁ =>
      rw [hx, hy] at htake
      obtain ⟨rfl, hw₁⟩ := htake
      cases r with
      | ok => exact ⟨rfl, henv.announce hw₁⟩
      | error e => exact ⟨rfl, hw₁⟩

private theorem acceptMaster_inStep :
    (n.acceptMaster env w).1 = (n.acceptMaster env' v).1 ∧
      Alike R (n.acceptMaster env w).2 (n.acceptMaster env' v).2 := by
  have hload := henv.loadPlane w v hw
  rw [acceptMaster, acceptMaster]
  cases hx : env.loadPlane.run w with
  | mk loaded w₁ =>
    cases hy : env'.loadPlane.run v with
    | mk loaded' v₁ =>
      rw [hx, hy] at hload
      obtain ⟨rfl, hw₁⟩ := hload
      cases loaded with
      | error e => exact ⟨rfl, rfl, hw₁⟩
      | ok plane =>
        dsimp only
        -- Both look for another master in the same plane at the same time.
        rw [← henv.now_eq hw₁]
        cases n.otherMaster? plane (env.now w₁) with
        | some id => exact ⟨rfl, rfl, hw₁⟩
        | none =>
          have hpromote := promote_inStep henv hw₁ { n with mode := some .master } (env.now w₁)
          dsimp only
          cases hx : { n with mode := some .master }.promote env (env.now w₁) w₁ with
          | mk r x =>
            cases hy : { n with mode := some .master }.promote env' (env.now w₁) v₁ with
            | mk r' y =>
              obtain ⟨n', w₂⟩ := x
              obtain ⟨n'', v₂⟩ := y
              rw [hx, hy] at hpromote
              obtain ⟨rfl, hn, hw₂⟩ := hpromote
              obtain rfl : n' = n'' := hn
              cases r with
              | error e => exact ⟨rfl, rfl, hw₂⟩
              | ok => exact ⟨rfl, rfl, hw₂⟩

private theorem acceptStandby_inStep (mode : StartMode) :
    (n.acceptStandby env mode w).1 = (n.acceptStandby env' mode v).1 ∧
      Alike R (n.acceptStandby env mode w).2 (n.acceptStandby env' mode v).2 := by
  have hload := henv.loadPlane w v hw
  rw [acceptStandby, acceptStandby]
  cases hx : env.loadPlane.run w with
  | mk loaded w₁ =>
    cases hy : env'.loadPlane.run v with
    | mk loaded' v₁ =>
      rw [hx, hy] at hload
      obtain ⟨rfl, hw₁⟩ := hload
      cases loaded with
      | error e => exact ⟨rfl, rfl, hw₁⟩
      | ok plane =>
        dsimp only
        rw [← henv.now_eq hw₁]
        cases n.otherMaster? plane (env.now w₁) with
        | none => exact ⟨rfl, rfl, hw₁⟩
        | some id => exact ⟨rfl, rfl, hw₁⟩

private theorem accept_inStep (mode : StartMode) :
    (n.accept env mode w).1 = (n.accept env' mode v).1 ∧
      Alike R (n.accept env mode w).2 (n.accept env' mode v).2 := by
  rw [accept.eq_def, accept.eq_def]
  split
  · exact ⟨rfl, rfl, hw⟩
  · cases mode with
    | disabled | auto => exact ⟨rfl, rfl, hw⟩
    | master => exact acceptMaster_inStep henv hw n
    | standby => exact acceptStandby_inStep henv hw n .standby
    | hotStandby => exact acceptStandby_inStep henv hw n .hotStandby

private theorem start_inStep (mode : StartMode) :
    Alike R (n.start env mode w).2 (n.start env' mode v).2 := by
  have haccept := accept_inStep henv hw n mode
  rw [start, start]
  cases hx : n.accept env mode w with
  | mk r x =>
    cases hy : n.accept env' mode v with
    | mk r' y =>
      obtain ⟨m, w₁⟩ := x
      obtain ⟨m', v₁⟩ := y
      rw [hx, hy] at haccept
      -- Both are let in, or neither is.
      obtain ⟨rfl, hm, hw₁⟩ := haccept
      obtain rfl : m = m' := hm
      cases r with
      | error e => exact ⟨rfl, hw₁⟩
      | ok =>
        dsimp only
        split
        · exact startDisabled_inStep henv hw₁ m
        · exact join_inStep henv hw₁ m

private theorem poll_inStep : Alike R (n.poll env w).2 (n.poll env' v).2 := by
  rw [poll, poll]
  cases n.mode with
  | none => exact ⟨rfl, hw⟩
  | some mode =>
    dsimp only
    split
    · exact ⟨rfl, hw⟩
    · split
      · exact ⟨rfl, hw⟩
      · exact round_inStep henv hw n

private theorem stop_inStep : Alike R (n.stop env w) (n.stop env' v) := by
  have hstop := henv.stopPersisting hw
  rw [stop, stop]
  dsimp only
  split
  · exact ⟨rfl, hw⟩
  · rw [← henv.now_eq hstop]
    refine ⟨rfl, ?_⟩
    dsimp only
    split
    · exact hstop
    · exact tell_inStep henv hstop _

end Steps

/-- Two calls ask the same of a node; what happens elsewhere keeps its surroundings related by `R`.
-/
inductive Call.InStep (R : ω → υ → Prop) : Call ω → Call υ → Prop where
  | start (mode : StartMode) : InStep R (.start mode) (.start mode)
  | poll : InStep R .poll .poll
  | stop : InStep R .stop .stop
  | meanwhile {f : ω → ω} {g : υ → υ} (h : ∀ w v, R w v → R (f w) (g v)) :
    InStep R (.meanwhile f) (.meanwhile g)

/-- Over surroundings `InStep` a node does the same in a run of calls. -/
theorem Call.run_inStep (henv : env.InStep env' R) {w : ω} {v : υ} (hw : R w v) (n : Node)
    {cs : List (Call ω)} {ds : List (Call υ)} (hcs : List.Forall₂ (Call.InStep R) cs ds) :
    Alike R (Call.run env n w cs) (Call.run env' n v ds) := by
  -- By induction over the two runs, call by call.
  induction hcs generalizing n w v with
  | nil => exact ⟨rfl, hw⟩
  | @cons c d cs ds hc _ ih =>
    have hact : Alike R (c.act env n w) (d.act env' n v) := by
      cases hc with
      | start mode => exact start_inStep henv hw n mode
      | poll => exact poll_inStep henv hw n
      | stop => exact stop_inStep henv hw n
      | meanwhile h => exact ⟨rfl, h w v hw⟩
    have hrest := ih hact.2 (c.act env n w).1
    show Alike R (Call.run env (c.act env n w).1 (c.act env n w).2 cs)
      (Call.run env' (d.act env' n v).1 (d.act env' n v).2 ds)
    rwa [← hact.1]

end Node

end Failover
