import Failover.Node.Cluster
import Failover.Proofs.Node.InStep
import Failover.Proofs.Rebind.Workspace

/-!
# The log of what a node does

What a node does to its surroundings is kept in a log (`Surroundings.logged`), so that the order of
what it does can be told. A rebinder is tracked if it is known when it is writing back changes: from
a start that succeeds on, until it is told to stop.

## Key results

- `Surroundings.logged_inStep`: the log changes nothing
- `Site.surroundings_tracks`: the rebinders of the members of a cluster are tracked, whatever their
  stores answer
-/

namespace Failover

variable {ω ε α : Type}

/-! ## The log -/

/-- What a node does to its surroundings, as it is put down in the log. -/
inductive Deed where
  /-- A record was handed over to be stored, while changes were being written back or not. -/
  | published (r : NodeRecord) (persisting : Bool)
  | loaded
  | rebound (readOnly succeeded : Bool)
  | startedPersisting (succeeded : Bool)
  | stoppedPersisting
  | announced
deriving DecidableEq, Repr

/-- Surroundings with a log of the `deeds` that were done to them. -/
structure Logged (ω : Type) where
  world : ω
  deeds : List Deed := []

namespace Logged

/-- Does something to the world and logs it as a `Deed`, which may show how it began and how it came
out. -/
def doing (x : Action ω ε α) (deed : ω → Except ε α → Deed) : Action (Logged ω) ε α := .of fun w =>
  let (r, world) := x.run w.world
  (r, ⟨world, w.deeds ++ [deed w.world r]⟩)

/-- Changes the world and logs that as a `Deed`. -/
def change (f : ω → ω) (d : Deed) (w : Logged ω) : Logged ω := ⟨f w.world, w.deeds ++ [d]⟩

end Logged

namespace Surroundings

/-- The same surroundings, where all that is done to them is put down as a `Deed`. A record is
logged with whether changes were being written back then. -/
def logged (env : Surroundings ω) (persists : ω → Bool) : Surroundings (Logged ω) where
  now w := env.now w.world
  publish r := Logged.doing (env.publish r) fun w _ => .published r (persists w)
  loadPlane := Logged.doing env.loadPlane fun _ _ => .loaded
  rebinder := env.rebinder.map fun rebinder =>
    { rebind := fun readOnly =>
        Logged.doing (rebinder.rebind readOnly) fun _ r => .rebound readOnly r.isOk
      startPersisting :=
        Logged.doing rebinder.startPersisting fun _ r => .startedPersisting r.isOk
      stopPersisting := Logged.change rebinder.stopPersisting .stoppedPersisting }
  announce := Logged.change env.announce .announced

/-- It is known by `persists` when the rebinder of a node is writing back changes: it does from a
start that succeeds on until it is told to stop, and nothing else that the node does changes that.
-/
structure Tracks (env : Surroundings ω) (rebinder : Rebinder ω) (persists : ω → Bool) : Prop where
  rebinder_eq : env.rebinder = some rebinder
  publish : ∀ r w, persists ((env.publish r).run w).2 = persists w
  loadPlane : ∀ w, persists (env.loadPlane.run w).2 = persists w
  announce : ∀ w, persists (env.announce w) = persists w
  rebind : ∀ readOnly w, persists ((rebinder.rebind readOnly).run w).2 = persists w
  startPersisting : ∀ w, persists w = false →
    persists (rebinder.startPersisting.run w).2 = (rebinder.startPersisting.run w).1.isOk
  stopPersisting : ∀ w, persists (rebinder.stopPersisting w) = false

end Surroundings

namespace Surroundings

variable {env : Surroundings ω} {persists : ω → Bool}

/-- What is logged by `doing` comes out as it does without. -/
private theorem doing_inStep (x : Action ω ε α) (deed : ω → Except ε α → Deed) :
    Action.InStep (fun w v => Logged.world w = v) (Logged.doing x deed) x := by
  rintro w _ rfl
  exact ⟨rfl, rfl⟩

/-- A node acts over `logged` surroundings as it does without: the two are `InStep`. -/
theorem logged_inStep : (env.logged persists).InStep env fun w v => w.world = v where
  now_eq := by
    rintro w _ rfl
    rfl
  publish r := doing_inStep _ _
  loadPlane := doing_inStep _ _
  -- The deeds are put down between the two calls of the rebinder and read by nobody.
  takeOver := by
    rintro w _ rfl
    cases hr : env.rebinder with
    | none => simp [takeOver, logged, hr]
    | some rebinder =>
      simp only [takeOver, logged, hr, Option.map_some, Logged.doing, Action.run_of]
      cases (rebinder.rebind false).run w.world with
      | mk r w₁ =>
        cases r with
        | error e => exact ⟨rfl, rfl⟩
        | ok =>
          dsimp only
          cases rebinder.startPersisting.run w₁ with
          | mk r w₂ => cases r <;> exact ⟨rfl, rfl⟩
  stopPersisting := by
    rintro w _ rfl
    simp only [stopPersisting, logged]
    cases env.rebinder <;> rfl
  refresh := by
    rintro w _ rfl
    simp only [refresh, logged]
    cases env.rebinder <;> rfl
  announce := by
    rintro w _ rfl
    rfl

end Surroundings

/-! ## The members of a cluster -/

namespace Workspace

variable {σ : Type} (S : ObjectStore σ)

/-- No call of the store changes whether `isPersisting` holds. -/
private theorem isPersisting_inStep (b : Bool) :
    (seen S).InStep (seen S) fun u v => u = v ∧ u.isPersisting = b :=
  ObjectStore.inStep_of_keeps fun _ _ h => h

/-- `planeDelta` leaves a workspace persisting or not, as it was. -/
private theorem planeDelta_keeps (d : PlaneDelta) (b : Bool) :
    Action.Keeps (fun w => w.isPersisting = b) (planeDelta (seen S) d) :=
  Action.keeps_get.bind fun w => ((isPersisting_inStep S b).planeDelta w.records d).keeps

/-- `loadPlane` leaves a workspace persisting or not, as it was. -/
private theorem loadPlane_keeps (b : Bool) :
    Action.Keeps (fun w => w.isPersisting = b) (loadPlane (seen S)) :=
  Action.keeps_get.bind fun w => ((isPersisting_inStep S b).loadPlane w.records).keeps

/-- After `stopPersisting` a workspace is not persisting. -/
private theorem isPersisting_stopPersisting (w : Workspace σ) :
    w.stopPersisting.isPersisting = false := by
  rw [stopPersisting, stopWriter]
  split
  · rfl
  · next h => exact Bool.eq_false_iff.2 h

/-- A `startPersisting` that succeeds leaves the workspace persisting; one that fails does not. -/
private theorem isPersisting_startPersisting {w : Workspace σ} (hw : w.isPersisting = false) :
    ((startPersisting (seen S)).run w).2.isPersisting =
      ((startPersisting (seen S)).run w).1.isOk := by
  have hstarted : (w.startWriter .persisting).isPersisting = true := by
    have hrunning : (w.writer .persisting).isRunning = false := hw
    rw [startWriter, hrunning]
    rfl
  -- The checkpoint in between does not touch the writer.
  have hcheckpoint := checkpointNow_keeps (T := seen S) (P := fun w => w.isPersisting = true)
    (fun _ _ _ _ h => h) (fun _ _ h => h) _ hstarted
  rw [startPersisting, Action.run_bind_of_ok (Action.run_get w), hw]
  simp only [Bool.false_eq_true, if_false]
  rw [Action.run_bind_of_ok (Action.run_modify ..),
    Action.run_bind_of_ok (Action.run_attempt ..)]
  cases hrun : (checkpointNow (seen S)).run (w.startWriter .persisting) with
  | mk r u =>
    rw [hrun] at hcheckpoint
    cases r with
    | ok => exact hcheckpoint
    | error e => exact isPersisting_stopPersisting u

end Workspace

namespace Site

variable {σ : Type} (S T : ObjectStore σ)

/-- What an action keeps of a workspace is kept at its site by `inWorkspace`. -/
private theorem inWorkspace_keeps {P : Workspace σ → Prop} {x : Action (Workspace σ) ε α}
    (hx : Action.Keeps P x) : Action.Keeps (fun s : Site σ => P s.workspace) (inWorkspace x) :=
  fun s hs => hx s.workspace hs

/-- What has nothing to do with the plan and the counts is kept by `Site.rebind`, if the action
keeps it. -/
theorem rebind_keeps {P : Site σ → Prop}
    (hplan : ∀ s plan, P s → P { s with plan }) (hrebinds : ∀ s n, P s → P { s with rebinds := n })
    (hrefreshes : ∀ s n, P s → P { s with refreshes := n }) {readOnly : Bool}
    {x : Action (Site σ) RebindError Unit} (hx : Action.Keeps P x) :
    Action.Keeps P (rebind readOnly x) := by
  have hend : Action.Keeps P (do
      x
      modify fun s => if readOnly then { s with refreshes := s.refreshes + 1 }
        else { s with rebinds := s.rebinds + 1 } : Action (Site σ) RebindError Unit) := by
    refine hx.bind fun _ => Action.keeps_modify fun s hs => ?_
    split
    · exact hrefreshes s _ hs
    · exact hrebinds s _ hs
  refine Action.keeps_get.bind fun s => ?_
  -- The plan may let the rebind fail before it begins.
  cases planned s.plan with
  | mk error? plan =>
    refine Action.Keeps.bind (Action.keeps_modify fun s hs => hplan s plan hs) fun _ => ?_
    cases error? with
    | some e => exact Action.Keeps.bind (Action.keeps_throw e) fun _ => hend
    | none => exact hend

/-- A `Site.startPersisting` that is refused fails, and any other comes out as the action does. -/
theorem run_startPersisting (x : Action (Site σ) PersistenceError Unit) (s : Site σ) :
    (startPersisting x).run s = (.error .stopped, s) ∨ (startPersisting x).run s = x.run s := by
  rw [startPersisting, Action.run_bind_of_ok (Action.run_get s)]
  split
  · exact .inl rfl
  · exact .inr rfl

/-- What an action keeps whatever its value, it leaves as it is. -/
private theorem eq_of_keeps {P : Site σ → Bool} {x : Action (Site σ) ε α}
    (h : ∀ b, Action.Keeps (fun s => P s = b) x) (s : Site σ) : P (x.run s).2 = P s :=
  h (P s) s rfl

/-- The rebinder of a member that rebuilds its objects is known to be writing back when the
workspace `isPersisting`: its surroundings are of those that `Tracks` describes. -/
theorem surroundings_tracks (registry : Registry) (mode : FailureMode) : ∃ rebinder,
    (surroundings (Workspace.seen S) (Workspace.seen T) (.real registry mode)).Tracks rebinder
      fun s => s.workspace.isPersisting := by
  -- Only the writer of the workspace matters, which starting and stopping change.
  refine ⟨_, rfl, fun r => ?_, ?_, fun _ => rfl, fun readOnly => ?_, fun s hs => ?_, fun s => ?_⟩
  · exact eq_of_keeps fun b => inWorkspace_keeps (Workspace.planeDelta_keeps T (.node r) b)
  · exact eq_of_keeps fun b => inWorkspace_keeps (Workspace.loadPlane_keeps T b)
  · refine eq_of_keeps (P := (·.workspace.isPersisting)) fun b => ?_
    refine rebind_keeps (fun _ _ h => h) (fun _ _ h => h) (fun _ _ h => h) ?_
    have hrebind := Workspace.rebind_keeps (T := Workspace.seen S)
      (P := fun w => w.isPersisting = b) (fun _ _ _ _ h => h) (fun _ _ _ h => h) registry mode
      readOnly
    exact (inWorkspace_keeps hrebind).bind fun _ => Action.keeps_pure ()
  · rcases run_startPersisting (inWorkspace (Workspace.startPersisting (Workspace.seen S))) s
      with h | h
    · simp only [h]
      exact hs
    · simp only [h]
      exact Workspace.isPersisting_startPersisting S hs
  · exact Workspace.isPersisting_stopPersisting s.workspace

end Site

end Failover
