import Failover.Proofs.Node.InStep

/-!
# The time that records are stamped with

A node looks at the clock at the beginning of a round and before a promotion, and stamps with that
time all records that it hands over until it looks again. Where only its rebinder takes time, each
record has the time of the moment at which it is handed over, but for one that follows right after
the rebinder has worked: this has the time from before that work. So all records of a run are up to
date exactly if the clock stood still whenever the rebinder worked before one of them; and a record
that claims mastership may have expired by the time that it is stored.

## Key results

- `Surroundings.clocked_inStep`, `Node.Call.act_clocked`: to note the times changes nothing
- `Clocked.Ready.promote`, `Clocked.Fresh.round`, `Node.Call.act_inOrder`: what one promotion, one
  round and one call hands over
- `Node.isCurrent_iff`: the records of a run
-/

namespace Failover

variable {ω ε α : Type}

/-! ## Times -/

/-- A record that a node hands over to be stored, with the times at that moment. -/
structure Handing where
  record : NodeRecord
  /-- The time before the rebinder began to work, if it has worked since the record before this one
  or the beginning of the call; else the time now. -/
  before : Timestamp
  /-- The time now. -/
  now : Timestamp
deriving DecidableEq, Repr

/-- Surroundings where each `Handing` of a record is noted. -/
structure Clocked (ω : Type) where
  world : ω
  /-- When the rebinder began to work, if it has since the last record. -/
  since : Option Timestamp := none
  handings : List Handing := []

namespace Surroundings

variable (env : Surroundings ω)

/-- The time from before the rebinder worked, or now if it has not since the last record. -/
def before (c : Clocked ω) : Timestamp := c.since.getD (env.now c.world)

/-- The rebinder does some work; when it began is kept, if it had not begun before. -/
def working (x : Action ω ε α) : Action (Clocked ω) ε α := .of fun c =>
  let (r, world) := x.run c.world
  (r, { c with world, since := some (env.before c) })

/-- The same surroundings, where `publish` notes each `Handing` and the rebinder is seen `working`.
-/
def clocked : Surroundings (Clocked ω) where
  now c := env.now c.world
  publish r := .of fun c =>
    let (taken, world) := (env.publish r).run c.world
    (taken, ⟨world, none, c.handings ++ [⟨r, env.before c, env.now c.world⟩]⟩)
  loadPlane := env.loadPlane.focus (·.world) fun c world => { c with world }
  rebinder := env.rebinder.map fun rebinder =>
    { rebind := fun readOnly => env.working (rebinder.rebind readOnly)
      startPersisting := env.working rebinder.startPersisting
      stopPersisting := fun c => { c with world := rebinder.stopPersisting c.world } }
  announce c := { c with world := env.announce c.world }

variable {env}

/-- `takeOver` works on the world alone, and the time from `before` it is kept. -/
theorem takeOver_clocked (env : Surroundings ω) (c : Clocked ω) :
    (env.clocked.takeOver c).1 = (env.takeOver c.world).1 ∧
      (env.clocked.takeOver c).2.world = (env.takeOver c.world).2 ∧
      (env.clocked.takeOver c).2.handings = c.handings ∧
      env.before (env.clocked.takeOver c).2 = env.before c := by
  cases hr : env.rebinder with
  | none => simp [takeOver, clocked, hr]
  | some rebinder =>
    simp only [takeOver, clocked, hr, Option.map_some, working, Action.run_of]
    -- Both calls of the rebinder keep the time from before the first.
    cases (rebinder.rebind false).run c.world with
    | mk r w₁ =>
      cases r with
      | error e => exact ⟨rfl, rfl, rfl, rfl⟩
      | ok =>
        dsimp only
        cases rebinder.startPersisting.run w₁ with
        | mk r w₂ => cases r <;> exact ⟨rfl, rfl, rfl, rfl⟩

/-- `stopPersisting` works on the world alone and is not seen `working`. -/
theorem stopPersisting_clocked (c : Clocked ω) :
    env.clocked.stopPersisting c = { c with world := env.stopPersisting c.world } := by
  simp only [stopPersisting, clocked]
  cases env.rebinder <;> rfl

/-- `refresh` works on the world and hands over nothing. -/
theorem refresh_clocked (c : Clocked ω) :
    (env.clocked.refresh c).world = env.refresh c.world ∧
      (env.clocked.refresh c).handings = c.handings := by
  simp only [refresh, clocked]
  cases env.rebinder <;> exact ⟨rfl, rfl⟩

/-- A node acts over `clocked` surroundings as it does without: the two are `InStep`. -/
theorem clocked_inStep : env.clocked.InStep env fun c v => c.world = v where
  now_eq := by
    rintro c _ rfl
    rfl
  -- The times are noted and never read by the node.
  publish r := by
    rintro c _ rfl
    exact ⟨rfl, rfl⟩
  loadPlane := by
    rintro c _ rfl
    exact ⟨rfl, rfl⟩
  takeOver := by
    rintro c _ rfl
    exact ⟨(takeOver_clocked env c).1, (takeOver_clocked env c).2.1⟩
  stopPersisting := by
    rintro c _ rfl
    rw [stopPersisting_clocked]
  refresh := by
    rintro c _ rfl
    exact (refresh_clocked c).1
  announce := by
    rintro c _ rfl
    rfl

/-- Of all that a node does to its surroundings, only the work of its rebinder takes time. -/
structure IsPunctual (env : Surroundings ω) : Prop where
  publish : ∀ r w, env.now ((env.publish r).run w).2 = env.now w
  loadPlane : ∀ w, env.now (env.loadPlane.run w).2 = env.now w
  stopPersisting : ∀ w, env.now (env.stopPersisting w) = env.now w

end Surroundings

/-! ## Records -/

namespace Clocked

variable {env : Surroundings ω} {c : Clocked ω} {n : Node} {now : Timestamp}

/-- Every record that was handed over has the time from `before` the rebinder worked. -/
def InOrder (c : Clocked ω) : Prop := ∀ h ∈ c.handings, h.record.timestamp = h.before

/-- A record with the time `now` may be handed over: it is the time from `before` the rebinder
worked. -/
structure Ready (env : Surroundings ω) (now : Timestamp) (c : Clocked ω) : Prop where
  inOrder : c.InOrder
  before_eq : env.before c = now

/-- The rebinder has not worked since the last record, or since the beginning. -/
structure Fresh (c : Clocked ω) : Prop where
  inOrder : c.InOrder
  since_eq : c.since = none

/-- Surroundings that are `Fresh` are `Ready` for a record of the present time. -/
theorem Fresh.ready (env : Surroundings ω) (h : c.Fresh) : c.Ready env (env.now c.world) :=
  ⟨h.inOrder, by rw [Surroundings.before, h.since_eq, Option.getD_none]⟩

/-- Surroundings stay `Fresh` whatever happens to the world. -/
theorem Fresh.with_world (h : c.Fresh) (w : ω) : ({ c with world := w } : Clocked ω).Fresh :=
  ⟨h.inOrder, h.since_eq⟩

namespace Ready

variable (h : c.Ready env now)
include h

/-- A record is noted in order that has the time for which the surroundings are `Ready`, and they
are `Fresh` then. -/
theorem publish {r : NodeRecord} (hr : r.timestamp = now) :
    (((env.clocked.publish r).run c).2).Fresh := by
  refine ⟨?_, rfl⟩
  intro e he
  rcases List.mem_append.1 he with he | he
  · exact h.inOrder e he
  · rw [List.mem_singleton.1 he]
    exact hr.trans h.before_eq.symm

/-- To hand over the `record` of a node by `tell` leaves the surroundings `Fresh`. -/
theorem tell (n : Node) : (env.clocked.tell (n.record now) c).Fresh := h.publish rfl

/-- What `stayStandby` hands over has the time for which the surroundings were `Ready`. -/
theorem stayStandby (n : Node) : (n.stayStandby env.clocked now c).2.InOrder := by
  rw [Node.stayStandby]
  split
  · exact (h.tell _).inOrder
  · exact h.inOrder

/-- After `takeOver` the surroundings are `Ready` for the same time, which is from before the
rebinder worked. -/
theorem takeOver : (env.clocked.takeOver c).2.Ready env now := by
  obtain ⟨-, -, hhandings, hbefore⟩ := Surroundings.takeOver_clocked env c
  refine ⟨?_, hbefore.trans h.before_eq⟩
  rw [InOrder, hhandings]
  exact h.inOrder

/-- What `promote` hands over has the time from before the rebinder worked; if it succeeds the
surroundings are `Fresh` then. -/
theorem promote (n : Node) : (n.promote env.clocked now c).2.2.InOrder ∧
    ((n.promote env.clocked now c).1 = .ok () → (n.promote env.clocked now c).2.2.Fresh) := by
  have htake := h.takeOver
  rw [Node.promote]
  cases hrun : env.clocked.takeOver c with
  | mk r c₁ =>
    rw [hrun] at htake
    cases r with
    | ok =>
      have hfresh := (htake.tell { n.asMaster now with lastSync := some now }).with_world
      exact ⟨(hfresh _).inOrder, fun _ => hfresh _⟩
    | error e =>
      dsimp only
      split
      · refine ⟨(htake.tell _).inOrder, fun h => ?_⟩
        cases h
      · refine ⟨htake.stayStandby n, fun h => ?_⟩
        cases h

/-- Surroundings stay `Ready` for the same time when the world changes and takes no time. -/
private theorem with_world {w : ω} (hw : env.now w = env.now c.world) :
    ({ c with world := w } : Clocked ω).Ready env now := by
  refine ⟨h.inOrder, ?_⟩
  rw [← h.before_eq, Surroundings.before, Surroundings.before, hw]

variable (henv : env.IsPunctual)
include henv

/-- `stopPersisting` takes no time, and so leaves the surroundings `Ready`. -/
private theorem stopPersisting : (env.clocked.stopPersisting c).Ready env now := by
  rw [Surroundings.stopPersisting_clocked]
  exact h.with_world (henv.stopPersisting _)

private theorem demote (n : Node) : (n.demote env.clocked now c).2.InOrder :=
  ((h.stopPersisting henv).tell _).inOrder

private theorem checkSync (n : Node) : (n.checkSync env.clocked now c).2.InOrder := by
  rw [Node.checkSync]
  split
  · exact (h.stopPersisting henv).inOrder
  · exact h.inOrder

/-- What `settle` hands over has the time for which the surroundings were `Ready`. -/
private theorem settle (n : Node) (isElected : Bool) :
    (n.settle env.clocked now isElected c).2.InOrder := by
  have hstay := h.stayStandby n
  rw [Node.settle]
  cases n.state <;> dsimp only
  case master =>
    cases isElected
    · exact h.demote henv n
    · exact h.inOrder
  case failed | terminated => exact h.inOrder
  case initializing | standby =>
    cases isElected
    · show (if (n.stayStandby env.clocked now c).1.mode = some .hotStandby then
        env.clocked.refresh (n.stayStandby env.clocked now c).2
        else (n.stayStandby env.clocked now c).2).InOrder
      split
      · rw [InOrder, (Surroundings.refresh_clocked _).2]
        exact hstay
      · exact hstay
    · exact (h.promote n).1

end Ready

/-! ## Calls -/

namespace Fresh

variable (h : c.Fresh)
include h

private theorem startDisabled (n : Node) : (n.startDisabled env.clocked c).2.2.InOrder := by
  have htake := (h.ready env).takeOver
  rw [Node.startDisabled]
  cases hrun : env.clocked.takeOver c with
  | mk r c₁ =>
    rw [hrun] at htake
    cases r <;> exact htake.inOrder

/-- What `stop` hands over has the time at which persisting has ended. -/
private theorem stop (n : Node) : (n.stop env.clocked c).2.InOrder := by
  have hstopped : (env.clocked.stopPersisting c).Fresh := by
    rw [Surroundings.stopPersisting_clocked]
    exact h.with_world _
  rw [Node.stop]
  dsimp only
  split
  · exact h.inOrder
  · dsimp only
    split
    · exact hstopped.inOrder
    · exact ((hstopped.ready env).tell _).inOrder

variable (henv : env.IsPunctual)
include henv

/-- What a `round` hands over has the time of its beginning. -/
theorem round (n : Node) : (n.round env.clocked c).2.InOrder := by
  -- The heartbeat is handed over at once, and reading the others takes no time.
  have hpublished : (((env.clocked.publish (n.record (env.now c.world))).run c).2).Fresh :=
    (h.ready env).publish rfl
  have hnow : env.now ((env.clocked.publish (n.record (env.now c.world))).run c).2.world =
      env.now c.world := henv.publish _ _
  have hready := (hpublished.ready env).with_world
    (henv.loadPlane ((env.clocked.publish (n.record (env.now c.world))).run c).2.world)
  rw [hnow] at hready
  rw [Node.round]
  dsimp only
  split
  · exact Ready.settle hready henv _ _
  · exact Ready.checkSync hready henv n

omit henv in
/-- `accept` hands over nothing but the record of a promotion; if it succeeds, the surroundings are
`Fresh`. -/
private theorem accept (n : Node) (mode : StartMode) :
    (n.accept env.clocked mode c).2.2.InOrder ∧
      ((n.accept env.clocked mode c).1 = .ok () → (n.accept env.clocked mode c).2.2.Fresh) := by
  have hloaded : ((env.clocked.loadPlane.run c).2).Fresh := h.with_world _
  generalize hx : n.accept env.clocked mode c = x
  -- Reading the plane is no work of the rebinder, so it spoils nothing.
  cases hx ▸ Node.accept_cases env.clocked n mode c with
  | started => exact ⟨h.inOrder, nofun⟩
  | refused => exact ⟨hloaded.inOrder, nofun⟩
  | atOnce => exact ⟨h.inOrder, fun _ => h⟩
  | waits _ _ hrun =>
    rw [hrun] at hloaded
    exact ⟨hloaded.inOrder, fun _ => hloaded⟩
  | @fails _ plane c₁ hrun _ e n' c₂ hp =>
    rw [hrun] at hloaded
    have hpromote := (hloaded.ready env).promote { n with mode := some .master }
    rw [show env.now c₁.world = env.clocked.now c₁ from rfl, hp] at hpromote
    exact ⟨hpromote.1, nofun⟩
  | @leads _ plane c₁ hrun _ n' c₂ hp =>
    rw [hrun] at hloaded
    have hpromote := (hloaded.ready env).promote { n with mode := some .master }
    rw [show env.now c₁.world = env.clocked.now c₁ from rfl, hp] at hpromote
    exact ⟨hpromote.1, fun _ => hpromote.2 rfl⟩

private theorem start (n : Node) (mode : StartMode) :
    (n.start env.clocked mode c).2.2.InOrder := by
  have haccept : (n.accept env.clocked mode c).2.2.InOrder ∧
      ((n.accept env.clocked mode c).1 = .ok () → (n.accept env.clocked mode c).2.2.Fresh) :=
    h.accept n mode
  -- The round at the end of a start looks at the clock anew, as the promotion has left nothing
  -- over.
  rcases Node.start_cases env.clocked n mode c with ⟨e, m, v, hx, -, heq⟩ | ⟨-, -, -, heq⟩ |
    ⟨m, v, -, hx, -, heq⟩
  · rw [hx] at haccept
    rw [heq]
    exact haccept.1
  · rw [heq]
    exact h.startDisabled _
  · rw [hx] at haccept
    rw [heq]
    exact (haccept.2 rfl).round henv m

private theorem poll (n : Node) : (n.poll env.clocked c).2.2.InOrder := by
  rcases Node.poll_cases env.clocked n c with ⟨-, heq⟩ | ⟨-, -, heq⟩ <;> rw [heq]
  · exact h.inOrder
  · exact h.round henv n

end Fresh

end Clocked

namespace Node

variable {env : Surroundings ω}

/-- The same call over `clocked` surroundings. -/
def Call.clocked : Call ω → Call (Clocked ω)
  | .start mode => .start mode
  | .poll => .poll
  | .stop => .stop
  | .meanwhile f => .meanwhile fun c => { c with world := f c.world }

/-- What a call hands over over `Fresh` surroundings has the time from before the rebinder worked.
-/
theorem Call.act_inOrder (henv : env.IsPunctual) {x : Clocked ω} (hx : x.Fresh) (n : Node)
    (c : Call ω) : (c.clocked.act env.clocked n x).2.InOrder := by
  cases c with
  | start mode => exact hx.start henv n mode
  | poll => exact hx.poll henv n
  | stop => exact hx.stop n
  | meanwhile f => exact hx.inOrder

/-- A call does the same over `clocked` surroundings as without. -/
theorem Call.act_clocked (env : Surroundings ω) (n : Node) (w : ω) (c : Call ω) :
    Alike (fun x w => x.world = w) (c.clocked.act env.clocked n { world := w })
      (c.act env n w) := by
  have hc : Call.InStep (fun (x : Clocked ω) w => x.world = w) c.clocked c := by
    cases c with
    | start mode => exact .start mode
    | poll => exact .poll
    | stop => exact .stop
    | meanwhile f =>
      refine .meanwhile ?_
      rintro x _ rfl
      rfl
  exact Call.run_inStep Surroundings.clocked_inStep rfl n (.cons hc .nil)

/-- Each `Handing` of a run of calls, where every call begins with the rebinder at rest. -/
def Call.handings (env : Surroundings ω) (n : Node) (w : ω) : List (Call ω) → List Handing
  | [] => []
  | c :: cs => (c.clocked.act env.clocked n { world := w }).2.handings ++
      handings env (c.act env n w).1 (c.act env n w).2 cs

/-- What a run of calls hands over has the time from `before` the rebinder worked. -/
private theorem timestamp_eq (henv : env.IsPunctual) {n : Node} {w : ω} {cs : List (Call ω)}
    {h : Handing} (hmem : h ∈ Call.handings env n w cs) : h.record.timestamp = h.before := by
  induction cs generalizing n w with
  | nil => cases hmem
  | cons c cs ih =>
    rcases List.mem_append.1 hmem with hmem | hmem
    · exact Call.act_inOrder henv ⟨fun _ h => absurd h List.not_mem_nil, rfl⟩ n c h hmem
    · exact ih hmem

/-- Where the surroundings are `IsPunctual`, the records that a node hands over in a run of calls
are all up to date exactly if its rebinder took no time right before one of them. A record has
expired already exactly if that took longer than the heartbeat timeout. -/
theorem isCurrent_iff (henv : env.IsPunctual) (n : Node) (w : ω) (cs : List (Call ω)) :
    (∀ h ∈ Call.handings env n w cs, h.record.timestamp = h.before) ∧
    ((∀ h ∈ Call.handings env n w cs, h.record.timestamp = h.now) ↔
      ∀ h ∈ Call.handings env n w cs, h.before = h.now) ∧
    ∀ timeout, ∀ h ∈ Call.handings env n w cs,
      (h.record.isExpired h.now timeout = true ↔
        timeout.asTimestamp < h.now.since h.before) := by
  refine ⟨fun h hmem => timestamp_eq henv hmem, ?_, fun timeout h hmem => ?_⟩
  · refine forall₂_congr fun h hmem => ?_
    rw [timestamp_eq henv hmem]
  · rw [NodeRecord.isExpired, NodeRecord.age, timestamp_eq henv hmem, decide_eq_true_eq]

/-- Surroundings in which nothing fails, and in which it takes some milliseconds to rebuild the
objects. -/
def slow (millis : Timestamp) : Surroundings (Timestamp × Plane) where
  now w := w.1
  publish r := modify fun w => (w.1, w.2.apply (.node r))
  loadPlane := do return (← get).2
  rebinder := some
    { rebind := fun _ => modify fun w => (w.1 + millis, w.2)
      startPersisting := pure ()
      stopPersisting := fun w => w }
  announce := fun w => w

/-- A node whose objects are so `slow` to rebuild that a heartbeat does not last so long starts as
master: its claim has expired when it is stored. -/
theorem isCurrent_iff_slow :
    let n : Node := { id := "a" }
    let claim : NodeRecord :=
      { nodeId := "a", state := .master, timestamp := 0, masterSince := some 0 }
    let handings := Call.handings (slow 30001) n (0, {}) [.start .master]
    (slow 30001).IsPunctual ∧
    ⟨claim, 0, 30001⟩ ∈ handings ∧ claim.isExpired 30001 n.timeout = true ∧
    ¬ ∀ h ∈ handings, h.record.timestamp = h.now := by
  intro n claim handings
  have henv : (slow 30001).IsPunctual := ⟨fun _ _ => rfl, fun _ => rfl, fun _ => rfl⟩
  -- The claim is handed over after the rebuild, with the time from before it.
  have hmem : (⟨claim, 0, 30001⟩ : Handing) ∈ handings := by decide +kernel
  obtain ⟨-, hiff, hexpired⟩ := isCurrent_iff henv n (0, {}) [.start .master]
  refine ⟨henv, hmem, (hexpired n.timeout _ hmem).2 (by decide), fun hcurrent => ?_⟩
  exact absurd (hiff.1 hcurrent _ hmem) (by decide)

end Node

end Failover
