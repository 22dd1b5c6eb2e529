import Failover.Proofs.Node.InStep

/-!
# What the store has taken of a node

A ledger is kept of how the store of the heartbeat records has answered a node: which record it took
last, and whether it has refused one or withheld the plane.

## Key results

- `Surroundings.audited_inStep`: the ledger changes nothing
- `Node.accords_settle`, `Node.eq_record_of_settle`: the record that was taken last is that of the
  node after an election
- `Node.round_audited`: a round after which the ledger is clean has held an election
- `Node.run_audited`: a node does the same in a run of calls where a ledger is kept
-/

namespace Failover

variable {ω : Type}

/-- Surroundings with a ledger of what the store of the records has answered to a node. -/
structure Audited (ω : Type) where
  world : ω
  /-- The record that the store took last. -/
  taken : Option NodeRecord := none
  /-- Whether every record was taken and every plane was read. -/
  isClean : Bool := true

namespace Surroundings

/-- The same surroundings, where `publish` and `loadPlane` keep the ledger of `Audited`. -/
def audited (env : Surroundings ω) : Surroundings (Audited ω) where
  now a := env.now a.world
  publish r := .of fun a =>
    let (res, world) := (env.publish r).run a.world
    (res, ⟨world, if res.isOk then some r else a.taken, a.isClean && res.isOk⟩)
  loadPlane := .of fun a =>
    let (res, world) := env.loadPlane.run a.world
    (res, { a with world, isClean := a.isClean && res.isOk })
  rebinder := env.rebinder.map fun r => r.focus (·.world) fun a world => { a with world }
  announce a := { a with world := env.announce a.world }

variable {env : Surroundings ω}

/-! ## Entries of the ledger -/

/-- The rebinder of `audited` surroundings works on the world alone. -/
private theorem rebinder_audited : env.audited.rebinder =
    env.rebinder.map fun r => r.focus Audited.world fun a world => { a with world } := rfl

/-- `takeOver` leaves the ledger as it is. -/
theorem takeOver_audited (a : Audited ω) :
    env.audited.takeOver a =
      ((env.takeOver a.world).1, { a with world := (env.takeOver a.world).2 }) :=
  takeOver_of_focus rebinder_audited (fun _ _ => rfl) (fun _ _ _ => rfl) (fun _ => rfl) a

theorem stopPersisting_audited (a : Audited ω) :
    env.audited.stopPersisting a = { a with world := env.stopPersisting a.world } :=
  stopPersisting_of_focus rebinder_audited (fun _ => rfl) a

theorem refresh_audited (a : Audited ω) :
    env.audited.refresh a = { a with world := env.refresh a.world } :=
  refresh_of_focus rebinder_audited (fun _ => rfl) a

/-- Of a record that is handed over by `publish` the ledger says whether it was `taken`. -/
theorem audited_publish (r : NodeRecord) (a : Audited ω) :
    (env.audited.publish r).run a = (((env.publish r).run a.world).1,
      ⟨((env.publish r).run a.world).2,
        if ((env.publish r).run a.world).1.isOk then some r else a.taken,
        a.isClean && ((env.publish r).run a.world).1.isOk⟩) := rfl

/-- Of a plane that `loadPlane` withholds the ledger says that it is not clean any more. -/
theorem audited_loadPlane (a : Audited ω) :
    env.audited.loadPlane.run a = ((env.loadPlane.run a.world).1,
      ⟨(env.loadPlane.run a.world).2, a.taken,
        a.isClean && (env.loadPlane.run a.world).1.isOk⟩) := rfl

/-- A node acts over `audited` surroundings as it does without: the two are `InStep`. -/
theorem audited_inStep : env.audited.InStep env fun a w => a.world = w where
  now_eq := by
    rintro a _ rfl
    rfl
  -- The ledger is written and never read by the node.
  publish r := by
    rintro a _ rfl
    exact ⟨rfl, rfl⟩
  loadPlane := by
    rintro a _ rfl
    exact ⟨rfl, rfl⟩
  takeOver := by
    rintro a _ rfl
    rw [takeOver_audited]
    exact ⟨rfl, rfl⟩
  stopPersisting := by
    rintro a _ rfl
    rw [stopPersisting_audited]
  refresh := by
    rintro a _ rfl
    rw [refresh_audited]
  announce := by
    rintro a _ rfl
    rfl

end Surroundings

namespace Node

variable (env : Surroundings ω) (n : Node) (a : Audited ω)

/-- What a `round` comes to where a ledger is kept: the election is held on the plane that was read,
with the node's own record in it, or the ledger is no longer clean. -/
theorem round_audited :
    let now := env.now a.world
    let own := n.record now
    (∃ plane w₁ w₂, (env.publish own).run a.world = (.ok (), w₁) ∧
        env.loadPlane.run w₁ = (.ok plane, w₂) ∧
        n.round env.audited a =
          let x := { n with lastSync := some now }.settle env.audited now
            (decide (((plane.apply (.node own)).elect now n.timeout).master = some n.id))
            ⟨w₂, some own, a.isClean⟩
          (x.1.observe now (some (plane.apply (.node own))), x.2)) ∨
      (n.round env.audited a).2.isClean = false := by
  intro now own
  -- What was refused stays in the ledger.
  have hcheck (b : Audited ω) : (n.checkSync env.audited now b).2.isClean = b.isClean := by
    rw [checkSync]
    split
    · rw [Surroundings.stopPersisting_audited]
    · rfl
  have hnow : env.audited.now a = now := rfl
  simp only [round, hnow, Surroundings.audited_publish, Surroundings.audited_loadPlane]
  -- Only where both the record was taken and the plane was read is an election held.
  cases hp : (env.publish own).run a.world with
  | mk published w₁ =>
    cases hl : env.loadPlane.run w₁ with
    | mk loaded w₂ =>
      cases published with
      | error e => exact .inr ((hcheck _).trans (by simp [Except.isOk, Except.toBool]))
      | ok =>
        cases loaded with
        | error e => exact .inr ((hcheck _).trans (by simp [Except.isOk, Except.toBool]))
        | ok plane => exact .inl ⟨plane, w₁, w₂, rfl, hl, by simp [Except.isOk, Except.toBool, own]⟩

/-! ## What was taken last -/

/-- The record that the store took last goes with the node by `Q`, as long as the ledger is clean.
-/
def Accords (Q : Node → NodeRecord → Prop) (x : Node × Audited ω) : Prop :=
  x.2.isClean = true → ∀ r, x.2.taken = some r → Q x.1 r

section Accords

variable {env n a} {Q : Node → NodeRecord → Prop} {now : Timestamp}
  (hQ : ∀ m : Node, Q m (m.record now))
include hQ

/-- Whatever goes with a node by `Q` goes with it that has just handed over its record by `tell`. -/
theorem accords_tell (m : Node) (a : Audited ω) :
    Accords Q (m, env.audited.tell (m.record now) a) := by
  rw [Surroundings.tell, Surroundings.audited_publish]
  intro hclean r hr
  obtain ⟨-, htaken⟩ := Bool.and_eq_true_iff.1 hclean
  rw [if_pos htaken] at hr
  cases hr
  exact hQ m

private theorem accords_stayStandby (h : Accords Q (n, a)) :
    Accords Q (n.stayStandby env.audited now a) := by
  rw [stayStandby]
  split
  · exact accords_tell hQ _ a
  · exact h

/-- After `promote` the record that was taken last goes with the node as it is then, if it did
before. -/
theorem accords_promote (h : Accords Q (n, a)) : Accords Q (n.promote env.audited now a).2 := by
  rw [promote, Surroundings.takeOver_audited]
  cases (env.takeOver a.world).1 with
  | ok => exact accords_tell hQ { n.asMaster now with lastSync := some now } _
  | error e =>
    dsimp only
    split
    · exact accords_tell hQ n.asFailed _
    · exact accords_stayStandby (a := { a with world := (env.takeOver a.world).2 }) hQ h

/-- After `settle` the record that was taken last goes with the node as it is then, if it did
before. -/
theorem accords_settle (h : Accords Q (n, a)) (isElected : Bool) :
    Accords Q (n.settle env.audited now isElected a) := by
  rw [settle]
  -- The node hands over its record wherever its state changes, and nowhere else.
  cases n.state <;> dsimp only
  case master =>
    cases isElected
    · exact accords_tell hQ n.asStandby _
    · exact h
  case failed | terminated => exact h
  case initializing | standby =>
    cases isElected
    · have hstay : Accords Q (n.stayStandby env.audited now a) := accords_stayStandby hQ h
      show Accords Q (_, if _ then _ else _)
      split
      · rw [Surroundings.refresh_audited]
        exact hstay
      · exact hstay
    · exact accords_promote hQ h

end Accords

/-- If the store had the `record` of a node before an election in which it fails nothing, then it
has the record of the node as `settle` leaves it. -/
theorem eq_record_of_settle {env : Surroundings ω} {n : Node} {a : Audited ω} {now : Timestamp}
    (ha : a.taken = some (n.record now)) {isElected : Bool}
    (hclean : (n.settle env.audited now isElected a).2.isClean = true)
    {r : NodeRecord} (hr : (n.settle env.audited now isElected a).2.taken = some r) :
    r = (n.settle env.audited now isElected a).1.record now := by
  have hbefore : Accords (fun n r => r = n.record now) (n, a) := fun _ q hq =>
    Option.some.inj (hq.symm.trans ha)
  exact accords_settle (Q := fun n r => r = n.record now) (fun _ => rfl) hbefore isElected hclean
    r hr

end Node

/-- The same call over `audited` surroundings. -/
def Node.Call.audited : Call ω → Call (Audited ω)
  | .start mode => .start mode
  | .poll => .poll
  | .stop => .stop
  | .meanwhile f => .meanwhile fun a => { a with world := f a.world }

/-- A node does the same in a run of calls where a ledger is kept: `audited` surroundings are
`InStep` with those without. -/
theorem Node.run_audited (env : Surroundings ω) (n : Node) (a : Audited ω) (cs : List (Call ω)) :
    Alike (fun a w => Audited.world a = w) (Call.run env.audited n a (cs.map .audited))
      (Call.run env n a.world cs) := by
  refine Call.run_inStep Surroundings.audited_inStep rfl n ?_
  rw [List.forall₂_map_left_iff, List.forall₂_same]
  intro c _
  cases c with
  | start mode => exact .start mode
  | poll => exact .poll
  | stop => exact .stop
  | meanwhile f => exact .meanwhile fun _ _ h => congrArg f h

end Failover
