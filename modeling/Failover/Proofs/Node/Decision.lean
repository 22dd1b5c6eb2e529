import Failover.Proofs.Node.Announcements
import Failover.Proofs.Node.Audit
import Failover.Proofs.Node.Board
import Failover.Proofs.Node.Consistent
import Failover.Proofs.Node.Rounds
import Failover.Proofs.Rebind.Undisturbed

/-!
# What one poll decides

A node that polls hands over its record, reads the plane and holds the election. What becomes of it
is told here by what it sees of the others in that plane, and, if it is elected, by how its rebinder
fares. Only on some ways through a poll does it hand over its record once more; but on each of them
the store has the record in the end as the node is then.

## Key results

- `Node.isElected_iff_of_master`, `Node.isElected_iff_of_waits`: who is elected
- `Surroundings.HoldsRecord.audited_keeps`: the store has the record that it took last
- `Node.decides_of_poll`: what becomes of a node in a poll, and which record is stored then
- `Site.surroundings_holdsRecord`: all this is so for the members of a cluster
-/

namespace Failover

variable {ω : Type}

/-! ## Surroundings -/

/-- Nothing but what a node of this id hands over by `publish` changes the record that is `held` of
it. -/
structure Surroundings.HoldsRecord (env : Surroundings ω) (held : ω → Option NodeRecord)
    (id : String) : Prop where
  stores : env.Stores held id
  loadPlane : ∀ w, held (env.loadPlane.run w).2 = held w
  isFiled : ∀ w plane v, env.loadPlane.run w = (.ok plane, v) → plane.IsFiled
  takeOver : ∀ w, held (env.takeOver w).2 = held w
  stopPersisting : ∀ w, held (env.stopPersisting w) = held w
  refresh : ∀ w, held (env.refresh w) = held w
  announce : ∀ w, held (env.announce w) = held w

/-- What becomes of a node that is `promoted` does not depend on the ledger. -/
theorem Surroundings.promoted_audited (env : Surroundings ω) (a : Audited ω) :
    env.audited.promoted a = env.promoted a.world := by
  rw [promoted_eq, promoted_eq, takeOver_audited]

/-! ## The record that is stored -/

/-- The record that is `held` is the one that the store took last. -/
def Audited.IsStored (held : ω → Option NodeRecord) (a : Audited ω) : Prop :=
  ∃ r, a.taken = some r ∧ held a.world = some r

section Stored

variable {env : Surroundings ω} {held : ω → Option NodeRecord} {id : String}

/-- `IsStored` depends on the world only through what is `held` there. -/
private theorem Audited.IsStored.world {a : Audited ω} (h : a.IsStored held) {w : ω}
    (hw : held w = held a.world) : ({ a with world := w } : Audited ω).IsStored held := by
  obtain ⟨r, htaken, hheld⟩ := h
  exact ⟨r, htaken, hw.trans hheld⟩

/-- A record that `publish` fails to store leaves the one that was taken before it. -/
private theorem Surroundings.HoldsRecord.publish_keeps (henv : env.HoldsRecord held id)
    {r : NodeRecord} (hr : r.nodeId = id) :
    Action.Keeps (Audited.IsStored held) (env.audited.publish r) := by
  rintro a ⟨q, htaken, hheld⟩
  rw [Surroundings.audited_publish]
  obtain ⟨⟨⟩, w, hrun, hw⟩ | ⟨e, w, hrun, hw⟩ := (henv.stores r hr _).run_cases hheld
  · rw [hrun]
    exact ⟨r, rfl, hw⟩
  · rw [hrun]
    exact ⟨q, htaken, hw⟩

/-- Nothing that a node does parts the record that is `held` from the one that was taken last. -/
theorem Surroundings.HoldsRecord.audited_keeps (henv : env.HoldsRecord held id) :
    env.audited.Keeps id (Audited.IsStored held) where
  publish _ hr := henv.publish_keeps hr
  loadPlane a h := h.world (henv.loadPlane a.world)
  takeOver a h := by
    rw [takeOver_audited]
    exact h.world (henv.takeOver a.world)
  stopPersisting a h := by
    rw [stopPersisting_audited]
    exact h.world (henv.stopPersisting a.world)
  refresh a h := by
    rw [refresh_audited]
    exact h.world (henv.refresh a.world)
  -- The claim is handed over, and after that announcing it changes nothing that is held.
  announce _ hr _ _ a h := (henv.publish_keeps hr a h).world (henv.announce _)

end Stored

/-! ## The members of a cluster -/

open Failover.Action (Keeps)

namespace Workspace

variable {id : String} {before : Option NodeRecord}

/-- Nothing that is stored below the sub-path of a kind of mementos is `posted?` as a node's record.
-/
private theorem posted?_of_kind (k : Kind) {c : Store.Call} (hc : c.IsBelow k.subPath) :
    Keeps (fun w => w.store.posted? id = before) ((faulty Memory.store).call c) := by
  refine faulty_keeps_store (Q := fun m : Memory => m.posted? id = before) fun m hm => ?_
  have hsame : Memory.SameBelow RecordPersister.subPath m (Memory.step c m).2 :=
    Memory.keepsApart.elsewhere RecordPersister.slash_not_mem_subPath k.slash_not_mem_subPath
      k.subPath_ne_plane.symm hc ⟨rfl, fun _ => rfl⟩
  have hfiles := hsame.files id
  show (Memory.step c m).2.posted? id = before
  rw [← hm, Memory.posted?, Memory.posted?, RecordPersister.path, hfiles]

/-- A call that only reads leaves the record that is `posted?`. -/
private theorem posted?_of_reads {c : Store.Call} (hc : c.Reads) :
    Keeps (fun w => w.store.posted? id = before) ((faulty Memory.store).call c) := by
  refine faulty_keeps_store (Q := fun m : Memory => m.posted? id = before) fun m hm => ?_
  cases hc <;> exact hm

/-- `stopPersisting` leaves the store alone. -/
private theorem store_stopPersisting {σ : Type} (w : Workspace σ) :
    w.stopPersisting.store = w.store := by
  rw [stopPersisting, stopWriter]
  split <;> rfl

/-- `startWriter` leaves the store alone. -/
private theorem store_startWriter {σ : Type} (w : Workspace σ) :
    (w.startWriter .persisting).store = w.store := by
  rw [startWriter]
  split <;> rfl

end Workspace

/-- Whatever goes wrong with the calls of their stores, the members of a cluster have surroundings
of which `HoldsRecord` is true; not even rebuilding the objects from the same store and writing them
back there touches a node's record. -/
theorem Site.surroundings_holdsRecord (rebinding : Rebinding) (id : String) :
    (surroundings (Workspace.faulty Memory.store) (Workspace.faulty Memory.store)
      rebinding).HoldsRecord (fun s => s.workspace.store.posted? id) id := by
  let env := surroundings (Workspace.faulty Memory.store) (Workspace.faulty Memory.store) rebinding
  let P (before : Option NodeRecord) (s : Site Memory) : Prop :=
    s.workspace.store.posted? id = before
  -- The rebinder calls the store only below the sub-paths of the mementos.
  have hrebinder (before : Option NodeRecord) (rebinder : Rebinder (Site Memory))
      (h : env.rebinder = some rebinder) : rebinder.Keeps (P before) := by
    refine rebinder_keeps (Q := fun w _ => w.store.posted? id = before) ?_ ?_ ?_ h
    · exact fun _ => Workspace.rebind_keeps (fun k _ => Workspace.posted?_of_kind k) fun _ _ _ h => h
    · intro _
      refine Workspace.startPersisting_keeps (fun k _ => Workspace.posted?_of_kind k)
        (fun _ _ h => h) (fun w h => ?_) fun w h => ?_
      · rwa [w.store_startWriter]
      · rwa [w.store_stopPersisting]
    · intro w _ h
      rwa [w.store_stopPersisting]
  have hload (before : Option NodeRecord) : Keeps (fun w => w.store.posted? id = before)
      (Workspace.loadPlane (Workspace.faulty Memory.store)) :=
    Action.keeps_get.bind fun w =>
      RecordPersister.load_keeps (fun _ => Workspace.posted?_of_reads) w.records
  have hfiled (s : Site Memory) (plane : Plane) (v : Site Memory)
      (h : env.loadPlane.run s = (.ok plane, v)) : plane.IsFiled := by
    have hresult : ((s.workspace.records.load (Workspace.faulty Memory.store)).run s.workspace).1 =
        .ok plane := congrArg Prod.fst h
    exact RecordPersister.isFiled_of_load (Prod.ext hresult rfl)
  exact {
    stores := surroundings_stores _ rebinding id
    loadPlane := fun s => hload _ s.workspace rfl
    isFiled := hfiled
    takeOver := fun s => Surroundings.takeOver_keeps (P := P _) (hrebinder _) rfl
    stopPersisting := fun s => Surroundings.stopPersisting_keeps (P := P _) (hrebinder _) rfl
    refresh := fun s => Surroundings.refresh_keeps (P := P _) (hrebinder _) rfl
    announce := fun _ => rfl }

namespace Node

variable {env : Surroundings ω} {n : Node} {now : Timestamp} {plane : Plane} {w : ω}

/-! ## Who is elected -/

/-- A node sees in a plane a record of another node, and the record has not expired. -/
def Sees (n : Node) (now : Timestamp) (plane : Plane) (r : NodeRecord) : Prop :=
  r.nodeId ≠ n.id ∧ plane.nodes.get? r.nodeId = some r ∧ r.isExpired now n.timeout = false

/-- A master `Sees` a claim to mastership that goes before its own: it is later, or as late and of a
smaller id. -/
def SeesBetterClaim (n : Node) (now : Timestamp) (plane : Plane) : Prop :=
  ∃ r, n.Sees now plane r ∧ r.state = .master ∧
    ((n.record now).claimTime < r.claimTime ∨
      r.claimTime = (n.record now).claimTime ∧ r.nodeId < n.id)

/-- A node that is no master `Sees` one, or a node of a smaller id that may become master. -/
def SeesPrior (n : Node) (now : Timestamp) (plane : Plane) : Prop :=
  ∃ r, n.Sees now plane r ∧ (r.state = .master ∨ r.state.isEligible = true ∧ r.nodeId < n.id)

/-- A node wins the election on a plane, into which its own record is put. -/
def IsElected (n : Node) (now : Timestamp) (plane : Plane) : Prop :=
  ((plane.apply (.node (n.record now))).elect now n.timeout).master = some n.id

instance : Decidable (n.IsElected now plane) := inferInstanceAs (Decidable (_ = _))

section Elections

variable (hplane : plane.IsFiled)
include hplane

/-- In the plane of the election a node finds its own `record` as it has just handed it over. -/
private theorem get?_nodes_own (n : Node) (now : Timestamp) :
    (plane.apply (.node (n.record now))).nodes.get? n.id = some (n.record now) :=
  (Plane.get?_nodes_apply_node hplane _ _).trans (if_pos rfl)

/-- In the plane of the election the records of the other nodes are those that were read. -/
private theorem get?_nodes_other {id : String} (hne : id ≠ n.id) (now : Timestamp) :
    (plane.apply (.node (n.record now))).nodes.get? id = plane.nodes.get? id :=
  (Plane.get?_nodes_apply_node hplane _ _).trans (if_neg hne)

/-- A master `IsElected` exactly if it sees no better claim. -/
theorem isElected_iff_of_master (hs : n.state = .master) :
    n.IsElected now plane ↔ ¬ n.SeesBetterClaim now plane := by
  have hfresh : (n.record now).isExpired now n.timeout = false :=
    NodeRecord.isExpired_of_timestamp_eq rfl _
  have hclaims : (n.record now).claims = true := decide_eq_true hs
  refine (Plane.elect_eq_self (plane.apply_isFiled _) (get?_nodes_own hplane n now) hfresh
    hclaims).trans ?_
  constructor
  · rintro hall ⟨r, ⟨hne, hr, hlive⟩, hmaster, hbetter⟩
    rw [← get?_nodes_other hplane hne now] at hr
    have hrank := hall r.nodeId r hne hr hlive (decide_eq_true hmaster)
    -- Of two claims not both outrank each other.
    have hself := NodeRecord.outranks_trans hrank (NodeRecord.outranks_iff.2 hbetter)
    exact NodeRecord.not_outranks_self _ hself
  · intro hnone id r hne hr hlive hmaster
    rw [get?_nodes_other hplane hne] at hr
    obtain rfl := hplane id r hr
    refine (NodeRecord.outranks_or_outranks hne.symm).resolve_right fun hrank => hnone ?_
    exact ⟨r, ⟨hne, hr, hlive⟩, of_decide_eq_true hmaster, NodeRecord.outranks_iff.1 hrank⟩

/-- A node that is not master yet `IsElected` exactly if it sees nobody that goes before it. -/
theorem isElected_iff_of_waits (hs : n.state = .initializing ∨ n.state = .standby) :
    n.IsElected now plane ↔ ¬ n.SeesPrior now plane := by
  have hfresh : (n.record now).isExpired now n.timeout = false :=
    NodeRecord.isExpired_of_timestamp_eq rfl _
  have hstate : n.state.isEligible = true ∧ decide (n.state = .master) = false := by
    rcases hs with hs | hs <;> rw [hs] <;> decide
  refine (Plane.elect_eq_self_of_not_claims (plane.apply_isFiled _) (get?_nodes_own hplane n now)
    hfresh hstate.1 hstate.2).trans ?_
  constructor
  · rintro hall ⟨r, ⟨hne, hr, hlive⟩, hprior⟩
    rw [← get?_nodes_other hplane hne now] at hr
    obtain ⟨hclaims, hfirst⟩ := hall r.nodeId r hne hr hlive
    rcases hprior with hmaster | ⟨heligible, hlt⟩
    · exact of_decide_eq_false hclaims hmaster
    · exact String.lt_irrefl _ (String.lt_trans hlt (hfirst heligible))
  · intro hnone id r hne hr hlive
    rw [get?_nodes_other hplane hne] at hr
    obtain rfl := hplane id r hr
    constructor
    · exact decide_eq_false fun hmaster => hnone ⟨r, ⟨hne, hr, hlive⟩, .inl hmaster⟩
    · intro heligible
      show n.id < r.nodeId
      -- If the other's id is not the greater one it is the smaller, and then the other goes before.
      by_contra hlt
      have hprior : r.nodeId < n.id :=
        String.not_le.1 fun hle => hne (String.le_antisymm (String.not_lt.1 hlt) hle)
      exact hnone ⟨r, ⟨hne, hr, hlive⟩, .inr ⟨heligible, hprior⟩⟩

end Elections

/-! ## What becomes of a node -/

/-- What becomes of a node that has read a plane: it comes to the state `s`, where it would be
`promoted` if elected. -/
structure Decides (n : Node) (now : Timestamp) (plane : Plane) (promoted s : NodeState) : Prop where
  /-- One that has failed stays so. -/
  failed : n.state = .failed → s = .failed
  /-- A master stays master exactly if it sees no better claim. -/
  master_iff : n.state = .master → (s = .master ↔ ¬ n.SeesBetterClaim now plane)
  /-- Otherwise it is a standby. -/
  demoted : n.state = .master → s ≠ .master → s = .standby
  /-- Any other node is elected exactly if it sees nobody that goes before it. -/
  isElected_iff : n.state = .initializing ∨ n.state = .standby →
    (n.IsElected now plane ↔ ¬ n.SeesPrior now plane)
  /-- If it is elected its rebinder decides what it is. -/
  elected : n.state = .initializing ∨ n.state = .standby → n.IsElected now plane → s = promoted
  /-- If it is not elected it is a standby. -/
  waits : n.state = .initializing ∨ n.state = .standby → ¬ n.IsElected now plane → s = .standby

/-- An election by `settle` on a plane `Decides` so; when the node last synced does not matter. -/
theorem decides_settle (env : Surroundings ω) (n : Node) (now : Timestamp) (hplane : plane.IsFiled)
    (lastSync : Option Timestamp) (w : ω) :
    n.Decides now plane (env.promoted w)
      ({ n with lastSync }.settle env now (decide (n.IsElected now plane)) w).1.state := by
  rw [state_settle_eq]
  dsimp only
  -- The state after the election is known case by case, so each field looks up its own.
  constructor
  case failed =>
    intro hs
    rw [hs]
  case master_iff =>
    intro hs
    rw [hs, ← isElected_iff_of_master hplane hs]
    by_cases helect : n.IsElected now plane <;> simp [helect]
  case demoted =>
    intro hs hne
    rw [hs] at hne ⊢
    by_cases helect : n.IsElected now plane
    · simp [helect] at hne
    · simp [helect]
  case isElected_iff => exact isElected_iff_of_waits hplane
  case elected =>
    intro hs helect
    rcases hs with hs | hs <;> simp [hs, helect]
  case waits =>
    intro hs helect
    rcases hs with hs | hs <;> simp [hs, helect]

/-! ## Polls -/

variable {held : ω → Option NodeRecord}

/-- If the `record` of a node is held before an election in which the store fails nothing, then the
record is held afterwards that the node has then. -/
private theorem held_settle (henv : env.HoldsRecord held n.id) {a : Audited ω}
    (ha : held a.world = some (n.record now)) (htaken : a.taken = some (n.record now))
    (isElected : Bool) (hclean : (n.settle env.audited now isElected a).2.isClean = true) :
    (n.settle env.audited now isElected a).1.id = n.id ∧
      held (n.settle env.audited now isElected a).2.world =
        some ((n.settle env.audited now isElected a).1.record now) := by
  obtain ⟨hid, r, hlast, hheld⟩ := henv.audited_keeps.settle ⟨_, htaken, ha⟩ now isElected
  obtain rfl := eq_record_of_settle htaken hclean hlast
  exact ⟨hid, hheld⟩

/-- Where a ledger is kept a `poll` leaves the same node. -/
private theorem poll_audited (env : Surroundings ω) (n : Node) (w : ω) :
    (n.poll env.audited { world := w }).2.1 = (n.poll env w).2.1 :=
  (run_audited env n { world := w } [.poll]).1

/-- What one `poll` of a node decides, whatever its rebinder does: if the store fails nothing, the
node acts on a plane that was read right after its record was stored, and in the end the record is
stored that says what has become of it, at the time of the poll. -/
theorem decides_of_poll (henv : env.HoldsRecord held n.id) {mode : StartMode}
    (hmode : n.mode = some mode) (hne : mode ≠ .disabled) (hs : n.state ≠ .terminated)
    (hclean : (n.poll env.audited { world := w }).2.2.isClean = true) :
    ∃ u plane v n' w', (env.publish (n.record (env.now w))).run w = (.ok (), u) ∧
      env.loadPlane.run u = (.ok plane, v) ∧ n.poll env w = (.ok n'.state, n', w') ∧
      n.Decides (env.now w) plane (env.promoted v) n'.state ∧
      n'.id = n.id ∧ held w' = some (n'.record (env.now w)) := by
  -- The ledger is beside the point for what the node does.
  have halike : Alike (fun a w => Audited.world a = w) (n.round env.audited { world := w })
      (n.round env w) := round_inStep Surroundings.audited_inStep rfl n
  rw [poll_eq_round hmode hne hs] at hclean ⊢
  obtain ⟨plane, u, v, hpublish, hload, hround⟩ | hunclean := round_audited env n { world := w }
  · let own := n.record (env.now w)
    have hown : held u = some own := by
      obtain ⟨⟨⟩, t, hrun, ht⟩ | ⟨e, t, hrun, -⟩ := (henv.stores own rfl _).run_cases rfl
      · cases hpublish.symm.trans hrun
        exact ht
      · cases hpublish.symm.trans hrun
    -- Reading the plane leaves the record that has just been stored.
    have hread : held v = some own := by
      simpa [hload, hown] using henv.loadPlane u
    -- The node as it goes into the election, and what comes out of that.
    let m : Node := { n with lastSync := some (env.now w) }
    let isElected : Bool := decide (n.IsElected (env.now w) plane)
    let x := m.settle env.audited (env.now w) isElected ⟨v, some own, true⟩
    have hround : n.round env.audited { world := w } =
        (x.1.observe (env.now w) (some (plane.apply (.node own))), x.2) := hround
    rw [hround] at hclean halike
    obtain ⟨hnode, hworld⟩ := halike
    have hdecides : n.Decides (env.now w) plane (env.promoted v) x.1.state := by
      rw [← env.promoted_audited ⟨v, some own, true⟩]
      exact decides_settle env.audited n (env.now w) (henv.isFiled u plane v hload) _ _
    obtain ⟨hid, hheld⟩ := held_settle (n := m) henv hread rfl isElected hclean
    refine ⟨u, plane, v, (n.round env w).1, (n.round env w).2, hpublish, hload, rfl, ?_⟩
    rw [← hnode, ← hworld]
    exact ⟨hdecides, hid, hheld⟩
  · exact absurd (hunclean.symm.trans hclean) Bool.false_ne_true

/-- A member before whom the claim of a node of a smaller id has expired, and whose changes cannot
be written back. -/
def unopposed : Site Memory where
  workspace :=
    { store := Memory.prepared.put "plane/a" (NodeRecord.codec.toText
        { nodeId := "a", state := .master, timestamp := 9, masterSince := some 9 }) }
  clock := ⟨90000⟩
  plan := { refusesPersisting := true }

/-- A node that polls for the first time where it is `unopposed` is elected, and is a standby
afterwards; so its record says. -/
theorem decides_of_poll_unopposed :
    let env := Site.surroundings (Workspace.faulty Memory.store) (Workspace.faulty Memory.store)
      .pretended
    let n : Node := { id := "m", mode := some .auto }
    (n.poll env.audited { world := unopposed }).2.2.isClean = true ∧
      ∃ u plane v n' w', (env.publish (n.record 90000)).run unopposed = (.ok (), u) ∧
        env.loadPlane.run u = (.ok plane, v) ∧ n.poll env unopposed = (.ok .standby, n', w') ∧
        n.Decides 90000 plane (env.promoted v) .standby ∧
        w'.workspace.store.posted? "m" = some (n'.record 90000) := by
  intro env n
  have hend : (n.poll env.audited { world := unopposed }).2.2.isClean = true ∧
      (n.poll env.audited { world := unopposed }).2.1.state = .standby := by decide +kernel
  obtain ⟨u, plane, v, n', w', hpublish, hload, hpoll, hdecides, -, hheld⟩ :=
    decides_of_poll (Site.surroundings_holdsRecord .pretended "m")
      (show n.mode = some .auto from rfl) (by decide) (by decide) hend.1
  -- The poll ends in the state that it was evaluated to.
  have hstate : n'.state = .standby := by
    rw [poll_audited, hpoll] at hend
    exact hend.2
  rw [hstate] at hpoll hdecides
  exact ⟨hend.1, u, plane, v, n', w', hpublish, hload, hpoll, hdecides, hheld⟩

end Node

end Failover
