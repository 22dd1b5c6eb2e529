import Failover.Proofs.Node.Audit
import Failover.Proofs.Node.Consistent
import Failover.Proofs.Node.Effects
import Failover.Proofs.Node.Fleet
import Failover.Proofs.Persistence.Planes

/-!
# The plane that a node reports

A node reports the plane that it has read, with its own record put in as it is after the election.
The store comes to hold the same plane, as the record is handed over whenever it changes: what is
reported after a poll in which the store fails nothing is what a load would read.

## Key results

- `Memory.SameRecords`: what leaves the records of the nodes as they are
- `Companion.surroundings_filesIn`: nodes over a store that mirrors a memory file their records in
  it
- `Node.plane_of_poll`: the plane that is reported after a poll is the one that is stored
-/

namespace Failover

open RecordPersister (loaded subPath)

/-! ## Records that stay -/

/-- Two memories hold the same texts where the records are. -/
structure Memory.SameRecords (m n : Memory) : Prop where
  isPrepared_eq : n.isPrepared = m.isPrepared
  text?_eq : ∀ name, n.text? subPath name = m.text? subPath name

namespace Memory.SameRecords

variable {m n : Memory}

theorem refl (m : Memory) : m.SameRecords m := ⟨rfl, fun _ => rfl⟩

/-- The sub-path of the records stays open where a memory has the `SameRecords`. -/
theorem isOpen (h : m.SameRecords n) (hm : m.IsOpen subPath) : n.IsOpen subPath := by
  refine ⟨h.isPrepared_eq.trans hm.isPrepared, hm.isValid, fun name hname => ?_⟩
  rw [Memory.mem_namesUnder, h.text?_eq, ← Memory.mem_namesUnder] at hname
  exact hm.isValid_object name hname

/-- The same plane is `loaded` from a memory that has the `SameRecords`. -/
theorem loaded_eq (h : m.SameRecords n) : loaded n = loaded m := by
  refine Plane.ofRecords_eq_of_nodes (SortedMap.ext_get? fun id => ?_)
  show (loaded n).nodes.get? id = (loaded m).nodes.get? id
  rw [RecordPersister.get?_nodes_loaded, RecordPersister.get?_nodes_loaded, Memory.record?,
    Memory.record?, h.text?_eq]

end Memory.SameRecords

/-- An action that succeeds does to the memory that is `held` what another does. -/
def Action.Follows {σ ε α : Type} (held : σ → Memory) (x : Action σ ε α) (y : Action Memory ε α) :
    Prop :=
  ∀ s a t, x.run s = (.ok a, t) → y.run (held s) = (.ok a, held t)

/-- The records are filed in a store: what does not fail there is done as in a memory, and whatever
else a node does leaves the `SameRecords`. -/
structure Surroundings.FilesIn {ω : Type} (env : Surroundings ω) (held : ω → Memory) : Prop where
  publish : ∀ r, (env.publish r).Follows held (RecordPersister.delta Memory.store {} (.node r))
  loadPlane : env.loadPlane.Follows held (RecordPersister.load Memory.store {})
  takeOver : ∀ w, (held w).SameRecords (held (env.takeOver w).2)
  stopPersisting : ∀ w, (held w).SameRecords (held (env.stopPersisting w))
  refresh : ∀ w, (held w).SameRecords (held (env.refresh w))
  announce : ∀ w, (held w).SameRecords (held (env.announce w))

namespace Action.Follows

variable {σ τ ε α : Type} {held : τ → Memory} {x : Action τ ε α} {y : Action Memory ε α}

/-- An action that is `InStep` with one on a memory `Follows` it. -/
theorem of_inStep (h : InStep (fun s m => held s = m) x y) : x.Follows held y := by
  intro s a t hrun
  obtain ⟨hresult, hheld⟩ := h s _ rfl
  rw [hrun] at hresult hheld
  exact Prod.ext hresult.symm hheld.symm

/-- An action that works on a part `Follows` what it does there. -/
theorem focus (h : x.Follows held y) (get : σ → τ) (set : σ → τ → σ)
    (hset : ∀ s t, get (set s t) = t) : (x.focus get set).Follows (fun s => held (get s)) y := by
  intro s a t hrun
  cases hx : x.run (get s) with
  | mk r u =>
    have hfocus : (x.focus get set).run s = (r, set s u) := by
      show ((x.run (get s)).1, set s (x.run (get s)).2) = _
      rw [hx]
    cases hfocus.symm.trans hrun
    show y.run (held (get s)) = (.ok a, held (get (set s u)))
    rw [hset]
    exact h _ _ _ hx

end Action.Follows

/-- A rebinder that works on the `rest` leaves the `SameRecords`. -/
private theorem Companion.sameRecords_keeps {σ ρ : Type} {S : ObjectStore σ} {held : σ → Memory}
    (c : Companion ρ) (m : Memory) (rebinder : Rebinder (Commons σ ρ))
    (h : (c.surroundings S).rebinder = some rebinder) :
    rebinder.Keeps fun w => m.SameRecords (held w.store) :=
  c.rebinder_keeps S (fun _ _ hm => hm) rebinder h

/-- The nodes of a fleet over a store that `Mirrors` a memory file their records there. -/
theorem Companion.surroundings_filesIn {σ ρ : Type} {S : ObjectStore σ} {held : σ → Memory}
    (hS : S.Mirrors held) (c : Companion ρ) :
    (c.surroundings S).FilesIn fun w => held w.store where
  publish r := by
    have hdelta := ObjectStore.InStep.planeDelta hS {} (.node r)
    exact (Action.Follows.of_inStep hdelta).focus Commons.store
      (fun (w : Commons σ ρ) store => { w with store }) fun _ _ => rfl
  loadPlane := by
    have hload := ObjectStore.InStep.loadPlane hS {}
    exact (Action.Follows.of_inStep hload).focus Commons.store
      (fun (w : Commons σ ρ) store => { w with store }) fun _ _ => rfl
  takeOver _ := Surroundings.takeOver_keeps (c.sameRecords_keeps _) (.refl _)
  stopPersisting _ := Surroundings.stopPersisting_keeps (c.sameRecords_keeps _) (.refl _)
  refresh _ := Surroundings.refresh_keeps (c.sameRecords_keeps _) (.refl _)
  announce w := .refl _

namespace Node

variable {ω : Type} {env : Surroundings ω} {held : ω → Memory} {n : Node} {p : Plane}
  {a : Audited ω} {now : Timestamp}

/-! ## What is stored -/

/-- A load would read the plane `p`, if the store has failed nothing so far. -/
def Holds (held : ω → Memory) (p : Plane) (a : Audited ω) : Prop :=
  a.isClean = true → (held a.world).IsOpen subPath ∧ loaded (held a.world) = p

/-- The plane that a memory `Holds` is that of any with the same records. -/
private theorem Holds.world (h : Holds held p a) {w : ω}
    (hw : (held a.world).SameRecords (held w)) : Holds held p { a with world := w } := fun hclean =>
  ⟨hw.isOpen (h hclean).1, hw.loaded_eq.trans (h hclean).2⟩

/-- After `tell` the store `Holds` the plane with the record put in. -/
private theorem Holds.tell (henv : env.FilesIn held) (h : Holds held p a) {r : NodeRecord}
    (hr : Path.isSingle r.nodeId = true) :
    Holds held (p.apply (.node r)) (env.audited.tell r a) := by
  rw [Surroundings.tell, Surroundings.audited_publish]
  cases hrun : (env.publish r).run a.world with
  | mk res w =>
    cases res with
    | error e => simp [Holds, Except.isOk, Except.toBool]
    | ok =>
      intro hclean
      -- The ledger was clean before, and the record was taken.
      obtain ⟨hopen, hloaded⟩ := h (Bool.and_eq_true_iff.1 hclean).1
      have hids : RecordPersister.AreStorable [r] := List.forall_mem_singleton.2 hr
      have hdelta := henv.publish r a.world () w hrun
      exact ⟨RecordPersister.isOpen_of_delta (d := .node r) hids hopen hdelta,
        hloaded ▸ RecordPersister.loaded_of_delta (d := .node r) hids hdelta⟩

/-- The store `Holds` the plane `p` with the record put in that it took last of a node. -/
def HoldsLast (held : ω → Memory) (p : Plane) (id : String) (a : Audited ω) : Prop :=
  ∃ r, r.nodeId = id ∧ a.taken = some r ∧ Holds held (p.apply (.node r)) a

/-- What `HoldsLast` says depends on the records alone. -/
private theorem HoldsLast.world {id : String} (h : HoldsLast held p id a) {w : ω}
    (hw : (held a.world).SameRecords (held w)) : HoldsLast held p id { a with world := w } := by
  obtain ⟨r, hr, htaken, hholds⟩ := h
  exact ⟨r, hr, htaken, hholds.world hw⟩

/-- A record that `publish` hands over replaces the one that was taken before it. -/
private theorem publish_keepsLast (henv : env.FilesIn held) (hp : p.IsFiled) {r : NodeRecord}
    (hr : Path.isSingle r.nodeId = true) :
    Action.Keeps (HoldsLast held p r.nodeId) (env.audited.publish r) := by
  rintro a ⟨q, hq, htaken, hholds⟩
  have htold := hholds.tell henv hr
  rw [Plane.apply_node_apply_node hp hq, Surroundings.tell, Surroundings.audited_publish] at htold
  rw [Surroundings.audited_publish]
  cases hok : ((env.publish r).run a.world).1.isOk with
  | true =>
    refine ⟨r, rfl, by simp, ?_⟩
    simpa [hok] using htold
  | false => exact ⟨q, hq, by simpa using htaken, by simp [Holds]⟩

/-- Nothing that a node does parts the plane that is stored from the record that was taken last:
`HoldsLast` is among what `Surroundings.Keeps` keeps. -/
private theorem keepsLast (henv : env.FilesIn held) (hp : p.IsFiled) {id : String}
    (hid : Path.isSingle id = true) : env.audited.Keeps id (HoldsLast held p id) where
  publish r hr := by
    subst hr
    exact publish_keepsLast henv hp hid
  loadPlane a := by
    rintro ⟨r, hr, htaken, hholds⟩
    rw [Surroundings.audited_loadPlane]
    cases hrun : env.loadPlane.run a.world with
    | mk loaded w =>
      refine ⟨r, hr, htaken, fun hclean => ?_⟩
      obtain ⟨hbefore, hok⟩ := Bool.and_eq_true_iff.1 hclean
      cases loaded with
      | error e => cases hok
      | ok plane =>
        -- Reading leaves the memory as it is.
        have hread := henv.loadPlane a.world plane w hrun
        obtain ⟨-, -, -, hheld⟩ := RecordPersister.run_load_eq_ok.1 hread
        show (held w).IsOpen subPath ∧ loaded (held w) = _
        rw [hheld]
        exact hholds hbefore
  takeOver a h := by
    rw [Surroundings.takeOver_audited]
    exact h.world (henv.takeOver a.world)
  stopPersisting a h := by
    rw [Surroundings.stopPersisting_audited]
    exact h.world (henv.stopPersisting a.world)
  refresh a h := by
    rw [Surroundings.refresh_audited]
    exact h.world (henv.refresh a.world)
  announce r hr _ _ a h := by
    subst hr
    exact (publish_keepsLast henv hp hid a h).world (henv.announce _)

/-- After a `round` in which the store fails nothing, it `Holds` the plane that the node reports. -/
private theorem holds_round (henv : env.FilesIn held) (hid : Path.isSingle n.id = true)
    (a : Audited ω) :
    Holds held (n.round env.audited a).1.plane (n.round env.audited a).2 := by
  intro hclean
  obtain ⟨plane, w₁, w₂, hpublish, hload, hround⟩ | hunclean := round_audited env n a
  · have hids : RecordPersister.AreStorable [n.record (env.now a.world)] :=
      List.forall_mem_singleton.2 hid
    have hstored := RecordPersister.loaded_of_delta (d := .node _) hids
      (henv.publish _ _ _ _ hpublish)
    obtain ⟨-, hopen, hplane, hheld⟩ :=
      RecordPersister.run_load_eq_ok.1 (henv.loadPlane _ _ _ hload)
    have hfiled : plane.IsFiled := hplane ▸ RecordPersister.loaded_isFiled _
    -- The record is in the plane that was read.
    have hown : plane.apply (.node (n.record (env.now a.world))) = plane := by
      rw [hplane, hstored]
      exact Plane.apply_node_apply_node (RecordPersister.loaded_isFiled _) rfl
    have hbegun : HoldsLast held plane n.id ⟨w₂, some (n.record (env.now a.world)), a.isClean⟩ := by
      refine ⟨_, rfl, rfl, fun _ => ?_⟩
      rw [hown, hheld]
      exact ⟨hopen, hplane.symm⟩
    rw [hround, hown] at hclean ⊢
    let m : Node := { n with lastSync := some (env.now a.world) }
    let isElected : Bool := decide ((plane.elect (env.now a.world) n.timeout).master = some n.id)
    obtain ⟨-, r, -, htaken, hholds⟩ :=
      (keepsLast henv hfiled hid).settle (n := m) hbegun (env.now a.world) isElected
    obtain rfl := eq_record_of_settle (n := m) rfl hclean htaken
    exact hholds hclean
  · exact absurd (hunclean.symm.trans hclean) Bool.false_ne_true

/-- After a `poll` of a node that takes part in the election, whatever its rebinder does: if the
store has failed nothing, a load of it shows the `plane` that the node reports. -/
theorem plane_of_poll (henv : env.FilesIn held) (hid : Path.isSingle n.id = true) {mode : StartMode}
    (hmode : n.mode = some mode) (hne : mode ≠ .disabled) (hs : n.state ≠ .terminated) {w : ω}
    (hclean : (n.poll env.audited { world := w }).2.2.isClean = true) :
    ∃ n' w', n.poll env w = (.ok n'.state, n', w') ∧
      (RecordPersister.load Memory.store {}).run (held w') = (.ok n'.plane, held w') ∧
      ∀ plane w'', env.loadPlane.run w' = (.ok plane, w'') → plane = n'.plane := by
  have hstored := holds_round henv hid { world := w }
  rw [poll_eq_round hmode hne hs] at hclean
  obtain ⟨hopen, hloaded⟩ := hstored hclean
  -- The ledger is beside the point for what the node does.
  have halike : Alike (fun a w => Audited.world a = w) (n.poll env.audited { world := w }).2
      (n.poll env w).2 := run_audited env n { world := w } [.poll]
  -- The round over the ledger ends as the one without, and so what holds of its world holds here.
  cases hround : n.round env w with
  | mk n' w' =>
    have hpoll : n.poll env w = (.ok (n.round env w).1.state, n.round env w) :=
      poll_eq_round hmode hne hs
    rw [hround] at hpoll
    rw [poll_eq_round hmode hne hs, hpoll] at halike
    obtain ⟨rfl, rfl⟩ := halike
    refine ⟨_, _, hpoll, RecordPersister.run_load_eq_ok.2 ⟨rfl, hopen, hloaded.symm, rfl⟩,
      fun plane w'' hload => ?_⟩
    obtain ⟨-, -, hplane, -⟩ := RecordPersister.run_load_eq_ok.1 (henv.loadPlane _ _ _ hload)
    exact hplane.trans hloaded

/-- A store in which a node finds a text that is no record, a record under a wrong name and a claim
that has expired; its objects cannot be reached. -/
def cluttered : Commons Memory Unit where
  store := ((Memory.prepared.put "plane/b" "not json").put "plane/c"
    (NodeRecord.codec.toText ⟨"d", .standby, 99000, "1", none, none⟩)).put "plane/e"
      (NodeRecord.codec.toText ⟨"e", .master, 10, "1", none, some 10⟩)
  now := 100000
  rest := ()

/-- Over the `cluttered` store a node is elected at its first poll, fails to take over, and reports
the plane as it is stored. -/
theorem plane_of_poll_cluttered :
    let rebinder : Rebinder Unit :=
      { rebind := fun _ => throw (.persistence (.timeout ⟨0⟩))
        startPersisting := pure ()
        stopPersisting := fun rest => rest }
    let env := ({ rebinder := some rebinder } : Companion Unit).surroundings Memory.store
    let n : Node := { id := "a", mode := some .auto }
    (n.poll env.audited { world := cluttered }).2.2.isClean = true ∧
      ∃ n' w', n.poll env cluttered = (.ok .standby, n', w') ∧
        (RecordPersister.load Memory.store {}).run w'.store = (.ok n'.plane, w'.store) := by
  intro rebinder env n
  have hclean : (n.poll env.audited { world := cluttered }).2.2.isClean = true := by decide +kernel
  -- The rebuild fails in a way that may pass, so the node waits.
  have hstandby : (n.poll env cluttered).1 = .ok .standby := by decide +kernel
  obtain ⟨n', w', hpoll, hload, -⟩ :=
    plane_of_poll (Companion.surroundings_filesIn Memory.mirrors _) (by decide)
      (show n.mode = some .auto from rfl) (by decide) (by decide) hclean
  refine ⟨hclean, n', w', ?_, hload⟩
  rw [hpoll] at hstandby ⊢
  rw [show Except.ok n'.state = _ from hstandby]

end Node

end Failover
