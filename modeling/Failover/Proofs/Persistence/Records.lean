import Failover.Proofs.Json.StoredForm
import Failover.Proofs.Plane.Election
import Failover.Proofs.Store.Memory

/-!
# Heartbeat records in a memory

The records of the nodes of a plane, seen by node id: what publishing a record does to them, and
that a plane is loaded as they are.

## Key results

- `RecordPersister.run_delta_node`, `Memory.record?_post`: a record that is published is found
- `RecordPersister.run_load_eq_ok`, `RecordPersister.get?_nodes_loaded`: what a load makes of the
  texts that are there
- `RecordPersister.run_load`: a load shows the records that are there
-/

namespace Failover

namespace Memory

open RecordPersister (subPath)

/-- The record that is stored for the node `id`. -/
def record? (m : Memory) (id : String) : Option NodeRecord :=
  (m.text? subPath id).bind fun text => (NodeRecord.codec.ofText text).toOption

/-- A memory that has just been `prepared` has no records. -/
@[simp] theorem record?_prepared (id : String) : prepared.record? id = none := by simp [record?]

/-- The memory `m` holds records of nodes: it can be opened at each, and each stands under the id of
its node. -/
structure HoldsRecords (m : Memory) : Prop where
  isOpen : m.IsOpen subPath
  nodeId_eq : ∀ id r, m.record? id = some r → r.nodeId = id

/-- The memory `m` with the record `r` stored for its node. -/
def post (m : Memory) (r : NodeRecord) : Memory :=
  m.put (RecordPersister.path r.nodeId) (NodeRecord.codec.toText r)

/-- A memory that has just been `prepared` holds no records, so all of them stand right. -/
theorem prepared_holdsRecords : prepared.HoldsRecords where
  isOpen := ⟨rfl, by decide, by simp [namesUnder, prepared, SortedMap.keys, SortedMap.empty]⟩
  nodeId_eq id r h := by simp at h

/-- A record that is stored by `post` is found under its node; the others are found as before. -/
theorem record?_post (m : Memory) {r : NodeRecord} (hr : '/' ∉ r.nodeId.toList) (id : String) :
    (m.post r).record? id = if id = r.nodeId then some r else m.record? id := by
  rw [record?, post, RecordPersister.path, text?_put m hr]
  by_cases hid : id = r.nodeId
  · rw [if_pos hid, if_pos hid]
    simp [Except.toOption]
  · rw [if_neg hid, if_neg hid, record?]

/-- A record that is removed by `drop` is found no more; the others are found as before. -/
theorem record?_drop (m : Memory) (nodeId id : String) :
    (m.drop (RecordPersister.path nodeId)).record? id =
      if id = nodeId then none else m.record? id := by
  rw [record?, RecordPersister.path, text?_drop]
  split <;> rfl

/-- `HoldsRecords` is kept by a `post` of a record whose node's id is a single segment. -/
theorem HoldsRecords.post {m : Memory} (h : m.HoldsRecords) {r : NodeRecord}
    (hr : Path.isSingle r.nodeId = true) : (m.post r).HoldsRecords := by
  refine ⟨h.isOpen.put hr _, fun id q hq => ?_⟩
  rw [record?_post m (Path.isSingle_iff.1 hr).2] at hq
  split at hq
  · next heq =>
    cases hq
    exact heq.symm
  · exact h.nodeId_eq id q hq

end Memory

namespace RecordPersister

variable {m n : Memory} {p : RecordPersister}

/-- A `delta` with the one record of a node comes to a `post` of it. -/
theorem run_delta_node (hp : p.isStopped = false) (hm : m.HoldsRecords) {r : NodeRecord}
    (hr : Path.isSingle r.nodeId = true) :
    (p.delta Memory.store (.node r)).run m = (.ok (), m.post r) := by
  have hvalid : Path.isValid (path r.nodeId) = true := by
    rw [path, Path.isValid_object, hm.isOpen.isValid]
    exact (Path.isSingle_iff.1 hr).1
  have hwrite : (write Memory.store r).run m = (.ok (), m.post r) :=
    Memory.run_write_eq_ok.2 ⟨⟨hvalid, hm.isOpen.isPrepared⟩, rfl⟩
  have hrunning : (p.checkRunning : Action Memory PersistenceError Unit).run m = (.ok (), m) := by
    simp [checkRunning, hp]
  rw [delta, Action.run_bind_of_ok hrunning]
  -- The change is to write one record and to remove none.
  show ((Stored.each (write Memory.store) [r]) >>= fun _ =>
      Stored.each (remove Memory.store) []).run m
    = _
  rw [Action.run_bind_of_ok (a := ()) (t := m.post r)]
  · rfl
  · rw [Stored.each, Action.run_bind_of_ok hwrite]
    rfl

/-- The record that a stored text is taken up as, if it stands under its node's id. -/
def taken (e : String × String) : Option NodeRecord :=
  ((NodeRecord.codec.ofText e.2).toOption).filter (·.nodeId = e.1)

/-- The plane that a load makes of the texts in the memory `m`. -/
def loaded (m : Memory) : Plane := .ofRecords ((m.contents subPath).filterMap taken)

/-- The plane that is `loaded` is filed. -/
theorem loaded_isFiled (m : Memory) : (loaded m).IsFiled := Plane.ofRecords_isFiled _

/-- From any store, `load` finds records under the ids of their nodes. -/
theorem isFiled_of_load {σ : Type} {S : ObjectStore σ} {s t : σ} {plane : Plane}
    (h : (p.load S).run s = (.ok plane, t)) : plane.IsFiled := by
  obtain ⟨u, -, h⟩ := Action.run_then_eq_ok.1 h
  obtain ⟨rs, v, -, h⟩ := Action.run_bind_eq_ok.1 h
  cases h
  exact Plane.ofRecords_isFiled rs

/-- The plane that is `loaded` has for a node the `record?` that is stored for it, if that is its
own. -/
theorem get?_nodes_loaded (m : Memory) (id : String) :
    (loaded m).nodes.get? id = (m.record? id).filter (·.nodeId = id) := by
  -- Each record taken up bears the name that it is listed under.
  have hnodup : (((m.contents subPath).filterMap taken).map (·.nodeId)).Nodup :=
    nodup_map_filterMap (fun _ _ _ h => of_decide_eq_true (Option.filter_eq_some_iff.1 h).2)
      (m.nodup_contents subPath)
  refine Option.ext fun r => ?_
  rw [loaded, Plane.get?_nodes_ofRecords hnodup, List.mem_filterMap, Option.filter_eq_some_iff,
    decide_eq_true_iff]
  refine and_congr_left fun hid => ?_
  constructor
  · rintro ⟨⟨name, text⟩, he, htaken⟩
    obtain ⟨hread, hname⟩ := Option.filter_eq_some_iff.1 htaken
    obtain rfl : name = id := (of_decide_eq_true hname).symm.trans hid
    rw [Memory.record?, Memory.mem_contents.1 he]
    exact hread
  · intro hr
    obtain ⟨text, htext, hread⟩ := Option.bind_eq_some_iff.1 hr
    exact ⟨(id, text), Memory.mem_contents.2 htext,
      Option.filter_eq_some_iff.2 ⟨hread, decide_eq_true hid⟩⟩

/-- A fold by `take` collects the records that are `taken`. -/
private theorem foldlM_take (es : List (String × String)) (rs : List NodeRecord) :
    es.foldlM (fun rs e => take rs e.1 e.2) rs = .ok (rs ++ es.filterMap taken) := by
  induction es generalizing rs with
  | nil => simp [pure, Except.pure]
  | cons e es ih =>
    -- A text is added if it is a record of the node whose name it has, and passed over else.
    have htake : take rs e.1 e.2 = .ok (rs ++ (taken e).toList) := by
      simp only [take, taken]
      cases NodeRecord.codec.ofText e.2 with
      | error _ => simp [Except.toOption]
      | ok r =>
        by_cases hr : r.nodeId = e.1 <;> simp [Except.toOption, Option.filter, hr]
    rw [List.foldlM_cons, htake]
    show es.foldlM (fun rs e => take rs e.1 e.2) (rs ++ (taken e).toList) = _
    rw [ih, List.filterMap_cons, List.append_assoc]
    cases taken e <;> rfl

/-- `checkRunning` succeeds for a persister that has not been stopped. -/
theorem run_checkRunning_eq_ok :
    (p.checkRunning : Action Memory PersistenceError Unit).run m = (.ok (), n) ↔
      p.isStopped = false ∧ n = m := by
  rw [checkRunning, Action.run_lift]
  cases p.isStopped <;> simp [eq_comm]

/-- `load` succeeds if the persister runs and the sub-path `IsOpen`, and then returns what is
`loaded`. -/
theorem run_load_eq_ok {plane : Plane} : (p.load Memory.store).run m = (.ok plane, n) ↔
    p.isStopped = false ∧ m.IsOpen subPath ∧ plane = loaded m ∧ n = m := by
  have hfold (hm : m.IsOpen subPath) : (Stored.foldObjects Memory.store subPath take []).run m =
      (.ok ((m.contents subPath).filterMap taken), m) := by
    rw [Memory.run_foldObjects hm, foldlM_take, List.nil_append]
  rw [load, Action.run_then_eq_ok]
  constructor
  · rintro ⟨a, hrunning, h⟩
    obtain ⟨hp, rfl⟩ := run_checkRunning_eq_ok.1 hrunning
    obtain ⟨rs, b, hrs, heq⟩ := Action.run_bind_eq_ok.1 h
    -- That the listing succeeds is what tells that the sub-path is open.
    have hm := Memory.isOpen_of_foldObjects_ok hrs
    rw [hfold hm] at hrs
    cases hrs
    cases heq
    exact ⟨hp, hm, rfl, rfl⟩
  · rintro ⟨hp, hm, rfl, rfl⟩
    exact ⟨n, run_checkRunning_eq_ok.2 ⟨hp, rfl⟩, Action.run_bind_eq_ok.2 ⟨_, n, hfold hm, rfl⟩⟩

/-- `load` of a memory that `HoldsRecords` shows the records that are there. -/
theorem run_load (hp : p.isStopped = false) (hm : m.HoldsRecords) :
    ∃ plane : Plane, (p.load Memory.store).run m = (.ok plane, m) ∧ plane.IsFiled ∧
      ∀ id, plane.nodes.get? id = m.record? id := by
  refine ⟨loaded m, run_load_eq_ok.2 ⟨hp, hm.isOpen, rfl, rfl⟩, loaded_isFiled m, fun id => ?_⟩
  rw [get?_nodes_loaded]
  -- None of them is passed over.
  exact Option.ext fun r => Option.filter_eq_some_iff.trans
    (and_iff_left_of_imp fun hr => decide_eq_true (hm.nodeId_eq id r hr))

end RecordPersister

end Failover
