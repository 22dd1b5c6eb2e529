import Failover.Proofs.Persistence.Records

/-!
# A stored plane evolves as one in memory does

The records of a plane lie in a memory one by one, beside texts that are no records or stand under a
wrong name. Deltas and checkpoints write and remove single records; the plane that is loaded is made
anew each time. `RecordPersister.loaded` is that plane, and what happens to the texts is followed
there: storing a record is an insertion into its nodes, and removing one is an erasure.

## Key results

- `RecordPersister.nodes_loaded_post`, `RecordPersister.nodes_loaded_drop`: what one write and one
  removal do to the plane
- `RecordPersister.loaded_of_delta`, `RecordPersister.loaded_of_checkpoint`: what a delta and a
  checkpoint do to it
- `RecordPersister.load_evolves`: what is loaded after a run of both
-/

namespace Failover

namespace RecordPersister

open Memory (store post)

variable {p : RecordPersister} {m n : Memory}

/-! ## Single records -/

/-- `post` of a record puts it into the `nodes` of the plane that is `loaded`. -/
theorem nodes_loaded_post (m : Memory) {r : NodeRecord} (hr : Path.isSingle r.nodeId = true) :
    (loaded (m.post r)).nodes = (loaded m).nodes.insert r.nodeId r := by
  refine SortedMap.ext_get? fun id => ?_
  rw [get?_nodes_loaded, m.record?_post (Path.isSingle_iff.1 hr).2, SortedMap.get?_insert,
    get?_nodes_loaded]
  split
  · next hid => simp [hid]
  · rfl

/-- `drop` of a record takes it out of the `nodes` of the plane that is `loaded`. -/
theorem nodes_loaded_drop (m : Memory) (nodeId : String) :
    (loaded (m.drop (path nodeId))).nodes = (loaded m).nodes.erase nodeId := by
  refine SortedMap.ext_get? fun id => ?_
  rw [get?_nodes_loaded, m.record?_drop, SortedMap.get?_erase, get?_nodes_loaded]
  split <;> rfl

/-! ## Many records -/

/-- The records `rs` can be stored under the ids of their nodes. -/
def AreStorable (rs : List NodeRecord) : Prop := ∀ r ∈ rs, Path.isSingle r.nodeId = true

/-- The memory `m` with the records `rs` stored, the later ones over the earlier. -/
private def postAll (m : Memory) (rs : List NodeRecord) : Memory := rs.foldl post m

/-- The memory `m` without the records of some nodes. -/
private def dropAll (m : Memory) (ids : List String) : Memory :=
  ids.foldl (fun m id => m.drop (path id)) m

/-- `postAll` inserts all its records into the `nodes`. -/
private theorem nodes_loaded_postAll {rs : List NodeRecord} (hrs : AreStorable rs) (m : Memory) :
    (loaded (postAll m rs)).nodes =
      (loaded m).nodes.insertAll (rs.map fun r => (r.nodeId, r)) := by
  induction rs generalizing m with
  | nil => rfl
  | cons r rs ih =>
    rw [AreStorable, List.forall_mem_cons] at hrs
    rw [List.map_cons, SortedMap.insertAll_cons, ← nodes_loaded_post m hrs.1]
    exact ih hrs.2 (m.post r)

/-- `dropAll` erases all its ids from the `nodes`. -/
private theorem nodes_loaded_dropAll (m : Memory) (ids : List String) :
    (loaded (dropAll m ids)).nodes = (loaded m).nodes.eraseAll ids := by
  induction ids generalizing m with
  | nil => rfl
  | cons id ids ih =>
    rw [SortedMap.eraseAll, List.foldl_cons, ← nodes_loaded_drop]
    exact ih (m.drop (path id))

private theorem isOpen_postAll {rs : List NodeRecord} (hrs : AreStorable rs)
    (hm : m.IsOpen subPath) : (postAll m rs).IsOpen subPath := by
  induction rs generalizing m with
  | nil => exact hm
  | cons r rs ih =>
    rw [AreStorable, List.forall_mem_cons] at hrs
    exact ih hrs.2 (hm.put hrs.1 _)

private theorem isOpen_dropAll (hm : m.IsOpen subPath) (ids : List String) :
    (dropAll m ids).IsOpen subPath := by
  induction ids generalizing m with
  | nil => exact hm
  | cons id ids ih => exact ih (hm.drop id)

/-- `write` for each of some records comes to `postAll`. -/
private theorem run_writes_eq_ok {rs : List NodeRecord} :
    (Stored.each (write store) rs).run m = (.ok (), n) ↔
      (∀ r ∈ rs, Path.isValid (path r.nodeId) = true ∧ m.isPrepared = true) ∧ n = postAll m rs :=
  Memory.run_each_eq_ok (fun _ _ _ => Memory.run_write_eq_ok) fun _ _ => rfl

/-- What `write` for each of some records leaves. -/
private theorem eq_of_writes {rs : List NodeRecord}
    (h : (Stored.each (write store) rs).run m = (.ok (), n)) : n = postAll m rs :=
  (run_writes_eq_ok.1 h).2

/-- What `remove` for each of some ids leaves. -/
private theorem eq_of_removes {ids : List String}
    (h : (Stored.each (remove store) ids).run m = (.ok (), n)) : n = dropAll m ids :=
  ((Memory.run_each_eq_ok (fun _ _ _ => Memory.run_remove_eq_ok) fun _ _ => rfl).1 h).2

/-! ## Deltas and checkpoints -/

/-- What a `delta` leaves: its records are stored, and then those that it lists are removed. -/
private theorem eq_of_delta {d : PlaneDelta} (h : (p.delta store d).run m = (.ok (), n)) :
    n = dropAll (postAll m d.nodes) d.removed := by
  rw [delta, Action.run_then_eq_ok] at h
  obtain ⟨a, hrunning, hobjects⟩ := h
  obtain ⟨-, rfl⟩ := run_checkRunning_eq_ok.1 hrunning
  obtain ⟨b, hwrites, hremoves⟩ := Action.run_then_eq_ok.1 hobjects
  obtain rfl := eq_of_writes hwrites
  exact eq_of_removes hremoves

/-- What a `checkpoint` leaves. What it removes was listed before it wrote anything. -/
private theorem eq_of_checkpoint {plane : Plane}
    (h : (p.checkpoint store plane).run m = (.ok (), n)) :
    n = dropAll (postAll m plane.nodes.values)
      ((m.namesUnder subPath).filter fun id => !plane.nodes.contains id) := by
  rw [checkpoint, Action.run_then_eq_ok] at h
  obtain ⟨a, hrunning, hcalls⟩ := h
  obtain ⟨-, rfl⟩ := run_checkRunning_eq_ok.1 hrunning
  obtain ⟨b, hcreate, hlists⟩ := Action.run_then_eq_ok.1 hcalls
  obtain ⟨-, rfl⟩ := Memory.run_create_eq_ok.1 hcreate
  obtain ⟨listed, c, hlist, hobjects⟩ := Action.run_bind_eq_ok.1 hlists
  -- Up to the listing nothing has changed but that there is a sub-path.
  obtain ⟨-, rfl, rfl⟩ := Memory.run_list_eq_ok.1 hlist
  obtain ⟨d, hwrites, hremoves⟩ := Action.run_then_eq_ok.1 hobjects
  obtain rfl := eq_of_writes hwrites
  exact eq_of_removes hremoves

/-- A `delta` leaves the sub-path open. -/
theorem isOpen_of_delta {d : PlaneDelta} (hd : AreStorable d.nodes) (hm : m.IsOpen subPath)
    (h : (p.delta store d).run m = (.ok (), n)) : n.IsOpen subPath := by
  rw [eq_of_delta h]
  exact isOpen_dropAll (isOpen_postAll hd hm) d.removed

/-- A `checkpoint` leaves the sub-path open. -/
theorem isOpen_of_checkpoint {plane : Plane} (hids : AreStorable plane.nodes.values)
    (hm : m.IsOpen subPath) (h : (p.checkpoint store plane).run m = (.ok (), n)) :
    n.IsOpen subPath := by
  rw [eq_of_checkpoint h]
  exact isOpen_dropAll (isOpen_postAll hids hm) _

/-- A `delta` changes the plane that is `loaded` as `Plane.apply` changes any plane. -/
theorem loaded_of_delta {d : PlaneDelta} (hd : AreStorable d.nodes)
    (h : (p.delta store d).run m = (.ok (), n)) : loaded n = (loaded m).apply d := by
  have hnodes : (loaded n).nodes = Plane.changeNodes (loaded m).nodes d := by
    rw [eq_of_delta h, nodes_loaded_dropAll, nodes_loaded_postAll hd]
    rfl
  rw [Plane.apply, ← hnodes]
  exact (Plane.ofRecords_values_ofRecords _).symm

/-- What a `checkpoint` leaves under a name that the plane does not hold is no record. -/
private theorem get?_nodes_loaded_eq_none {plane : Plane} {id : String}
    (hid : plane.nodes.get? id = none)
    (hstale : id ∉ (m.namesUnder subPath).filter fun id => !plane.nodes.contains id) :
    (loaded m).nodes.get? id = none := by
  have htext : m.text? subPath id = none := by
    rw [← Option.not_isSome_iff_eq_none, ← Memory.mem_namesUnder]
    intro hlisted
    exact hstale (List.mem_filter.2 ⟨hlisted, by simp [SortedMap.contains, hid]⟩)
  rw [get?_nodes_loaded, Memory.record?, htext]
  rfl

/-- A `checkpoint` replaces the plane that is `loaded` by the one of its records. -/
theorem loaded_of_checkpoint {plane : Plane} (hplane : plane.IsFiled)
    (hids : AreStorable plane.nodes.values) (h : (p.checkpoint store plane).run m = (.ok (), n)) :
    loaded n = .ofRecords plane.nodes.values := by
  refine Plane.ofRecords_eq_of_nodes (SortedMap.ext_get? fun id => ?_)
  show (loaded n).nodes.get? id = (Plane.ofRecords plane.nodes.values).nodes.get? id
  rw [eq_of_checkpoint h, Plane.get?_nodes_ofRecords_values hplane, nodes_loaded_dropAll,
    SortedMap.get?_eraseAll, nodes_loaded_postAll hids, hplane.entries_eq,
    SortedMap.get?_insertAll_of_sorted _ plane.nodes.sorted]
  split
  · next hstale =>
    have hnone : plane.nodes.get? id = none := by
      simpa [SortedMap.contains] using (List.mem_filter.1 hstale).2
    exact hnone.symm
  · next hstale =>
    -- A record of the plane goes before what was there; nothing is there that it does not hold.
    show (plane.nodes.get? id).or _ = plane.nodes.get? id
    cases hid : plane.nodes.get? id with
    | some r => rfl
    | none => exact get?_nodes_loaded_eq_none hid hstale

/-! ## Runs -/

/-- What a `RecordPersister` writes: a whole plane, or a delta. -/
inductive Mutation where
  | checkpoint (plane : Plane)
  | delta (d : PlaneDelta)
deriving DecidableEq

namespace Mutation

/-- The plane after a `Mutation`, with its master named anew. -/
def apply (plane : Plane) : Mutation → Plane
  | .checkpoint new => .ofRecords new.nodes.values
  | .delta d => plane.apply d

/-- What a `Mutation` writes can be stored under the ids of its nodes. -/
def IsStorable : Mutation → Prop
  | .checkpoint plane => plane.IsFiled ∧ AreStorable plane.nodes.values
  | .delta d => AreStorable d.nodes

end Mutation

/-- Writes a `Mutation`, by `checkpoint` or `delta`. -/
def perform {σ : Type} (S : ObjectStore σ) (p : RecordPersister) :
    Mutation → Action σ PersistenceError Unit
  | .checkpoint plane => p.checkpoint S plane
  | .delta d => p.delta S d

/-- `perform` changes the plane that is `loaded` as `Mutation.apply` does. -/
theorem loaded_of_perform {x : Mutation} (hx : x.IsStorable) (hm : m.IsOpen subPath)
    (h : (p.perform store x).run m = (.ok (), n)) :
    n.IsOpen subPath ∧ loaded n = x.apply (loaded m) := by
  cases x with
  | checkpoint plane => exact ⟨isOpen_of_checkpoint hx.2 hm h, loaded_of_checkpoint hx.1 hx.2 h⟩
  | delta d => exact ⟨isOpen_of_delta hx hm h, loaded_of_delta hx h⟩

/-- A run of mutations changes the plane that is `loaded` as `Mutation.apply` does, one by one. -/
theorem loaded_of_run {xs : List Mutation} (hxs : ∀ x ∈ xs, x.IsStorable) (hm : m.IsOpen subPath)
    (h : (Stored.each (p.perform store) xs).run m = (.ok (), n)) :
    n.IsOpen subPath ∧ loaded n = xs.foldl Mutation.apply (loaded m) := by
  -- Each mutation leaves the sub-path open, which is what the next one needs.
  induction xs generalizing m with
  | nil =>
    cases h
    exact ⟨hm, rfl⟩
  | cons x xs ih =>
    rw [List.forall_mem_cons] at hxs
    obtain ⟨m', hx, hrest⟩ := Action.run_then_eq_ok.1 h
    obtain ⟨hopen, hloaded⟩ := loaded_of_perform hxs.1 hm hx
    rw [List.foldl_cons, ← hloaded]
    exact ih hxs.2 hopen hrest

/-- Whatever texts are stored, if only they can be opened, a run of mutations that succeeds changes
the plane that `load` returns, its master included, as `Mutation.apply` changes one in memory: each
delta is applied to it, and each checkpoint puts the plane of its records in its place. -/
theorem load_evolves (hp : p.isStopped = false) (hm : m.IsOpen subPath) {xs : List Mutation}
    (hxs : ∀ x ∈ xs, x.IsStorable)
    (hrun : (Stored.each (p.perform store) xs).run m = (.ok (), n)) :
    ∃ plane, (p.load store).run m = (.ok plane, m) ∧
      (p.load store).run n = (.ok (xs.foldl Mutation.apply plane), n) := by
  obtain ⟨hopen, hloaded⟩ := loaded_of_run hxs hm hrun
  exact ⟨loaded m, run_load_eq_ok.2 ⟨hp, hm, rfl, rfl⟩,
    run_load_eq_ok.2 ⟨hp, hopen, hloaded.symm, rfl⟩⟩

/-- `load_evolves` with a text that is no record and a record under a wrong name in the store. A
delta stores the first node's record twice and removes the other's, and a checkpoint follows. -/
theorem load_evolves_corrupt :
    let m := (Memory.prepared.put "plane/a" "not json").put "plane/b"
      (NodeRecord.codec.toText ⟨"c", .master, 3, "1", none, some 3⟩)
    let xs : List Mutation :=
      [.delta ⟨[⟨"a", .standby, 5, "1", none, none⟩, ⟨"a", .master, 7, "1", none, some 7⟩], ["b"]⟩,
        .checkpoint (.ofRecords [⟨"c", .master, 9, "1", none, some 9⟩])]
    ∃ n plane, (Stored.each (perform store {}) xs).run m = (.ok (), n) ∧
      (load store {}).run m = (.ok plane, m) ∧
      (load store {}).run n = (.ok (xs.foldl Mutation.apply plane), n) := by
  intro m xs
  obtain ⟨n, hrun⟩ : ∃ n, (Stored.each (perform store {}) xs).run m = (.ok (), n) := ⟨_, rfl⟩
  -- Neither the text that is no record nor the record under a wrong name closes the sub-path.
  have hm : m.IsOpen subPath :=
    (Memory.prepared_holdsRecords.isOpen.put (show Path.isSingle "a" = true by decide) _).put
      (show Path.isSingle "b" = true by decide) _
  have hxs : ∀ x ∈ xs, x.IsStorable := by
    refine List.forall_mem_cons.2 ⟨?_, List.forall_mem_singleton.2 ⟨Plane.ofRecords_isFiled _, ?_⟩⟩
    · exact List.forall_mem_cons.2 ⟨by decide, List.forall_mem_singleton.2 (by decide)⟩
    · exact List.forall_mem_singleton.2 (by decide)
  obtain ⟨plane, hbefore, hafter⟩ := load_evolves rfl hm hxs hrun
  exact ⟨n, plane, hrun, hbefore, hafter⟩

end RecordPersister

end Failover
