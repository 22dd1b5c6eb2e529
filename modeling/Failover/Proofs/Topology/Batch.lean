import Failover.Proofs.Topology.Builder
import Mathlib.Data.List.Perm.Basic

/-!
# A delta of a sequence of changes means what the changes mean

Changes to objects can be made one at a time (`Topology.makeAll`), or a `DeltaBuilder` is called
with each of them and the delta that it builds is folded in. Both come to the same, and the delta
names each object that has changed once.

## Key results

- `Topology.get?_makeAll`: after changes in turn an object is as the last change of it says
- `Topology.fold_ofChanges`: so it is when the delta of the changes is folded in
- `DeltaBuilder.IsSound.refs_build_perm`: the delta of a builder names the objects in its two maps
- `DeltaBuilder.build_batches`: the delta that is built of a sequence of calls batches them
-/

namespace Failover

open ObjectChange (last?)

/-! ## One change at a time -/

namespace Topology

/-- `t.make c` is the topology `t` after the change `c` to one object: its memento takes the place
of the one before, or it is gone. -/
def make (t : Topology) : ObjectChange → Topology
  | .changed m => { t with objects := file t.objects m }
  | .removed r => { t with objects := t.objects.erase r }

/-- `t.makeAll cs` makes the changes `cs` in turn. -/
def makeAll (t : Topology) (cs : List ObjectChange) : Topology := cs.foldl make t

/-- `makeAll` leaves the version alone. -/
theorem version_makeAll (t : Topology) (cs : List ObjectChange) :
    (t.makeAll cs).version = t.version := by
  induction cs generalizing t with
  | nil => rfl
  | cons c cs ih =>
    rw [makeAll, List.foldl_cons, ← makeAll, ih]
    cases c <;> rfl

/-- After `make` the object that changes is as the change says, and the others are as they were. -/
theorem get?_make (t : Topology) (c : ObjectChange) (r : ObjectRef) :
    (t.make c).get? r = if r = c.ref then c.memento? else t.get? r := by
  cases c with
  | changed m => exact ByRef.get?_insert ..
  | removed q => exact ByRef.get?_erase ..

/-- After `makeAll` an object is as its last change says; one without a change is as it was. -/
theorem get?_makeAll (t : Topology) (cs : List ObjectChange) (r : ObjectRef) :
    (t.makeAll cs).get? r = (last? cs r).elim (t.get? r) ObjectChange.memento? := by
  induction cs using List.reverseRecOn with
  | nil => rfl
  | append_singleton cs c ih =>
    have hlast : t.makeAll (cs ++ [c]) = (t.makeAll cs).make c := by
      rw [makeAll, List.foldl_append]
      rfl
    rw [hlast, get?_make, ih, ObjectChange.last?_concat]
    by_cases hr : r = c.ref
    · rw [if_pos hr, if_pos hr, Option.elim_some]
    · rw [if_neg hr, if_neg hr]

end Topology

/-! ## What a delta names -/

/-- The objects that a delta names in its six lists, each by the list in which it stands. -/
def Delta.refs (d : Delta) : List ObjectRef :=
  Kind.all.flatMap fun k =>
    (d.changed.get k).map (fun m => ⟨k, m.id⟩) ++ (d.removed.get k).map (ObjectRef.mk k)

/-- `Delta.size` counts the names. -/
theorem Delta.length_refs (d : Delta) : d.refs.length = d.size := by
  simp [refs, Kind.all, size, count, Nat.add_assoc]

namespace DeltaBuilder

variable {b : DeltaBuilder}

/-- In a sound builder the mementos of a kind have the ids under which they are filed. -/
private theorem IsSound.map_ref_values (hb : b.IsSound) (k : Kind) :
    (b.changed.get k).values.map (·.ref) = (b.changed.get k).keys.map (ObjectRef.mk k) := by
  rw [SortedMap.values, SortedMap.keys, List.map_map, List.map_map]
  refine List.map_congr_left ?_
  rintro ⟨id, m⟩ he
  exact hb.ref_eq ⟨k, id⟩ m (SortedMap.mem_entries.1 he)

/-- The delta of a sound builder names the objects in its two maps. -/
theorem IsSound.refs_build_perm (hb : b.IsSound) :
    b.build.refs.Perm (b.changed.refs ++ b.removed.refs) := by
  have hids (k : Kind) : (b.build.changed.get k).map (fun m => ObjectRef.mk k m.id) =
      (b.changed.get k).keys.map (ObjectRef.mk k) := by
    have href := congrArg (List.map fun r => ObjectRef.mk k r.id) (hb.map_ref_values k)
    rw [List.map_map, List.map_map] at href
    rw [changed_build]
    exact href
  simp only [Delta.refs, hids, removed_build, ByRef.refs_eq_flatMap]
  exact (List.flatMap_append_perm ..).symm

/-- The delta of a sound builder names no object twice, since none is in both maps. -/
theorem IsSound.nodup_refs_build (hb : b.IsSound) : b.build.refs.Nodup := by
  refine hb.refs_build_perm.nodup_iff.2 (List.nodup_append.2 ⟨b.changed.nodup_refs,
    b.removed.nodup_refs, ?_⟩)
  rintro r hchanged _ hremoved rfl
  rw [ByRef.mem_refs] at hchanged hremoved
  exact Bool.noConfusion ((hb.disjoint r hchanged).symm.trans hremoved)

/-- In the delta of a sound builder no two mementos that are listed for a kind are of one object. -/
theorem IsSound.nodup_changed_build (hb : b.IsSound) (k : Kind) :
    ((b.build.changed.get k).map (·.ref)).Nodup := by
  rw [changed_build, hb.map_ref_values]
  exact (SortedMap.nodup_keys _).map fun _ _ heq => congrArg ObjectRef.id heq

end DeltaBuilder

namespace Delta

variable (cs : List ObjectChange)

/-- `ofChanges` names the objects that were called. -/
theorem mem_refs_ofChanges {r : ObjectRef} : r ∈ (ofChanges cs).refs ↔ ∃ c ∈ cs, c.ref = r := by
  have hsound := DeltaBuilder.isSound_empty.callAll cs
  rw [ofChanges, hsound.refs_build_perm.mem_iff, List.mem_append, ByRef.mem_refs, ByRef.mem_refs,
    DeltaBuilder.removed_callAll, ByRef.contains, DeltaBuilder.changed_callAll,
    ← ObjectChange.isSome_last?]
  -- A last call is a change or a removal.
  cases hlast : last? cs r with
  | none => simp
  | some c =>
    obtain ⟨-, href⟩ := ObjectChange.mem_of_last? hlast
    cases c with
    | changed m => simp [ObjectChange.memento?]
    | removed q => simp [show q = r from href]

/-- Filing again the mementos that `ofChanges` lists gives those of the objects whose last call is a
change. -/
theorem get?_ofMementos_changed {r : ObjectRef} {m : Memento} :
    (Topology.ofMementos ((ofChanges cs).changed.get r.kind)).get? r = some m ↔
      last? cs r = some (.changed m) := by
  have hnodup : (((ofChanges cs).changed.get r.kind).map (·.ref)).Nodup :=
    (DeltaBuilder.isSound_empty.callAll cs).nodup_changed_build r.kind
  rw [Topology.get?_ofMementos hnodup, mem_changed_ofChanges]
  constructor
  · rintro ⟨⟨-, h⟩, rfl⟩
    exact h
  · intro h
    obtain ⟨-, rfl⟩ := ObjectChange.mem_of_last? h
    exact ⟨⟨rfl, h⟩, rfl⟩

end Delta

/-! ## The whole sequence at once -/

namespace Topology

/-- Folding in the delta of `ofChanges` leaves an object as its last change says. -/
theorem get?_fold_ofChanges (t : Topology) (cs : List ObjectChange) (r : ObjectRef) :
    (t.fold (.ofChanges cs)).get? r = (last? cs r).elim (t.get? r) ObjectChange.memento? := by
  have hremoved : r.id ∈ (Delta.ofChanges cs).removed.get r.kind ↔
      last? cs r = some (.removed r) := Delta.mem_removed_ofChanges
  rw [get?_fold (Delta.ofChanges_isFiled cs)]
  simp only [hremoved]
  -- The last change of an object put it in or took it out, or there was none.
  cases hlast : last? cs r with
  | none =>
    have hnone : (ofMementos ((Delta.ofChanges cs).changed.get r.kind)).get? r = none := by
      refine Option.eq_none_iff_forall_ne_some.2 fun m hm => ?_
      cases hlast.symm.trans ((Delta.get?_ofMementos_changed cs).1 hm)
    simp [hnone]
  | some c =>
    obtain ⟨-, href⟩ := ObjectChange.mem_of_last? hlast
    cases c with
    | changed m =>
      have hsome := (Delta.get?_ofMementos_changed cs).2 hlast
      simp [hsome, ObjectChange.memento?]
    | removed q =>
      obtain rfl : q = r := href
      simp [ObjectChange.memento?]

/-- To `fold` in the delta of a sequence of changes is to make the changes in turn. -/
theorem fold_ofChanges (t : Topology) (cs : List ObjectChange) :
    t.fold (.ofChanges cs) = t.makeAll cs := by
  have hobjects : (t.fold (.ofChanges cs)).objects = (t.makeAll cs).objects :=
    ByRef.ext_get? fun r => (t.get?_fold_ofChanges cs r).trans (t.get?_makeAll cs r).symm
  calc t.fold (.ofChanges cs)
      = ⟨t.version, (t.fold (.ofChanges cs)).objects⟩ := rfl
    _ = ⟨(t.makeAll cs).version, (t.makeAll cs).objects⟩ := by rw [hobjects, version_makeAll]
    _ = t.makeAll cs := rfl

end Topology

/-- A delta batches a sequence of changes: `Topology.fold` of it comes to the same as `makeAll`, and
its lists name each object that changes once, and no other. -/
structure Delta.Batches (d : Delta) (cs : List ObjectChange) : Prop where
  fold_eq (t : Topology) : t.fold d = t.makeAll cs
  nodup_refs : d.refs.Nodup
  mem_refs (r : ObjectRef) : r ∈ d.refs ↔ r ∈ cs.map (·.ref)
  size_eq : d.size = (cs.map (·.ref)).dedup.length

/-- A new `DeltaBuilder` that is called in any sequence, however often and in whatever order objects
are called changed and removed, never has an object in both of its maps, and builds a delta that
batches the sequence. -/
theorem DeltaBuilder.build_batches (cs : List ObjectChange) :
    (∀ r, ¬((callAll {} cs).changed.contains r = true ∧
      (callAll {} cs).removed.contains r = true)) ∧ (callAll {} cs).build.Batches cs := by
  have hsound := isSound_empty.callAll cs
  have hmem (r : ObjectRef) : r ∈ (callAll {} cs).build.refs ↔ r ∈ cs.map (·.ref) :=
    (Delta.mem_refs_ofChanges cs).trans List.mem_map.symm
  -- The names are those of the calls, each once.
  have hperm : (callAll {} cs).build.refs.Perm (cs.map (·.ref)).dedup := by
    refine (List.perm_ext_iff_of_nodup hsound.nodup_refs_build (List.nodup_dedup _)).2 fun r => ?_
    rw [hmem, List.mem_dedup]
  refine ⟨fun r ⟨hchanged, hremoved⟩ => ?_, ?_⟩
  · exact Bool.noConfusion ((hsound.disjoint r hchanged).symm.trans hremoved)
  · exact ⟨fun t => t.fold_ofChanges cs, hsound.nodup_refs_build, hmem,
      (Delta.length_refs _).symm.trans hperm.length_eq⟩

end Failover
