import Failover.Proofs.Topology
import Mathlib.Data.List.Induction

/-!
# What a builder of deltas holds

A `DeltaBuilder` keeps what was called changed and what was called removed in two maps. Each call
strikes its object from the map to which it does not belong, so no object is ever in both
(`DeltaBuilder.IsSound`), and the maps hold of each object what its last call says
(`ObjectChange.last?`). `DeltaBuilder.build` then lists the maps kind by kind.

## Key results

- `DeltaBuilder.IsSound.call`, `DeltaBuilder.IsSound.callAll`: the invariant of the two maps
- `DeltaBuilder.changed_callAll`, `DeltaBuilder.removed_callAll`: what they hold after calls in turn
- `DeltaBuilder.changed_build`, `DeltaBuilder.removed_build`: the lists that `build` makes of them
- `Delta.mem_changed_ofChanges`, `Delta.mem_removed_ofChanges`: what is listed of a sequence of
  calls
-/

namespace Failover

/-! ## The last change of an object -/

namespace ObjectChange

variable {cs : List ObjectChange} {c : ObjectChange} {r : ObjectRef} {m : Memento}

/-- `last? cs r` is the last change of the object `r` in a sequence of changes. -/
def last? (cs : List ObjectChange) (r : ObjectRef) : Option ObjectChange :=
  cs.reverse.find? fun c => c.ref = r

@[simp] theorem last?_nil (r : ObjectRef) : last? [] r = none := rfl

@[simp] theorem last?_concat (cs : List ObjectChange) (c : ObjectChange) (r : ObjectRef) :
    last? (cs ++ [c]) r = if r = c.ref then some c else last? cs r := by
  rw [last?, List.reverse_concat, List.find?_cons]
  by_cases hr : r = c.ref
  · simp [hr]
  · simp [hr, Ne.symm hr, last?]

/-- `last?` finds one of the changes, and one of the object that was asked for. -/
theorem mem_of_last? (h : last? cs r = some c) : c ∈ cs ∧ c.ref = r := by
  rw [last?, List.find?_eq_some_iff_append] at h
  obtain ⟨hr, before, after, hsplit, -⟩ := h
  have hmem : c ∈ cs.reverse := by simp [hsplit]
  exact ⟨List.mem_reverse.1 hmem, of_decide_eq_true hr⟩

/-- `last?` finds a change of every object that has one. -/
theorem isSome_last? : (last? cs r).isSome ↔ ∃ c ∈ cs, c.ref = r := by
  simp [last?, List.find?_isSome]

/-- Only a change that `changed` an object leaves its memento. -/
theorem memento?_eq_some : c.memento? = some m ↔ c = .changed m := by
  cases c <;> simp [memento?]

end ObjectChange

open ObjectChange (last?)

namespace DeltaBuilder

variable {b : DeltaBuilder}

/-! ## The two maps -/

/-- The invariant `IsSound` of a builder: every memento is filed under its own kind and id, and no
object is in both maps. -/
structure IsSound (b : DeltaBuilder) : Prop where
  ref_eq : ∀ r m, b.changed.get? r = some m → m.ref = r
  disjoint : ∀ r, b.changed.contains r = true → b.removed.contains r = false

/-- A `call` puts its memento into `changed`, or takes the memento of its object out. -/
theorem changed_call (b : DeltaBuilder) (c : ObjectChange) (r : ObjectRef) :
    (b.call c).changed.get? r = if r = c.ref then c.memento? else b.changed.get? r := by
  cases c with
  | changed m => exact ByRef.get?_insert ..
  | removed q => exact ByRef.get?_erase ..

/-- A `call` puts its object into `removed` if it is a removal, and otherwise takes it out. -/
theorem removed_call (b : DeltaBuilder) (c : ObjectChange) (r : ObjectRef) :
    (b.call c).removed.contains r =
      if r = c.ref then c.memento?.isNone else b.removed.contains r := by
  cases c with
  | changed m =>
    rw [call, ByRef.contains, ByRef.get?_erase]
    by_cases hr : r = m.ref <;> simp [hr, ObjectChange.ref, ObjectChange.memento?, ByRef.contains]
  | removed q =>
    rw [call, ByRef.contains, ByRef.get?_insert]
    by_cases hr : r = q <;> simp [hr, ObjectChange.ref, ObjectChange.memento?, ByRef.contains]

theorem isSound_empty : IsSound {} := ⟨by simp, by simp [ByRef.contains]⟩

/-- `DeltaBuilder.call` preserves `IsSound`. -/
theorem IsSound.call (hb : b.IsSound) (c : ObjectChange) : (b.call c).IsSound where
  ref_eq r m h := by
    rw [changed_call] at h
    split at h
    · next hr =>
      obtain rfl := ObjectChange.memento?_eq_some.1 h
      exact hr.symm
    · exact hb.ref_eq r m h
  disjoint r h := by
    rw [ByRef.contains, changed_call] at h
    rw [removed_call]
    -- The object of the call is in one map only; the others stand where they stood.
    split at h
    · next hr => rw [if_pos hr, Option.isNone_eq_false_iff.2 h]
    · next hr => exact (if_neg hr).trans (hb.disjoint r h)

/-- `DeltaBuilder.callAll` preserves `IsSound`: whatever is called, no object ends in both maps. -/
theorem IsSound.callAll (hb : b.IsSound) (cs : List ObjectChange) : (b.callAll cs).IsSound := by
  induction cs generalizing b with
  | nil => exact hb
  | cons c cs ih => exact ih (hb.call c)

/-- The last of the calls of `callAll` is made at the end. -/
private theorem callAll_concat (b : DeltaBuilder) (cs : List ObjectChange) (c : ObjectChange) :
    b.callAll (cs ++ [c]) = (b.callAll cs).call c := by
  rw [callAll, List.foldl_append]
  rfl

/-- After `callAll` the map `changed` holds the mementos of the objects whose last call is a change.
-/
theorem changed_callAll (cs : List ObjectChange) (r : ObjectRef) :
    (callAll {} cs).changed.get? r = (last? cs r).bind ObjectChange.memento? := by
  induction cs using List.reverseRecOn with
  | nil => exact ByRef.get?_empty r
  | append_singleton cs c ih =>
    rw [callAll_concat, changed_call, ih, ObjectChange.last?_concat]
    -- The call at the end decides for its own object, and for no other.
    by_cases hr : r = c.ref
    · rw [if_pos hr, if_pos hr, Option.bind_some]
    · rw [if_neg hr, if_neg hr]

/-- After `callAll` the map `removed` holds the objects whose last call is a removal. -/
theorem removed_callAll (cs : List ObjectChange) (r : ObjectRef) :
    (callAll {} cs).removed.contains r = true ↔ last? cs r = some (.removed r) := by
  induction cs using List.reverseRecOn with
  | nil => simp [callAll, ByRef.contains]
  | append_singleton cs c ih =>
    rw [callAll_concat, removed_call, ObjectChange.last?_concat]
    -- The call at the end decides for its own object, and for no other.
    by_cases hr : r = c.ref
    · rw [if_pos hr, if_pos hr]
      cases c with
      | changed m => simp [ObjectChange.memento?]
      | removed q => simp [ObjectChange.memento?, show r = q from hr]
    · rw [if_neg hr, if_neg hr, ih]

/-! ## The lists of a delta -/

/-- `listChanged` in turn adds to the list of each kind the mementos that were filed under it. -/
private theorem changed_foldl_listChanged (d : Delta) (l : List (ObjectRef × Memento)) (k : Kind) :
    (l.foldl (fun d e => d.listChanged e.1.kind e.2) d).changed.get k =
      d.changed.get k ++ (l.filter fun e => e.1.kind = k).map (·.2) := by
  induction l generalizing d with
  | nil => simp
  | cons e l ih =>
    rw [List.foldl_cons, ih, Delta.listChanged, PerKind.get_modify]
    by_cases hk : k = e.1.kind
    · simp [hk]
    · simp [hk, Ne.symm hk]

private theorem removed_foldl_listChanged (d : Delta) (l : List (ObjectRef × Memento)) :
    (l.foldl (fun d e => d.listChanged e.1.kind e.2) d).removed = d.removed := by
  induction l generalizing d with
  | nil => rfl
  | cons e l ih => exact ih _

/-- `listRemoved` in turn adds to the list of each kind the ids of that kind. -/
private theorem removed_foldl_listRemoved (d : Delta) (rs : List ObjectRef) (k : Kind) :
    (rs.foldl (fun d r => d.listRemoved r.kind r.id) d).removed.get k =
      d.removed.get k ++ (rs.filter fun r => r.kind = k).map (·.id) := by
  induction rs generalizing d with
  | nil => simp
  | cons r rs ih =>
    rw [List.foldl_cons, ih, Delta.listRemoved, PerKind.get_modify]
    by_cases hk : k = r.kind
    · simp [hk]
    · simp [hk, Ne.symm hk]

private theorem changed_foldl_listRemoved (d : Delta) (rs : List ObjectRef) :
    (rs.foldl (fun d r => d.listRemoved r.kind r.id) d).changed = d.changed := by
  induction rs generalizing d with
  | nil => rfl
  | cons r rs ih => exact ih _

/-- `build` lists of each kind the mementos in `changed`, in the order of their ids. -/
theorem changed_build (b : DeltaBuilder) (k : Kind) :
    b.build.changed.get k = (b.changed.get k).values := by
  rw [build, changed_foldl_listRemoved, changed_foldl_listChanged, ByRef.filter_kind_toList,
    List.map_map, PerKind.get_const, List.nil_append]
  rfl

/-- `build` lists of each kind the ids in `removed`, in order. -/
theorem removed_build (b : DeltaBuilder) (k : Kind) :
    b.build.removed.get k = (b.removed.get k).keys := by
  rw [build, removed_foldl_listRemoved, removed_foldl_listChanged, ByRef.refs, List.filter_map,
    List.map_map]
  show _ ++ ((b.removed.toList.filter fun e => e.1.kind = k).map _) = _
  rw [ByRef.filter_kind_toList, List.map_map, PerKind.get_const, List.nil_append]
  rfl

end DeltaBuilder

/-! ## The delta of a sequence of calls -/

namespace Delta

variable {cs : List ObjectChange} {k : Kind}

/-- `ofChanges` lists a memento, under its own kind, exactly if it is the last call for its object.
-/
theorem mem_changed_ofChanges {m : Memento} :
    m ∈ (ofChanges cs).changed.get k ↔ m.kind = k ∧ last? cs m.ref = some (.changed m) := by
  -- What `changed` holds under a reference is the last change of that object.
  have hheld (id : String) : ((DeltaBuilder.callAll {} cs).changed.get k).get? id = some m ↔
      last? cs ⟨k, id⟩ = some (.changed m) := by
    show (DeltaBuilder.callAll {} cs).changed.get? ⟨k, id⟩ = some m ↔ _
    simp [DeltaBuilder.changed_callAll, Option.bind_eq_some_iff, ObjectChange.memento?_eq_some]
  rw [ofChanges, DeltaBuilder.changed_build, SortedMap.mem_values]
  simp only [hheld]
  constructor
  · rintro ⟨id, h⟩
    obtain ⟨-, href⟩ := ObjectChange.mem_of_last? h
    rw [← href] at h
    exact ⟨congrArg ObjectRef.kind href, h⟩
  · rintro ⟨rfl, h⟩
    exact ⟨m.id, h⟩

/-- `ofChanges` lists an id to take out exactly if the last call for its object is a removal. -/
theorem mem_removed_ofChanges {id : String} :
    id ∈ (ofChanges cs).removed.get k ↔ last? cs ⟨k, id⟩ = some (.removed ⟨k, id⟩) := by
  rw [ofChanges, DeltaBuilder.removed_build, SortedMap.mem_keys]
  exact DeltaBuilder.removed_callAll cs ⟨k, id⟩

/-- In the delta that `ofChanges` makes every memento stands in the list of its own kind. -/
theorem ofChanges_isFiled (cs : List ObjectChange) : (ofChanges cs).IsFiled :=
  fun _ _ h => (mem_changed_ofChanges.1 h).1

end Delta

end Failover
