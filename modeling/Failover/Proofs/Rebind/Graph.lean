import Failover.Proofs.Json.StoredForm
import Failover.Proofs.Topology
import Failover.Rebind.Graph

/-!
# Objects and graphs as mementos

What an object that has been given the state of a memento exports again, and which mementos the
snapshot of a graph has.

## Key results

- `ManagedObject.toMemento_apply`: an object exports the memento that was applied to it
- `ManagedObject.failures_apply`: what is reported are the references that do not resolve
- `ManagedGraph.get?_ofObjects`: a graph has the objects that it is made of
- `ManagedGraph.get?_snapshot`: the snapshot has the memento of every object
- `ManagedGraph.edit_eq_ok`: what an edit that is not refused does
-/

namespace Failover

namespace ManagedObject

variable {o : ManagedObject} {m : Memento} {l : Lookup}

/-! ## Applying a memento -/

@[simp] theorem identity_apply : (o.apply m l).1.identity = o.identity := by
  rw [apply]
  split <;> rfl

@[simp] theorem ref_apply : (o.apply m l).1.ref = o.ref := by
  rw [ref, identity_apply, ref]

/-- `apply` of a memento of another object changes nothing and is a failure. -/
theorem apply_of_ref_ne (h : m.ref ≠ o.ref) :
    o.apply m l = (o, [.populate o.ref ("memento is for " ++ m.ref.text)]) := by
  rw [apply, if_pos h]

/-- `apply` of a memento of the object itself gives it its state. -/
theorem fst_apply_of_ref_eq (h : m.ref = o.ref) : (o.apply m l).1 = o.withState m l := by
  rw [apply, if_neg (not_not_intro h)]

/-- `handleFor` keeps the id of a reference, whether or not it resolves. -/
theorem id_handleFor (hl : l.KeepsIds) (r : ObjectRef) : (handleFor l r).id = r.id := by
  rw [handleFor]
  split
  · next i hr => exact hl r.kind r.id i hr
  · rfl

/-- `handleFor` keeps the kind of a reference, whether or not it resolves. -/
theorem kind_handleFor (hl : l.IsFaithful) (r : ObjectRef) : (handleFor l r).kind = r.kind := by
  obtain ⟨h, hr, hkind, -⟩ := hl r
  rw [handleFor, hr]
  cases h with
  | live i => exact hkind
  | placeholder p => rfl

/-- `handlesFor` keeps the ids that it is given. -/
private theorem map_id_handlesFor (hl : l.KeepsIds) (k : Kind) (ids : List String) :
    (handlesFor l k ids).map (·.id) = ids := by
  rw [handlesFor, List.map_map]
  exact (List.map_congr_left fun id _ => id_handleFor hl ⟨k, id⟩).trans (List.map_id ids)

/-- `toMemento` exports the memento that was applied to an object, with its own type. -/
theorem toMemento_apply (hl : l.KeepsIds) (href : m.ref = o.ref) :
    (o.apply m l).1.toMemento = { m with objectType := o.identity.objectType } := by
  have hparent (k : Kind) : (m.relations.parent.map fun id => handleFor l ⟨k, id⟩).map (·.id) =
      m.relations.parent := by
    cases m.relations.parent <;> simp [id_handleFor hl]
  have hid : o.identity.id = m.id := congrArg ObjectRef.id href.symm
  have hkind : o.identity.kind = m.kind := congrArg ObjectRef.kind href.symm
  -- The handles keep the ids they were made from, dangling or not.
  rw [fst_apply_of_ref_eq href]
  simp only [toMemento, withState, hparent, map_id_handlesFor hl, hid, hkind]

/-- `failuresFor` reports those of some references that do not resolve. -/
private theorem flatMap_failuresFor (o : ManagedObject) (l : Lookup) (rs : List ObjectRef) :
    rs.flatMap (o.failuresFor l) =
      (rs.filter fun r => !(handleFor l r).isLive).map (.unresolved o.ref) := by
  induction rs with
  | nil => rfl
  | cons r rs ih =>
    rw [List.flatMap_cons, ih, failuresFor]
    cases hr : (handleFor l r).isLive <;> simp [hr]

/-- `failuresForIds` reports ids as references of one kind. -/
private theorem failuresForIds_eq (o : ManagedObject) (l : Lookup) (k : Kind) (ids : List String) :
    o.failuresForIds l k ids = (ids.map (ObjectRef.mk k)).flatMap (o.failuresFor l) := by
  rw [failuresForIds, List.flatMap_map]

/-- `failuresForValues` reports the references in values. -/
private theorem failuresForValues_eq (o : ManagedObject) (l : Lookup)
    (values : SortedMap String Value) :
    o.failuresForValues l values =
      (values.values.flatMap Value.references).flatMap (o.failuresFor l) := by
  rw [failuresForValues, List.flatMap_assoc]

/-- What `apply` reports are the references that do not resolve to a live object. -/
theorem failures_apply (href : m.ref = o.ref) : (o.apply m l).2 =
    (m.references.filter fun r => !(handleFor l r).isLive).map (.unresolved o.ref) := by
  have hkind : o.identity.kind = m.kind := congrArg ObjectRef.kind href.symm
  rw [apply, if_neg (not_not_intro href), ← flatMap_failuresFor, Memento.references, hkind]
  simp only [failuresForIds_eq, failuresForValues_eq, List.flatMap_append, List.append_assoc]

/-! ## The end of a rebind -/

@[simp] theorem ref_completeRebind : o.completeRebind.ref = o.ref := rfl

/-- `completeRebind` does not show in the memento of an object. -/
@[simp] theorem toMemento_completeRebind : o.completeRebind.toMemento = o.toMemento := rfl

end ManagedObject

/-- An object that the edit puts in has a place in a store. -/
def GraphEdit.IsPlaced : GraphEdit → Prop
  | .manage o => Path.isSingle o.identity.id = true
  | .unmanage _ | .mark _ => True

namespace ManagedGraph

/-! ## Graphs -/

/-- Every object of the graph `g` stands under its own kind and id. -/
def IsFiled (g : ManagedGraph) : Prop := ∀ r o, g.get? r = some o → o.ref = r

/-- `ofObjects` files each object under its own kind and id. -/
private theorem objects_ofObjects (os : List ManagedObject) (readOnly : Bool) :
    (ofObjects os readOnly).objects = ByRef.empty.fileAll (os.map fun o => (o.ref, o)) := by
  rw [ofObjects, ByRef.fileAll, List.foldl_map]

/-- What is found in a graph made by `ofObjects` is one of its objects, under its own kind and id.
-/
theorem mem_of_get?_ofObjects {os : List ManagedObject} {readOnly : Bool} {r : ObjectRef}
    {o : ManagedObject} (h : (ofObjects os readOnly).get? r = some o) : o ∈ os ∧ o.ref = r := by
  rw [get?, objects_ofObjects] at h
  obtain ⟨o', ho', heq⟩ := List.mem_map.1 (ByRef.mem_of_get?_fileAll h)
  cases heq
  exact ⟨ho', rfl⟩

theorem ofObjects_isFiled (os : List ManagedObject) (readOnly : Bool) :
    (ofObjects os readOnly).IsFiled :=
  fun _ _ h => (mem_of_get?_ofObjects h).2

/-- A graph made by `ofObjects` has an object of every kind and id that one of its objects has. -/
theorem isSome_get?_ofObjects {os : List ManagedObject} {readOnly : Bool} {r : ObjectRef} :
    ((ofObjects os readOnly).get? r).isSome ↔ ∃ o ∈ os, o.ref = r := by
  rw [get?, objects_ofObjects, ByRef.isSome_get?_fileAll, List.map_map]
  exact List.mem_map

/-- A graph made by `ofObjects` of different objects has each. -/
theorem get?_ofObjects {os : List ManagedObject} (hos : (os.map (·.ref)).Nodup) {readOnly : Bool}
    {r : ObjectRef} {o : ManagedObject} :
    (ofObjects os readOnly).get? r = some o ↔ o ∈ os ∧ o.ref = r := by
  have hkeys : ((os.map fun o => (o.ref, o)).map (·.1)).Nodup := by
    rw [List.map_map]
    exact hos
  rw [get?, objects_ofObjects, ByRef.get?_fileAll_of_nodup hkeys, List.mem_map]
  constructor
  · rintro ⟨x, hx, heq⟩
    cases heq
    exact ⟨hx, rfl⟩
  · rintro ⟨ho, rfl⟩
    exact ⟨o, ho, rfl⟩

/-- None of the objects given to `ofObjects` hides another if they are different. -/
theorem size_ofObjects_eq_length {os : List ManagedObject} {readOnly : Bool} :
    (ofObjects os readOnly).objects.size = os.length ↔ (os.map (·.ref)).Nodup := by
  have hsize := ByRef.size_fileAll_eq_length (l := os.map fun o => (o.ref, o))
  rwa [← objects_ofObjects os readOnly, List.length_map, List.map_map] at hsize

/-- The `snapshot` of a graph has the mementos of its objects. -/
theorem get?_snapshot {g : ManagedGraph} (hg : g.IsFiled) (r : ObjectRef) :
    g.snapshot.get? r = (g.get? r).map (·.toMemento) := by
  -- Objects of the graph have different references, so no memento hides another.
  have hrefs : (g.objects.values.map (·.toMemento)).map (·.ref) = g.objects.refs := by
    rw [ByRef.values, ByRef.refs, List.map_map, List.map_map]
    refine List.map_congr_left fun e he => ?_
    exact hg e.1 e.2 (ByRef.mem_toList.1 he)
  refine Option.ext fun m => ?_
  rw [snapshot, Topology.get?_ofMementos (hrefs ▸ g.objects.nodup_refs), Option.map_eq_some_iff]
  simp only [ByRef.values, List.map_map, List.mem_map, Function.comp_apply]
  constructor
  · rintro ⟨⟨⟨q, o⟩, he, rfl⟩, rfl⟩
    have ho := ByRef.mem_toList.1 he
    exact ⟨o, (hg q o ho).symm ▸ ho, rfl⟩
  · rintro ⟨o, ho, rfl⟩
    exact ⟨⟨(r, o), ByRef.mem_toList.2 ho, rfl⟩, hg r o ho⟩

/-! ## Edits -/

/-- Every object of the graph `g` stands under its own kind and id, and has a place in a store under
it. -/
structure IsPlaced (g : ManagedGraph) : Prop where
  isFiled : g.IsFiled
  isSingle : ∀ r o, g.get? r = some o → Path.isSingle r.id = true

variable {g g' : ManagedGraph} {e : GraphEdit} {c : Change} {r : ObjectRef}

/-- What an `edit` that is not refused does, and which `Change` it reports. -/
theorem edit_eq_ok : g.edit e = .ok (g', c) ↔ g.isReadOnly = false ∧
    match e with
    | .manage o => g' = { g with objects := g.objects.insert o.ref o } ∧ c = .changed o.ref
    | .unmanage r =>
      (g.get? r).isSome ∧ g' = { g with objects := g.objects.erase r } ∧ c = .removed r
    | .mark r => (g.get? r).isSome ∧ g' = g ∧ c = .changed r := by
  obtain ⟨objects, readOnly⟩ := g
  cases readOnly with
  | true => simp [edit]
  | false =>
    cases e with
    | manage o => simp [edit, eq_comm]
    | unmanage q =>
      by_cases hq : (objects.get? q).isSome <;> simp [edit, get?, ByRef.contains, hq, eq_comm]
    | mark q =>
      by_cases hq : (objects.get? q).isSome <;> simp [edit, get?, ByRef.contains, hq, eq_comm]

/-- An `edit` leaves the graph writable. -/
theorem isReadOnly_of_edit (h : g.edit e = .ok (g', c)) : g'.isReadOnly = g.isReadOnly := by
  cases e with
  | manage o =>
    obtain ⟨-, rfl, -⟩ := edit_eq_ok.1 h
    rfl
  | unmanage q =>
    obtain ⟨-, -, rfl, -⟩ := edit_eq_ok.1 h
    rfl
  | mark q =>
    obtain ⟨-, -, rfl, -⟩ := edit_eq_ok.1 h
    rfl

/-- An `edit` changes no other object than the one that is reported. -/
theorem get?_of_edit (h : g.edit e = .ok (g', c)) (hr : r ≠ c.ref) : g'.get? r = g.get? r := by
  cases e with
  | manage o =>
    obtain ⟨-, rfl, rfl⟩ := edit_eq_ok.1 h
    exact (ByRef.get?_insert ..).trans (if_neg hr)
  | unmanage q =>
    obtain ⟨-, -, rfl, rfl⟩ := edit_eq_ok.1 h
    exact (ByRef.get?_erase ..).trans (if_neg hr)
  | mark q =>
    obtain ⟨-, -, rfl, -⟩ := edit_eq_ok.1 h
    rfl

/-- An object that an `edit` reports as removed is gone. -/
theorem get?_of_edit_removed (h : g.edit e = .ok (g', .removed r)) : g'.get? r = none := by
  cases e with
  | manage o => cases (edit_eq_ok.1 h).2.2
  | unmanage q =>
    obtain ⟨-, -, rfl, heq⟩ := edit_eq_ok.1 h
    cases heq
    exact (ByRef.get?_erase ..).trans (if_pos rfl)
  | mark q => cases (edit_eq_ok.1 h).2.2.2

/-- `IsPlaced` is kept by an `edit` of an object that has a place. -/
theorem IsPlaced.edit (hg : g.IsPlaced) (he : e.IsPlaced) (h : g.edit e = .ok (g', c)) :
    g'.IsPlaced := by
  -- An object that was put in stands under its own kind and id, and all others were there before.
  have hmem (r : ObjectRef) (o : ManagedObject) (ho : g'.get? r = some o) :
      g.get? r = some o ∨ e = .manage o ∧ r = o.ref := by
    cases e with
    | manage o' =>
      obtain ⟨-, rfl, -⟩ := edit_eq_ok.1 h
      rw [get?, ByRef.get?_insert] at ho
      split at ho
      · next hr =>
        cases ho
        exact .inr ⟨rfl, hr⟩
      · exact .inl ho
    | unmanage q =>
      obtain ⟨-, -, rfl, -⟩ := edit_eq_ok.1 h
      rw [get?, ByRef.get?_erase] at ho
      split at ho
      · cases ho
      · exact .inl ho
    | mark q =>
      obtain ⟨-, -, rfl, -⟩ := edit_eq_ok.1 h
      exact .inl ho
  refine ⟨fun r o ho => ?_, fun r o ho => ?_⟩
  · obtain ho | ⟨-, rfl⟩ := hmem r o ho
    · exact hg.isFiled r o ho
    · rfl
  · obtain ho | ⟨rfl, rfl⟩ := hmem r o ho
    · exact hg.isSingle r o ho
    · exact he

end ManagedGraph

end Failover
