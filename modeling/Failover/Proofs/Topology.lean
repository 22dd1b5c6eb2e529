import Failover.Proofs.SortedMap
import Failover.Topology.Basic

/-!
# What a topology holds

Mementos are filed one after the other under their own kind and id, and deltas are folded in kind by
kind. Both are seen here through `Topology.get?`.

## Key results

- `Topology.get?_ofMementos`: what is filed of mementos of different objects
- `Topology.get?_fold`: what a delta changes
-/

namespace Failover

/-- A `Delta` is filed if every memento stands in the list of its own kind. -/
def Delta.IsFiled (d : Delta) : Prop := ∀ k, ∀ m ∈ d.changed.get k, m.kind = k

namespace Topology

/-- A `Topology` is filed if every memento stands under its own kind and id. -/
def IsFiled (t : Topology) : Prop := ∀ r m, t.get? r = some m → m.ref = r

/-- To file mementos in turn is `ByRef.fileAll` of them under their own references. -/
private theorem foldl_file (objects : ByRef Memento) (ms : List Memento) :
    ms.foldl file objects = objects.fileAll (ms.map fun m => (m.ref, m)) := by
  rw [ByRef.fileAll, List.foldl_map]
  rfl

/-- `ofMementos` is `ByRef.fileAll` of the mementos under their own references. -/
private theorem get?_ofMementos_eq (ms : List Memento) (version : String) (r : ObjectRef) :
    (ofMementos ms version).get? r = (ByRef.empty.fileAll (ms.map fun m => (m.ref, m))).get? r := by
  rw [get?, ofMementos, foldl_file]

/-- A memento that goes before others in `ofMementos` is hidden by a later one of the same object.
-/
theorem get?_ofMementos_cons (m : Memento) (ms : List Memento) (r : ObjectRef) :
    (ofMementos (m :: ms)).get? r =
      ((ofMementos ms).get? r).or (if r = m.ref then some m else none) := by
  rw [get?_ofMementos_eq, get?_ofMementos_eq, List.map_cons, ByRef.get?_fileAll_cons]

/-- What is found in `ofMementos` is one of the mementos, under its own kind and id. -/
theorem mem_of_get?_ofMementos {ms : List Memento} {version : String} {r : ObjectRef} {m : Memento}
    (h : (ofMementos ms version).get? r = some m) : m ∈ ms ∧ m.ref = r := by
  rw [get?_ofMementos_eq] at h
  obtain ⟨x, hx, heq⟩ := List.mem_map.1 (ByRef.mem_of_get?_fileAll h)
  cases heq
  exact ⟨hx, rfl⟩

/-- `ofMementos` files every memento under its own kind and id. -/
theorem ofMementos_isFiled (ms : List Memento) (version : String) :
    (ofMementos ms version).IsFiled :=
  fun _ _ h => (mem_of_get?_ofMementos h).2

/-- A filed topology stays so when one more memento is put in by `file`. -/
theorem IsFiled.file {t : Topology} (ht : t.IsFiled) (m : Memento) :
    ({ t with objects := file t.objects m } : Topology).IsFiled := by
  intro r x hx
  rw [get?, Topology.file, ByRef.get?_insert] at hx
  split at hx
  · next hr =>
    cases hx
    exact hr.symm
  · exact ht r x hx

/-- In `ofMementos` something is found for each object that there is a memento of. -/
theorem isSome_get?_ofMementos {ms : List Memento} {r : ObjectRef} :
    ((ofMementos ms).get? r).isSome ↔ ∃ m ∈ ms, m.ref = r := by
  rw [get?_ofMementos_eq, ByRef.isSome_get?_fileAll, List.map_map]
  exact List.mem_map

/-- In `ofMementos` of mementos of different objects each is found. -/
theorem get?_ofMementos {ms : List Memento} (hms : (ms.map (·.ref)).Nodup) {r : ObjectRef}
    {m : Memento} : (ofMementos ms).get? r = some m ↔ m ∈ ms ∧ m.ref = r := by
  have hkeys : ((ms.map fun m => (m.ref, m)).map (·.1)).Nodup := by
    rw [List.map_map]
    exact hms
  rw [get?_ofMementos_eq, ByRef.get?_fileAll_of_nodup hkeys, List.mem_map]
  constructor
  · rintro ⟨x, hx, heq⟩
    cases heq
    exact ⟨hx, rfl⟩
  · rintro ⟨hm, rfl⟩
    exact ⟨m, hm, rfl⟩

/-- `ofMementos` of the mementos of one kind has these, each where it was. -/
theorem get?_ofMementos_values {t : Topology} (ht : t.IsFiled) (k : Kind) (r : ObjectRef) :
    (ofMementos (t.objects.get k).values).get? r = if r.kind = k then t.get? r else none := by
  -- What is filed stands under its own id, so the values are what is found under theirs.
  have hmem {m : Memento} : m ∈ (t.objects.get k).values ↔ t.get? ⟨k, m.id⟩ = some m := by
    rw [SortedMap.mem_values]
    constructor
    · rintro ⟨id, hid⟩
      have href := ht ⟨k, id⟩ m hid
      rwa [show m.id = id from congrArg ObjectRef.id href]
    · exact fun h => ⟨m.id, h⟩
  -- No two of them are mementos of one object.
  have hnodup : ((t.objects.get k).values.map (·.ref)).Nodup := by
    rw [SortedMap.values, List.map_map]
    refine List.pairwise_map.2 ((t.objects.get k).entries_pairwise_ne.imp_of_mem ?_)
    intro a b ha hb hne heq
    have hself := ht ⟨k, a.1⟩ a.2 (SortedMap.mem_entries.1 ha)
    have hself' := ht ⟨k, b.1⟩ b.2 (SortedMap.mem_entries.1 hb)
    exact hne (congrArg ObjectRef.id (hself.symm.trans (heq.trans hself')))
  refine Option.ext fun m => ?_
  rw [get?_ofMementos hnodup, hmem]
  constructor
  · rintro ⟨hm, rfl⟩
    have hkind : m.ref.kind = k := congrArg ObjectRef.kind (ht _ _ hm)
    rw [if_pos hkind, ht _ _ hm]
    exact hm
  · split
    · next hk =>
      subst hk
      intro hm
      have href := ht _ _ hm
      rw [show m.id = r.id from congrArg ObjectRef.id href]
      exact ⟨hm, href⟩
    · intro hm
      cases hm

/-! ## Deltas -/

/-- Mementos of one kind that are put in hide those that were there, as `ofMementos` tells. -/
theorem get?_insertAll_mementos {k : Kind} {ms : List Memento} (hms : ∀ m ∈ ms, m.kind = k)
    (objects : SortedMap String Memento) (id : String) :
    (objects.insertAll (ms.map fun m => (m.id, m))).get? id =
      ((ofMementos ms).get? ⟨k, id⟩).or (objects.get? id) := by
  induction ms generalizing objects with
  | nil => simp [ofMementos, get?]
  | cons m ms ih =>
    rw [List.forall_mem_cons] at hms
    rw [List.map_cons, SortedMap.insertAll_cons, ih hms.2, SortedMap.get?_insert,
      get?_ofMementos_cons, Option.or_assoc]
    -- All mementos are of the kind `k`, so references of that kind are told apart by the ids.
    have hiff : (⟨k, id⟩ : ObjectRef) = m.ref ↔ id = m.id := by
      rw [Memento.ref, hms.1, ObjectRef.mk.injEq]
      exact and_iff_right rfl
    congr 1
    by_cases hid : id = m.id
    · rw [if_pos hid, if_pos (hiff.2 hid), Option.some_or]
    · rw [if_neg hid, if_neg (hiff.not.2 hid), Option.none_or]

/-- In `ofMementos` of mementos of one kind there is no object of another kind. -/
theorem get?_ofMementos_of_kind_ne {k : Kind} {ms : List Memento} (hms : ∀ m ∈ ms, m.kind = k)
    {r : ObjectRef} (hr : r.kind ≠ k) : (ofMementos ms).get? r = none := by
  rw [← Option.not_isSome_iff_eq_none, isSome_get?_ofMementos]
  rintro ⟨m, hm, rfl⟩
  exact hr (hms m hm)

/-- `fold` puts the mementos of a filed delta in place of what was there, and then takes away what
it removes. -/
theorem get?_fold {d : Delta} (hd : d.IsFiled) (t : Topology) (r : ObjectRef) :
    (t.fold d).get? r =
      if r.id ∈ d.removed.get r.kind then none
      else ((ofMementos (d.changed.get r.kind)).get? r).or (t.get? r) := by
  obtain ⟨k, id⟩ := r
  simp only [get?, ByRef.get?, fold, PerKind.get_ofFn, foldKind, SortedMap.get?_eraseAll]
  rw [get?_insertAll_mementos (hd k)]
  rfl

/-- Whatever kind a memento says it is of, `fold` puts it in under the kind in whose list it stands.
-/
theorem isSome_get?_fold (t : Topology) (d : Delta) (r : ObjectRef) :
    ((t.fold d).get? r).isSome ↔ r.id ∉ d.removed.get r.kind ∧
      ((∃ m ∈ d.changed.get r.kind, m.id = r.id) ∨ (t.get? r).isSome) := by
  obtain ⟨k, id⟩ := r
  simp only [get?, ByRef.get?, fold, PerKind.get_ofFn, foldKind, SortedMap.get?_eraseAll]
  by_cases hid : id ∈ d.removed.get k
  · simp [hid]
  · simp [hid, SortedMap.isSome_get?_insertAll]

/-- `fold` of a filed delta keeps a topology filed. -/
theorem IsFiled.fold {t : Topology} (ht : t.IsFiled) {d : Delta} (hd : d.IsFiled) :
    (t.fold d).IsFiled := by
  intro r m h
  rw [get?_fold hd] at h
  split at h
  · cases h
  · rcases Option.or_eq_some_iff.1 h with h | ⟨-, h⟩
    · exact (mem_of_get?_ofMementos h).2
    · exact ht r m h

end Topology

end Failover
