import Failover.Kind
import Mathlib.Data.List.Dedup
import Mathlib.Data.List.Pairwise

/-!
# What a sorted map holds

The entries of a sorted map are what `get?` finds, each key once; and how adding and taking away
many entries is seen through `get?`.

## Key results

- `SortedMap.mem_entries`: an entry is what is found under its key
- `SortedMap.get?_insertAll_of_mem`, `SortedMap.get?_eraseAll`: what is found after adding or taking
  away many entries
- `SortedMap.values_filter_congr`: maps that hold the same values of a kind list them alike
- `ByRef.mem_toList`: what is filed is what is found under its reference
- `ByRef.get?_fileAll`, `ByRef.get?_fileAll_of_nodup`: what is found after filing many things
- `ByRef.size_fileAll_eq_length`: when none of them hides another
-/

namespace Failover

/-- `filterMap` keeps keys different, if every result has the key of the item that it was made of.
-/
theorem nodup_map_filterMap {α β κ : Type} {f : α → Option β} {g : α → κ} {k : β → κ}
    {l : List α} (hf : ∀ a ∈ l, ∀ b, f a = some b → k b = g a) (hl : (l.map g).Nodup) :
    ((l.filterMap f).map k).Nodup := by
  refine List.pairwise_map.2 (List.pairwise_filterMap.2 ((List.pairwise_map.1 hl).imp_of_mem ?_))
  intro a a' ha ha' hne b hb b' hb' heq
  exact hne ((hf a ha b hb).symm.trans (heq.trans (hf a' ha' b' hb')))

/-- If the results of `filterMap` have different keys, those with one key were made of one item. -/
theorem eq_of_nodup_map_filterMap {α β κ : Type} {f : α → Option β} {k : β → κ} {l : List α}
    (hl : ((l.filterMap f).map k).Nodup) {a a' : α} (ha : a ∈ l) (ha' : a' ∈ l) {b b' : β}
    (hb : f a = some b) (hb' : f a' = some b') (hk : k b = k b') : a = a' := by
  by_contra hne
  rw [List.Nodup, List.pairwise_map, List.pairwise_filterMap] at hl
  have hsymm : Std.Symm fun a a' => ∀ b, f a = some b → ∀ b', f a' = some b' → k b ≠ k b' :=
    ⟨fun _ _ h b hb b' hb' => (h b' hb' b hb).symm⟩
  exact hl.forall ha ha' hne b hb b' hb' hk

namespace SortedMap

variable {κ υ ω : Type} [Ord κ]

/-- What `lookup` finds is an entry of the list. -/
private theorem mem_of_lookup [Std.LawfulEqOrd κ] {k : κ} {v : υ} {l : List (κ × υ)}
    (h : lookup k l = some v) : (k, v) ∈ l := by
  induction l with
  | nil => simp [lookup] at h
  | cons e rest ih =>
    obtain ⟨k', v'⟩ := e
    simp only [lookup] at h
    split at h
    · next heq =>
      obtain rfl := Std.LawfulEqCmp.compare_eq_iff_eq.1 heq
      cases h
      exact List.mem_cons_self
    · exact List.mem_cons_of_mem _ (ih h)

/-- `lookup` finds every entry of a list whose keys increase. -/
private theorem lookup_of_mem [Std.LawfulEqOrd κ] {k : κ} {v : υ} {l : List (κ × υ)}
    (hl : l.Pairwise fun a b => compare a.1 b.1 = .lt) (h : (k, v) ∈ l) : lookup k l = some v := by
  induction l with
  | nil => simp at h
  | cons e rest ih =>
    rw [List.pairwise_cons] at hl
    rcases List.mem_cons.1 h with rfl | h
    · simp [lookup]
    -- The key stands after the first one, so the search passes that.
    · have hlt := hl.1 (k, v) h
      have hne : compare k e.1 ≠ .eq := by
        intro heq
        obtain rfl := Std.LawfulEqCmp.compare_eq_iff_eq.1 heq
        simp [Std.ReflCmp.compare_self] at hlt
      simpa [lookup, hne] using ih hl.2 h

/-- The `entries` are what `get?` finds under their keys. -/
theorem mem_entries [Std.LawfulEqOrd κ] {m : SortedMap κ υ} {k : κ} {v : υ} :
    (k, v) ∈ m.entries ↔ m.get? k = some v :=
  ⟨lookup_of_mem m.sorted, mem_of_lookup⟩

/-- The `keys` are those under which `get?` finds something. -/
theorem mem_keys [Std.LawfulEqOrd κ] {m : SortedMap κ υ} {k : κ} :
    k ∈ m.keys ↔ (m.get? k).isSome := by
  rw [Option.isSome_iff_exists, keys, List.mem_map]
  constructor
  · rintro ⟨⟨k, v⟩, he, rfl⟩
    exact ⟨v, mem_entries.1 he⟩
  · rintro ⟨v, hv⟩
    exact ⟨(k, v), mem_entries.2 hv, rfl⟩

/-- The `values` are what `get?` finds under some key. -/
theorem mem_values [Std.LawfulEqOrd κ] {m : SortedMap κ υ} {v : υ} :
    v ∈ m.values ↔ ∃ k, m.get? k = some v := by
  rw [values, List.mem_map]
  constructor
  · rintro ⟨⟨k, v⟩, he, rfl⟩
    exact ⟨k, mem_entries.1 he⟩
  · rintro ⟨k, hv⟩
    exact ⟨(k, v), mem_entries.2 hv, rfl⟩

/-- No two `entries` have one key. -/
theorem entries_pairwise_ne [Std.ReflOrd κ] (m : SortedMap κ υ) :
    m.entries.Pairwise fun a b => a.1 ≠ b.1 :=
  m.sorted.imp fun {a b} h heq => by simp [heq, Std.ReflCmp.compare_self] at h

/-- The `keys` are all different. -/
theorem nodup_keys [Std.ReflOrd κ] (m : SortedMap κ υ) : m.keys.Nodup :=
  List.pairwise_map.2 m.entries_pairwise_ne

/-! ## Many entries -/

/-- `insertAll` changes nothing under a key that does not occur in the list. -/
theorem get?_insertAll_of_not_mem [Std.TransOrd κ] [Std.LawfulEqOrd κ] [DecidableEq κ]
    (m : SortedMap κ υ) {l : List (κ × υ)} {k : κ}
    (h : k ∉ l.map (·.1)) : (m.insertAll l).get? k = m.get? k := by
  induction l generalizing m with
  | nil => rfl
  | cons e rest ih =>
    simp only [List.map_cons, List.mem_cons, not_or] at h
    rw [insertAll_cons, ih _ h.2, get?_insert, if_neg h.1]

/-- After `insertAll` something is found under each key of the list, and where it was before. -/
theorem isSome_get?_insertAll [Std.TransOrd κ] [Std.LawfulEqOrd κ] [DecidableEq κ]
    (m : SortedMap κ υ) (l : List (κ × υ)) (k : κ) :
    ((m.insertAll l).get? k).isSome ↔ k ∈ l.map (·.1) ∨ (m.get? k).isSome := by
  induction l generalizing m with
  | nil => simp [insertAll]
  | cons e rest ih =>
    rw [insertAll_cons, ih, get?_insert, List.map_cons, List.mem_cons]
    by_cases hk : k = e.1 <;> simp [hk]

/-- After `insertAll` of entries with different keys each of them is found. -/
theorem get?_insertAll_of_mem [Std.TransOrd κ] [Std.LawfulEqOrd κ] [DecidableEq κ]
    (m : SortedMap κ υ) {l : List (κ × υ)} (hl : (l.map (·.1)).Nodup) {e : κ × υ} (h : e ∈ l) :
    (m.insertAll l).get? e.1 = some e.2 := by
  induction l generalizing m with
  | nil => simp at h
  | cons a rest ih =>
    rw [List.map_cons, List.nodup_cons] at hl
    rcases List.mem_cons.1 h with rfl | h
    · rw [insertAll_cons, get?_insertAll_of_not_mem _ hl.1, get?_insert, if_pos rfl]
    · exact ih _ hl.2 h

/-- After `eraseAll` nothing is found under the keys of the list. -/
theorem get?_eraseAll [Std.LawfulEqOrd κ] [DecidableEq κ] (m : SortedMap κ υ) (ks : List κ)
    (k : κ) : (m.eraseAll ks).get? k = if k ∈ ks then none else m.get? k := by
  induction ks generalizing m with
  | nil => rfl
  | cons q ks ih =>
    rw [eraseAll, List.foldl_cons, ← eraseAll, ih, get?_erase]
    by_cases hq : k = q
    · simp [hq]
    · by_cases hk : k ∈ ks <;> simp [hq, hk]

/-! ## Parts of a map -/

/-- `filter` keeps the entries that satisfy the test, each under its key. -/
theorem get?_filter_eq_some [Std.LawfulEqOrd κ] {m : SortedMap κ υ} {p : κ → υ → Bool} {k : κ}
    {v : υ} : (m.filter p).get? k = some v ↔ m.get? k = some v ∧ p k v = true := by
  rw [← mem_entries, ← mem_entries, filter, List.mem_filter]

/-- The `values` of a map that was filtered by value are those that satisfy the test. -/
theorem values_filter (m : SortedMap κ υ) (t : υ → Bool) :
    (m.filter fun _ v => t v).values = m.values.filter t := by
  rw [values, filter, values, List.filter_map]
  rfl

/-- Two maps that hold the same values of a kind under each key have these in the same places of
`values`. -/
theorem values_filter_congr [Std.TransOrd κ] [Std.LawfulEqOrd κ] {m n : SortedMap κ υ}
    {t : υ → Bool} (h : ∀ k v, t v = true → (m.get? k = some v ↔ n.get? k = some v)) :
    -- The values of a filtered map are told by `get?`.
    m.values.filter t = n.values.filter t := by
  have hsame : (m.filter fun _ v => t v) = n.filter fun _ v => t v := by
    refine ext_get? fun k => Option.ext fun v => ?_
    rw [get?_filter_eq_some, get?_filter_eq_some]
    exact and_congr_left fun ht => h k v ht
  rw [← values_filter, ← values_filter, hsame]

/-- What `filterMap` makes of `entries` at some keys is the same for maps that agree at these keys.
-/
theorem filterMap_entries_congr [Std.TransOrd κ] [Std.LawfulEqOrd κ] {β : Type}
    {m n : SortedMap κ υ} {P : κ → Prop} (h : ∀ k, P k → m.get? k = n.get? k)
    {f : κ × υ → Option β} (hf : ∀ e, ¬P e.1 → f e = none) :
    m.entries.filterMap f = n.entries.filterMap f := by
  classical
  -- Only the entries at these keys give anything.
  have hpart (m : SortedMap κ υ) :
      (m.filter fun k _ => P k).entries.filterMap f = m.entries.filterMap f := by
    rw [filter, List.filterMap_filter]
    refine List.filterMap_congr fun e _ => ?_
    by_cases he : P e.1
    · simp [he]
    · simp [he, hf e he]
  -- And there the two maps have the same.
  have hsame : (m.filter fun k _ => P k) = n.filter fun k _ => P k := by
    refine ext_get? fun k => Option.ext fun v => ?_
    rw [get?_filter_eq_some, get?_filter_eq_some, decide_eq_true_eq]
    exact and_congr_left fun hk => by rw [h k hk]
  rw [← hpart m, ← hpart n, hsame]

end SortedMap

namespace ByRef

variable {α : Type}

/-- `toList` has what `get?` finds, under its reference. -/
theorem mem_toList {m : ByRef α} {r : ObjectRef} {a : α} :
    (r, a) ∈ m.toList ↔ m.get? r = some a := by
  simp only [toList, List.mem_flatMap, List.mem_map, get?]
  constructor
  · rintro ⟨k, -, e, he, heq⟩
    cases heq
    exact SortedMap.mem_entries.1 he
  · intro h
    exact ⟨r.kind, by cases r.kind <;> simp [Kind.all], (r.id, a), SortedMap.mem_entries.2 h, rfl⟩

/-- `refs` goes through the kinds, and through the `keys` of each. -/
theorem refs_eq_flatMap (m : ByRef α) :
    m.refs = Kind.all.flatMap fun k => (m.get k).keys.map (ObjectRef.mk k) := by
  simp only [refs, toList, SortedMap.keys, List.map_flatMap, List.map_map]
  rfl

/-- The `refs` are all different. -/
theorem nodup_refs (m : ByRef α) : m.refs.Nodup := by
  -- Within a kind the ids tell references apart.
  have hkind (k : Kind) :
      (((m.get k).entries.map fun e => (ObjectRef.mk k e.1, e.2)).map (·.1)).Nodup := by
    rw [List.map_map]
    refine List.pairwise_map.2 ((m.get k).entries_pairwise_ne.imp fun hne heq => hne ?_)
    exact congrArg ObjectRef.id heq
  simp only [refs, toList, Kind.all, List.flatMap_cons, List.flatMap_nil, List.append_nil,
    List.map_append]
  -- References of two kinds differ in the kind.
  have hdisjoint {k l : Kind} (hkl : k ≠ l) {r : ObjectRef}
      (hr : r ∈ ((m.get k).entries.map fun e => (ObjectRef.mk k e.1, e.2)).map (·.1)) :
      r ∉ ((m.get l).entries.map fun e => (ObjectRef.mk l e.1, e.2)).map (·.1) := by
    simp only [List.map_map, List.mem_map, not_exists, not_and] at hr ⊢
    rintro e - rfl
    obtain ⟨e', -, heq⟩ := hr
    exact hkl (congrArg ObjectRef.kind heq)
  refine List.nodup_append.2 ⟨hkind _, List.nodup_append.2 ⟨hkind _, hkind _, ?_⟩, ?_⟩
  · rintro r hr q hq rfl
    exact hdisjoint (by decide) hr hq
  · rintro r hr q hq rfl
    rcases List.mem_append.1 hq with hq | hq
    · exact hdisjoint (by decide) hr hq
    · exact hdisjoint (by decide) hr hq

/-- The part of `toList` that belongs to one kind is the `entries` of that kind. -/
theorem filter_kind_toList (m : ByRef α) (k : Kind) :
    m.toList.filter (fun e => e.1.kind = k) =
      (m.get k).entries.map fun e => (⟨k, e.1⟩, e.2) := by
  have hkind (l : Kind) :
      ((m.get l).entries.map fun e => (ObjectRef.mk l e.1, e.2)).filter (fun e => e.1.kind = k) =
        if l = k then (m.get l).entries.map fun e => (ObjectRef.mk l e.1, e.2) else [] := by
    by_cases hk : l = k <;> simp [List.filter_map, Function.comp_def, hk]
  simp only [toList, List.filter_flatMap, hkind]
  cases k <;> simp [Kind.all]

/-- No two entries of `toList` have one reference. -/
theorem nodup_toList (m : ByRef α) : (m.toList.map (·.1)).Nodup := m.nodup_refs

/-- There are as many `refs` as `size` counts. -/
theorem length_refs (m : ByRef α) : m.refs.length = m.size := by
  simp only [refs, toList, Kind.all, List.flatMap_cons, List.flatMap_nil, List.append_nil,
    List.length_map, List.length_append]
  exact (Nat.add_assoc ..).symm

/-- The `refs` are those that the map `contains`. -/
theorem mem_refs {m : ByRef α} {r : ObjectRef} : r ∈ m.refs ↔ m.contains r = true := by
  rw [contains, Option.isSome_iff_exists, refs, List.mem_map]
  constructor
  · rintro ⟨⟨q, a⟩, he, rfl⟩
    exact ⟨a, mem_toList.1 he⟩
  · rintro ⟨a, ha⟩
    exact ⟨(r, a), mem_toList.2 ha, rfl⟩

/-- `toList` has at most one entry for a reference: what `get?` finds. -/
theorem filter_toList (m : ByRef α) (r : ObjectRef) :
    m.toList.filter (fun e => e.1 = r) = ((m.get? r).map (r, ·)).toList := by
  cases hget : m.get? r with
  | none =>
    refine List.filter_eq_nil_iff.2 fun e he heq => ?_
    obtain rfl := of_decide_eq_true heq
    cases hget.symm.trans (mem_toList.1 he)
  | some a =>
    obtain ⟨before, after, hsplit⟩ := List.append_of_mem (mem_toList.2 hget)
    have hnodup := m.nodup_toList
    rw [hsplit, List.map_append, List.map_cons, List.nodup_append, List.nodup_cons] at hnodup
    obtain ⟨-, ⟨hafter, -⟩, hbefore⟩ := hnodup
    -- Nothing before it and nothing after it has the same reference.
    have hnone {l : List (ObjectRef × α)} (hl : r ∉ l.map (·.1)) :
        l.filter (fun e => e.1 = r) = [] := by
      refine List.filter_eq_nil_iff.2 fun e he heq => hl ?_
      exact List.mem_map.2 ⟨e, he, of_decide_eq_true heq⟩
    rw [hsplit, List.filter_append, List.filter_cons_of_pos (by simp), hnone hafter, hnone]
    · rfl
    · intro hr
      exact hbefore r hr r List.mem_cons_self rfl

/-! ## Filing -/

/-- `m.fileAll l` files the things of `l` in turn; of two with one reference the later stays. -/
def fileAll (m : ByRef α) (l : List (ObjectRef × α)) : ByRef α :=
  l.foldl (fun m e => m.insert e.1 e.2) m

theorem fileAll_cons (m : ByRef α) (e : ObjectRef × α) (l : List (ObjectRef × α)) :
    m.fileAll (e :: l) = (m.insert e.1 e.2).fileAll l := rfl

/-- What `fileAll` files hides what was there. -/
theorem get?_fileAll (m : ByRef α) (l : List (ObjectRef × α)) (r : ObjectRef) :
    (m.fileAll l).get? r = ((empty.fileAll l).get? r).or (m.get? r) := by
  induction l generalizing m with
  | nil => simp [fileAll]
  | cons e l ih =>
    -- The rest of the list is filed last, so it is asked first.
    rw [fileAll_cons, fileAll_cons, ih, ih (empty.insert e.1 e.2), Option.or_assoc, get?_insert,
      get?_insert]
    by_cases hr : r = e.1 <;> simp [hr]

theorem get?_fileAll_cons (e : ObjectRef × α) (l : List (ObjectRef × α)) (r : ObjectRef) :
    (empty.fileAll (e :: l)).get? r =
      ((empty.fileAll l).get? r).or (if r = e.1 then some e.2 else none) := by
  rw [fileAll_cons, get?_fileAll, get?_insert, get?_empty]

/-- What is found after `fileAll` is one of the things, under its reference. -/
theorem mem_of_get?_fileAll {l : List (ObjectRef × α)} {r : ObjectRef} {a : α}
    (h : (empty.fileAll l).get? r = some a) : (r, a) ∈ l := by
  induction l with
  | nil => simp [fileAll] at h
  | cons e l ih =>
    rw [get?_fileAll_cons, Option.or_eq_some_iff] at h
    -- What is filed later hides what was filed first.
    rcases h with h | ⟨-, h⟩
    · exact List.mem_cons_of_mem _ (ih h)
    · split at h
      · next hr =>
        cases h
        rw [hr]
        exact List.mem_cons_self
      · cases h

/-- After `fileAll` something is found under the reference of each of the things. -/
theorem isSome_get?_fileAll {l : List (ObjectRef × α)} {r : ObjectRef} :
    ((empty.fileAll l).get? r).isSome ↔ r ∈ l.map (·.1) := by
  induction l with
  | nil => simp [fileAll]
  | cons e l ih =>
    rw [get?_fileAll_cons, Option.isSome_or, Bool.or_eq_true, ih, List.map_cons, List.mem_cons,
      or_comm]
    by_cases hr : r = e.1 <;> simp [hr]

/-- After `fileAll` of things with different references each of them is found. -/
theorem get?_fileAll_of_nodup {l : List (ObjectRef × α)} (hl : (l.map (·.1)).Nodup) {r : ObjectRef}
    {a : α} : (empty.fileAll l).get? r = some a ↔ (r, a) ∈ l := by
  refine ⟨mem_of_get?_fileAll, fun h => ?_⟩
  obtain ⟨b, hb⟩ := Option.isSome_iff_exists.1 (isSome_get?_fileAll.2 (List.mem_map_of_mem h))
  have heq := List.inj_on_of_nodup_map hl (mem_of_get?_fileAll hb) h rfl
  rw [hb, (Prod.mk.inj heq).2]

/-- After `fileAll` none of the things hides another exactly if their references are different. -/
theorem size_fileAll_eq_length {l : List (ObjectRef × α)} :
    (empty.fileAll l).size = l.length ↔ (l.map (·.1)).Nodup := by
  -- What is filed has each of the references once.
  have hperm : (empty.fileAll l).refs.Perm (l.map (·.1)).dedup := by
    refine (List.perm_ext_iff_of_nodup (nodup_refs _) (List.nodup_dedup _)).2 fun r => ?_
    rw [mem_refs, contains, isSome_get?_fileAll, List.mem_dedup]
  rw [← length_refs, hperm.length_eq, ← List.dedup_eq_self]
  constructor
  · intro h
    exact (List.dedup_sublist _).eq_of_length (h.trans (List.length_map ..).symm)
  · intro h
    rw [h, List.length_map]

end ByRef

end Failover
