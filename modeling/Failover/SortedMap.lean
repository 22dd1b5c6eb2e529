/-! # Finite maps in key order

`SortedMap κ υ` is a list of key/value pairs whose keys increase strictly; the order is the one
that every listing, stored text and answer of this library shows. The view is `get?`, and the
bridge lemmas say what each operation does to it:

* `get?_empty`    nothing is found in the empty map
* `get?_insert`   an insertion is seen at its own key only
* `get?_erase`    an erasure is seen at its own key only
* `ext_get?`      two maps that answer alike are equal

Because the order is fixed, equality of maps is equality of what they hold. -/

namespace Failover

universe u v w

/-- A `SortedMap κ υ` is a finite map, held as the list of its entries in increasing order of their
keys. -/
structure SortedMap (κ : Type u) (υ : Type v) [Ord κ] where
  /-- The `entries` of the map, in key order. -/
  entries : List (κ × υ)
  /-- The keys of `entries` increase strictly. -/
  sorted : entries.Pairwise fun a b => compare a.1 b.1 = .lt

namespace SortedMap

variable {κ : Type u} {υ : Type v} {ω : Type w} [Ord κ]

instance [DecidableEq κ] [DecidableEq υ] : DecidableEq (SortedMap κ υ) := fun a b =>
  if h : a.entries = b.entries then
    isTrue (by cases a; cases b; cases h; rfl)
  else
    isFalse fun e => h (by rw [e])

/-! ## Operations on entry lists -/

/-- `lookup k l` is the value found under `k` in a list of entries. -/
def lookup (k : κ) : List (κ × υ) → Option υ
  | [] => none
  | (k', v) :: rest => if compare k k' = .eq then some v else lookup k rest

/-- `place k v l` puts `k` in its place in an ordered list of entries; an equal key is replaced. -/
def place (k : κ) (v : υ) : List (κ × υ) → List (κ × υ)
  | [] => [(k, v)]
  | (k', v') :: rest =>
    match compare k k' with
    | .lt => (k, v) :: (k', v') :: rest
    | .eq => (k, v) :: rest
    | .gt => (k', v') :: place k v rest

private theorem mem_place {k : κ} {v : υ} {l : List (κ × υ)} {e : κ × υ}
    (h : e ∈ place k v l) : e = (k, v) ∨ e ∈ l := by
  induction l with
  | nil => simpa [place] using h
  | cons a rest ih =>
    obtain ⟨k', v'⟩ := a
    simp only [place] at h
    -- The key comes before the first entry, is that of the first, or is placed further on.
    split at h
    · simpa using h
    · simp only [List.mem_cons] at h ⊢
      exact h.imp_right .inr
    · simp only [List.mem_cons] at h ⊢
      rcases h with h | h
      · exact .inr (.inl h)
      · exact (ih h).imp_right .inr

private theorem place_sorted [Std.TransOrd κ] (k : κ) (v : υ) {l : List (κ × υ)}
    (h : l.Pairwise fun a b => compare a.1 b.1 = .lt) :
    (place k v l).Pairwise fun a b => compare a.1 b.1 = .lt := by
  induction l with
  | nil => simp [place]
  | cons a rest ih =>
    obtain ⟨k', v'⟩ := a
    rw [List.pairwise_cons] at h
    simp only [place]
    split
    · -- The new entry goes before all others.
      next hlt =>
      refine List.Pairwise.cons (fun e he => ?_) (List.Pairwise.cons h.1 h.2)
      rcases List.mem_cons.1 he with rfl | he
      · exact hlt
      · exact Std.TransCmp.lt_trans hlt (h.1 e he)
    · next heq =>
      exact List.Pairwise.cons (fun e he => Std.TransCmp.lt_of_eq_of_lt heq (h.1 e he)) h.2
    · -- The new entry goes further back; the head stays below it.
      next hgt =>
      refine List.Pairwise.cons (fun e he => ?_) (ih h.2)
      rcases mem_place he with rfl | he
      · exact Std.OrientedCmp.lt_of_gt hgt
      · exact h.1 e he

/-! ## Operations -/

/-- The map without `entries`. -/
def empty : SortedMap κ υ := ⟨[], .nil⟩

instance : Inhabited (SortedMap κ υ) := ⟨empty⟩

/-- `m.get? k` is the value under the key `k`, if there is one. -/
def get? (m : SortedMap κ υ) (k : κ) : Option υ := lookup k m.entries

/-- Whether `get?` finds a value under a key. -/
def contains (m : SortedMap κ υ) (k : κ) : Bool := (m.get? k).isSome

/-- `m.insert k v` has `v` under `k`, in place of any earlier value. -/
def insert [Std.TransOrd κ] (m : SortedMap κ υ) (k : κ) (v : υ) : SortedMap κ υ :=
  ⟨place k v m.entries, place_sorted k v m.sorted⟩

/-- `m.erase k` is `m` without the entry of `k`. -/
def erase (m : SortedMap κ υ) (k : κ) : SortedMap κ υ :=
  ⟨m.entries.filter fun e => compare k e.1 != .eq, m.sorted.filter _⟩

/-- `m.filter p` keeps the entries that satisfy the test `p`. -/
def filter (m : SortedMap κ υ) (p : κ → υ → Bool) : SortedMap κ υ :=
  ⟨m.entries.filter fun e => p e.1 e.2, m.sorted.filter _⟩

/-- `m.map f` replaces every value by its image under `f`. -/
def map (m : SortedMap κ υ) (f : κ → υ → ω) : SortedMap κ ω :=
  ⟨m.entries.map fun e => (e.1, f e.1 e.2), List.pairwise_map.2 m.sorted⟩

/-- The keys of `m.entries`, in order. -/
def keys (m : SortedMap κ υ) : List κ := m.entries.map (·.1)

/-- The values of `m.entries`, in the order of their keys. -/
def values (m : SortedMap κ υ) : List υ := m.entries.map (·.2)

/-- The number of `entries`. -/
def size (m : SortedMap κ υ) : Nat := m.entries.length

/-- Whether there is none among the `entries`. -/
def isEmpty (m : SortedMap κ υ) : Bool := m.entries.isEmpty

/-- `m.insertAll l` adds the entries of `l` from left to right; of two with one key the later stays.
-/
def insertAll [Std.TransOrd κ] (m : SortedMap κ υ) (l : List (κ × υ)) : SortedMap κ υ :=
  l.foldl (fun m e => m.insert e.1 e.2) m

/-- `m.eraseAll ks` erases the keys `ks` in turn. -/
def eraseAll (m : SortedMap κ υ) (ks : List κ) : SortedMap κ υ := ks.foldl erase m

/-- `ofList l` is the map of a list of entries; of two with one key the later stays. -/
def ofList [Std.TransOrd κ] (l : List (κ × υ)) : SortedMap κ υ := empty.insertAll l

/-! ## Bridge lemmas -/

@[simp] theorem get?_empty (k : κ) : (empty : SortedMap κ υ).get? k = none := rfl

private theorem lookup_place [Std.TransOrd κ] [Std.LawfulEqOrd κ] [DecidableEq κ]
    (k : κ) (v : υ) (l : List (κ × υ)) (q : κ) :
    lookup q (place k v l) = if q = k then some v else lookup q l := by
  induction l with
  | nil => simp [place, lookup, Std.LawfulEqCmp.compare_eq_iff_eq]
  | cons a rest ih =>
    obtain ⟨k', v'⟩ := a
    simp only [place]
    split
    · simp [lookup, Std.LawfulEqCmp.compare_eq_iff_eq]
    · -- The entry of `k` is the one replaced.
      next heq =>
      have := Std.LawfulEqCmp.compare_eq_iff_eq.1 heq
      subst this
      by_cases hq : q = k <;> simp [lookup, Std.LawfulEqCmp.compare_eq_iff_eq, hq]
    · -- Beyond the head the induction hypothesis decides, unless `q` is the head's own key.
      next hgt =>
      have hne : k' ≠ k := by
        intro e
        subst e
        simp [Std.ReflCmp.compare_self] at hgt
      by_cases hq : q = k'
      · simp [lookup, hq, hne]
      · simp [lookup, Std.LawfulEqCmp.compare_eq_iff_eq, hq, ih]

@[simp] theorem get?_insert [Std.TransOrd κ] [Std.LawfulEqOrd κ] [DecidableEq κ]
    (m : SortedMap κ υ) (k : κ) (v : υ) (q : κ) :
    (m.insert k v).get? q = if q = k then some v else m.get? q :=
  lookup_place k v m.entries q

@[simp] theorem get?_erase [Std.LawfulEqOrd κ] [DecidableEq κ]
    (m : SortedMap κ υ) (k q : κ) :
    (m.erase k).get? q = if q = k then none else m.get? q := by
  obtain ⟨l, hl⟩ := m
  simp only [erase, get?]
  clear hl
  induction l with
  | nil => simp [lookup]
  | cons a rest ih =>
    obtain ⟨k', v'⟩ := a
    -- The head is dropped exactly if its key is `k`.
    by_cases hk : k = k'
    · subst hk
      by_cases hq : q = k <;>
        simp [lookup, Std.LawfulEqCmp.compare_eq_iff_eq, hq] <;> simpa [hq] using ih
    · by_cases hq : q = k'
      · have : ¬ k' = k := fun e => hk e.symm
        simp [lookup, Std.LawfulEqCmp.compare_eq_iff_eq, hk, hq, this]
      · simp [lookup, Std.LawfulEqCmp.compare_eq_iff_eq, hk, hq, ih]

private theorem lookup_eq_none_of_lt [Std.LawfulEqOrd κ] {k : κ} {l : List (κ × υ)}
    (h : ∀ e ∈ l, compare k e.1 = .lt) : lookup k l = none := by
  induction l with
  | nil => rfl
  | cons a rest ih =>
    have ha := h a (by simp)
    simp [lookup, ha, ih fun e he => h e (by simp [he])]

/-- Maps are equal if `get?` answers alike at every key. -/
theorem ext_get? [Std.TransOrd κ] [Std.LawfulEqOrd κ] {a b : SortedMap κ υ}
    (h : ∀ k, a.get? k = b.get? k) : a = b := by
  obtain ⟨l, hl⟩ := a
  obtain ⟨r, hr⟩ := b
  simp only [get?] at h
  suffices l = r by subst this; rfl
  induction l generalizing r with
  | nil =>
    cases r with
    | nil => rfl
    | cons b rest => simpa [lookup] using h b.1
  | cons a rest ih =>
    cases r with
    | nil => simpa [lookup] using h a.1
    | cons b rest' =>
      obtain ⟨ka, va⟩ := a
      obtain ⟨kb, vb⟩ := b
      rw [List.pairwise_cons] at hl hr
      -- The heads have one key: the map with the smaller one would find it, and the other would
      -- not.
      have hk : ka = kb := by
        cases hc : compare ka kb with
        | eq => exact Std.LawfulEqCmp.compare_eq_iff_eq.1 hc
        | lt =>
          have := h ka
          rw [lookup_eq_none_of_lt (l := (kb, vb) :: rest')] at this
          · simp [lookup] at this
          · intro e he
            rcases List.mem_cons.1 he with rfl | he
            · exact hc
            · exact Std.TransCmp.lt_trans hc (hr.1 e he)
        | gt =>
          have hc := Std.OrientedCmp.lt_of_gt hc
          have := h kb
          rw [lookup_eq_none_of_lt (l := (ka, va) :: rest)] at this
          · simp [lookup] at this
          · intro e he
            rcases List.mem_cons.1 he with rfl | he
            · exact hc
            · exact Std.TransCmp.lt_trans hc (hl.1 e he)
      subst hk
      -- At that key both find their heads' values.
      have hv : va = vb := by simpa [lookup] using h ka
      subst hv
      congr 1
      -- The tails answer alike as well: neither has the key of the heads again.
      refine ih hl.2 rest' hr.2 fun q => ?_
      by_cases hq : q = ka
      · subst hq
        rw [lookup_eq_none_of_lt hl.1, lookup_eq_none_of_lt hr.1]
      · simpa [lookup, Std.LawfulEqCmp.compare_eq_iff_eq, hq] using h q

/-! ## Maps from lists -/

@[simp] theorem insertAll_nil [Std.TransOrd κ] (m : SortedMap κ υ) : m.insertAll [] = m := rfl

@[simp] theorem insertAll_cons [Std.TransOrd κ] (m : SortedMap κ υ) (e : κ × υ)
    (l : List (κ × υ)) : m.insertAll (e :: l) = (m.insert e.1 e.2).insertAll l := rfl

/-- `insertAll` overlays a map with entries whose keys increase. -/
theorem get?_insertAll_of_sorted [Std.TransOrd κ] [Std.LawfulEqOrd κ] [DecidableEq κ]
    (m : SortedMap κ υ) {l : List (κ × υ)} (h : l.Pairwise fun a b => compare a.1 b.1 = .lt)
    (q : κ) : (m.insertAll l).get? q = (lookup q l).or (m.get? q) := by
  induction l generalizing m with
  | nil => simp [lookup]
  | cons e rest ih =>
    rw [List.pairwise_cons] at h
    rw [insertAll_cons, ih _ h.2, get?_insert]
    by_cases hq : q = e.1
    · subst hq
      simp [lookup, lookup_eq_none_of_lt h.1]
    · simp [lookup, Std.LawfulEqCmp.compare_eq_iff_eq, hq]

/-- `ofList` rebuilds a map from its own `entries`. -/
@[simp] theorem ofList_entries [Std.TransOrd κ] [Std.LawfulEqOrd κ] [DecidableEq κ]
    (m : SortedMap κ υ) : ofList m.entries = m :=
  ext_get? fun q => by
    rw [ofList, get?_insertAll_of_sorted _ m.sorted, get?_empty, Option.or_none]
    rfl

/-- Every entry after `insert` is the one inserted or was there before. -/
theorem mem_insert [Std.TransOrd κ] {m : SortedMap κ υ} {k : κ} {v : υ} {e : κ × υ}
    (h : e ∈ (m.insert k v).entries) : e = (k, v) ∨ e ∈ m.entries :=
  mem_place h

/-- Every entry after `insertAll` is one of the list or was there before. -/
theorem mem_insertAll [Std.TransOrd κ] {m : SortedMap κ υ} {l : List (κ × υ)} {e : κ × υ}
    (h : e ∈ (m.insertAll l).entries) : e ∈ l ∨ e ∈ m.entries := by
  induction l generalizing m with
  | nil => exact .inr h
  | cons a rest ih =>
    rcases ih h with h | h
    · exact .inl (List.mem_cons_of_mem _ h)
    · rcases mem_insert h with rfl | h
      · exact .inl (by simp)
      · exact .inr h

end SortedMap

end Failover
