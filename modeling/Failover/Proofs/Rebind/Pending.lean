import Failover.Proofs.Persistence.Writes
import Failover.Proofs.Rebind.Graph
import Failover.Proofs.Topology.Builder
import Failover.Rebind.Pending

/-!
# What is pending

Which objects are waiting to be written after a report, and after a failed flush has given back what
it had taken; and what the delta of a pending set lists. Of an object that has changed that is what
the graph has of it, and of one that has been removed its removal, whatever the graph has.

## Key results

- `Pending.mentions_note`, `Pending.mentions_requeue`: what is pending after a report, and after a
  failed flush
- `Pending.lists_delta`: the delta lists the objects that are pending
- `Pending.isWanted_delta`: what the delta lists of them
-/

namespace Failover

/-! ## Sets of objects -/

namespace ByRef

variable {α : Type} {m : ByRef α} {r q : ObjectRef}

/-- What a set `contains` after `insert`. -/
theorem contains_insert {a : α} :
    (m.insert r a).contains q = true ↔ q = r ∨ m.contains q = true := by
  rw [contains, contains, get?_insert]
  by_cases h : q = r <;> simp [h]

/-- What a set `contains` after `erase`. -/
theorem contains_erase : (m.erase r).contains q = true ↔ q ≠ r ∧ m.contains q = true := by
  rw [contains, contains, get?_erase]
  by_cases h : q = r <;> simp [h]

/-- A set that is empty `contains` nothing. -/
theorem contains_of_isEmpty (h : m.isEmpty = true) (r : ObjectRef) : m.contains r = false := by
  simp only [isEmpty, SortedMap.isEmpty, List.isEmpty_iff, Bool.and_eq_true] at h
  obtain ⟨⟨he, hl⟩, hp⟩ := h
  cases hr : r.kind <;>
    simp [contains, get?, PerKind.get, hr, SortedMap.get?, SortedMap.lookup, he, hl, hp]

/-- What a set `contains` after each of some objects was inserted, but for those that are barred. -/
theorem contains_foldl_insert {barred : ObjectRef → Bool} {rs : List ObjectRef} {m : ByRef Unit} :
    (rs.foldl (fun m r => if barred r then m else m.insert r ()) m).contains q = true ↔
      m.contains q = true ∨ q ∈ rs ∧ barred q = false := by
  induction rs generalizing m with
  | nil => simp
  | cons r rs ih =>
    rw [List.foldl_cons, ih, List.mem_cons]
    by_cases hr : barred r = true
    · rw [if_pos hr]
      -- An object that is barred is passed over, and so is not the one in question.
      have hne : barred q = false → q ≠ r := by
        rintro hq rfl
        exact Bool.noConfusion (hr.symm.trans hq)
      tauto
    · rw [if_neg hr, contains_insert]
      rw [Bool.not_eq_true] at hr
      constructor
      · rintro ((rfl | h) | h)
        · exact .inr ⟨.inl rfl, hr⟩
        · exact .inl h
        · exact .inr ⟨.inr h.1, h.2⟩
      · rintro (h | ⟨rfl | h, hq⟩)
        · exact .inl (.inr h)
        · exact .inl (.inl rfl)
        · exact .inr ⟨h, hq⟩

end ByRef

namespace Pending

variable {p failed : Pending} {r : ObjectRef} {c : Change}

/-- A change or a removal of an object is pending in `p`. -/
def Mentions (p : Pending) (r : ObjectRef) : Prop :=
  p.changed.contains r = true ∨ p.removed.contains r = true

/-! ## Reports and failed flushes -/

/-- A set for which `isEmpty` holds `Mentions` no object. -/
theorem not_mentions_of_isEmpty (h : p.isEmpty = true) (r : ObjectRef) : ¬p.Mentions r := by
  rw [isEmpty, Bool.and_eq_true] at h
  simp [Mentions, ByRef.contains_of_isEmpty h.1, ByRef.contains_of_isEmpty h.2]

/-- After `note` the object of the report is pending, and so is whatever `p` mentioned before. -/
theorem mentions_note : (p.note c).Mentions r ↔ r = c.ref ∨ p.Mentions r := by
  cases c with
  | changed q =>
    simp only [Mentions, note, Change.ref, ByRef.contains_insert, ByRef.contains_erase]
    by_cases hr : r = q <;> simp [hr]
  | removed q =>
    simp only [Mentions, note, Change.ref, ByRef.contains_insert, ByRef.contains_erase]
    by_cases hr : r = q <;> simp [hr]

/-- After `note` a removal is pending if it has just been reported, or still is. -/
theorem contains_removed_note (h : (p.note c).removed.contains r = true) :
    c = .removed r ∨ r ≠ c.ref ∧ p.removed.contains r = true := by
  cases c with
  | changed q => exact .inr (ByRef.contains_erase.1 h)
  | removed q =>
    obtain rfl | h := ByRef.contains_insert.1 h
    · exact .inl rfl
    · by_cases hr : r = q
      · exact .inl (by rw [hr])
      · exact .inr ⟨hr, h⟩

/-- After `note` a change is pending if it has just been reported, or still is. -/
theorem contains_changed_note (h : (p.note c).changed.contains r = true) :
    c = .changed r ∨ r ≠ c.ref ∧ p.changed.contains r = true := by
  cases c with
  | changed q =>
    obtain rfl | h := ByRef.contains_insert.1 h
    · exact .inl rfl
    · by_cases hr : r = q
      · exact .inl (by rw [hr])
      · exact .inr ⟨hr, h⟩
  | removed q => exact .inr (ByRef.contains_erase.1 h)

/-- `requeue` puts a change back unless a removal has been reported since. -/
theorem contains_changed_requeue : (p.requeue failed).changed.contains r = true ↔
    p.changed.contains r = true ∨
      failed.changed.contains r = true ∧ p.removed.contains r = false := by
  rw [← ByRef.mem_refs (m := failed.changed)]
  exact ByRef.contains_foldl_insert

/-- `requeue` puts a removal back unless a change is pending then. -/
theorem contains_removed_requeue : (p.requeue failed).removed.contains r = true ↔
    p.removed.contains r = true ∨
      failed.removed.contains r = true ∧ (p.requeue failed).changed.contains r = false := by
  rw [← ByRef.mem_refs (m := failed.removed)]
  exact ByRef.contains_foldl_insert

/-- What a failed flush had taken is pending again after `requeue`, along with all that has been
reported since. -/
theorem mentions_requeue : (p.requeue failed).Mentions r ↔ p.Mentions r ∨ failed.Mentions r := by
  simp only [Mentions, contains_removed_requeue, ← Bool.not_eq_true, contains_changed_requeue]
  tauto

/-- `requeue` puts only those removals back of whose object nothing else is pending. -/
theorem not_mentions_of_contains_removed (h : (p.requeue failed).removed.contains r = true)
    (hr : p.removed.contains r = false) : ¬p.Mentions r ∧ failed.removed.contains r = true := by
  obtain h | ⟨hfailed, hchanged⟩ := contains_removed_requeue.1 h
  · exact Bool.noConfusion (hr.symm.trans h)
  · rw [← Bool.not_eq_true, contains_changed_requeue, not_or] at hchanged
    refine ⟨fun hm => hm.elim hchanged.1 fun hm => ?_, hfailed⟩
    exact Bool.noConfusion (hr.symm.trans hm)

end Pending

/-! ## The delta of a pending set -/

namespace Pending

variable {p : Pending} {g : ManagedGraph} {r : ObjectRef}

/-- `changeOf` an object is a change of it. -/
private theorem ref_changeOf (hg : g.IsFiled) (r : ObjectRef) : (changeOf g r).ref = r := by
  rw [changeOf]
  cases ho : g.get? r with
  | none => rfl
  | some o => exact hg r o ho

/-- The last call for an object, by `last?`, is for one that is pending: its memento if the graph
has it, or its removal. -/
private theorem cases_of_last? (hg : g.IsFiled) {c : ObjectChange}
    (h : ObjectChange.last? (p.changed.refs.map (changeOf g) ++
      p.removed.refs.map .removed) r = some c) :
    p.changed.contains r = true ∧ c.memento? = (g.get? r).map (·.toMemento) ∨
      p.removed.contains r = true ∧ c.memento? = .none := by
  obtain ⟨hc, rfl⟩ := ObjectChange.mem_of_last? h
  rw [List.mem_append, List.mem_map, List.mem_map] at hc
  obtain ⟨q, hq, rfl⟩ | ⟨q, hq, rfl⟩ := hc
  · rw [ref_changeOf hg, changeOf]
    refine .inl ⟨ByRef.mem_refs.1 hq, ?_⟩
    cases g.get? q <;> rfl
  · exact .inr ⟨ByRef.mem_refs.1 hq, rfl⟩

/-- The `delta` lists what is wanted, if of what has changed that is what the graph has, and of what
has been removed nothing. -/
theorem isWanted_delta (hg : g.IsFiled) {want : ObjectRef → Option Memento}
    (hchanged : ∀ r, p.changed.contains r = true → want r = (g.get? r).map (·.toMemento))
    (hremoved : ∀ r, p.removed.contains r = true → want r = .none) : (p.delta g).IsWanted want := by
  have hwant {r : ObjectRef} {c : ObjectChange}
      (h : ObjectChange.last? (p.changed.refs.map (changeOf g) ++
        p.removed.refs.map .removed) r = some c) : want r = c.memento? := by
    obtain ⟨hr, hc⟩ | ⟨hr, hc⟩ := cases_of_last? hg h
    · exact (hchanged r hr).trans hc.symm
    · exact (hremoved r hr).trans hc.symm
  exact ⟨fun k x hx => hwant (Delta.mem_changed_ofChanges.1 hx).2,
    fun k id hid => hwant (Delta.mem_removed_ofChanges.1 hid)⟩

/-- The `delta` lists the objects that are pending. -/
theorem lists_delta (hg : g.IsFiled) : (p.delta g).Lists r ↔ p.Mentions r := by
  -- The calls are one for each object that has changed and one for each that was removed.
  have hchange : (∃ c ∈ p.changed.refs.map (changeOf g) ++ p.removed.refs.map .removed, c.ref = r) ↔
      p.Mentions r := by
    simp only [List.mem_append, List.mem_map, ByRef.mem_refs, Mentions]
    constructor
    · rintro ⟨_, ⟨q, hq, rfl⟩ | ⟨q, hq, rfl⟩, rfl⟩
      · rw [ref_changeOf hg]
        exact .inl hq
      · exact .inr hq
    · rintro (h | h)
      · exact ⟨_, .inl ⟨r, h, rfl⟩, ref_changeOf hg r⟩
      · exact ⟨_, .inr ⟨r, h, rfl⟩, rfl⟩
  rw [← hchange, ← ObjectChange.isSome_last?, Delta.Lists, delta]
  constructor
  · rintro (⟨x, hx, rfl⟩ | hr)
    · rw [(Delta.mem_changed_ofChanges.1 hx).2]
      rfl
    · rw [Delta.mem_removed_ofChanges.1 hr]
      rfl
  · intro h
    obtain ⟨c, hget⟩ := Option.isSome_iff_exists.1 h
    obtain ⟨-, href⟩ := ObjectChange.mem_of_last? hget
    cases c with
    | changed x =>
      obtain rfl : x.ref = r := href
      exact .inl ⟨x, Delta.mem_changed_ofChanges.2 ⟨rfl, hget⟩, rfl⟩
    | removed q =>
      obtain rfl : q = r := href
      exact .inr (Delta.mem_removed_ofChanges.2 hget)

end Pending

end Failover
