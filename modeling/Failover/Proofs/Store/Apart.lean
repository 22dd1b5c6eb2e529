import Failover.Proofs.Store.Memory
import Failover.Proofs.Store.InStep

/-!
# Sub-paths do not disturb each other

What is stored below one sub-path is not seen from another: the path of an object tells its
sub-path, whatever its name is made of. So a call about one sub-path leaves all others as they are,
and is answered by what is below its own.

## Key results

- `Path.segments_of_isValid_object`: an object with a valid path stays below its sub-path
- `Memory.keepsApart`, `ObjectStore.Mirrors.keepsApart`: a memory keeps its sub-paths apart, and so
  does a store that mirrors one
- `ObjectStore.KeepsApart.trans_elsewhere`: what a call about another sub-path leaves
-/

namespace Failover

variable {σ : Type}

/-! ## Paths -/

namespace Path

/-- `split` gives at least one segment. -/
theorem split_ne_nil (cs : List Char) : split cs ≠ [] := by
  induction cs with
  | nil => simp [split]
  | cons c cs ih =>
    rw [split]
    split
    · exact List.cons_ne_nil _ _
    · split
      · exact List.cons_ne_nil _ _
      · exact List.cons_ne_nil _ _

/-- An `object` with a valid path stays below its sub-path: none of its segments leads up or
nowhere. -/
theorem segments_of_isValid_object {s name : String} (hs : '/' ∉ s.toList)
    (h : isValid (object s name) = true) : (segments (object s name)).head? = some s ∧
      ∀ seg ∈ segments (object s name), seg ≠ "" ∧ seg ≠ "." ∧ seg ≠ ".." := by
  constructor
  · rw [segments_object, segments_of_not_mem hs]
    rfl
  · intro seg hseg
    obtain ⟨cs, hcs, rfl⟩ := List.mem_map.1 hseg
    rw [isValid, Bool.and_eq_true, List.all_eq_true] at h
    have hsegment := h.2 cs hcs
    simp only [isSegment, Bool.and_eq_true, Bool.not_eq_true', List.isEmpty_eq_false_iff,
      decide_eq_true_eq] at hsegment
    obtain ⟨hne, hhead⟩ := hsegment
    -- Each of the three is empty or starts with a dot.
    refine ⟨?_, ?_, ?_⟩
    · rintro heq
      exact hne (by simpa using congrArg String.toList heq)
    · rintro heq
      exact hhead (by simp [show cs = ['.'] by simpa using congrArg String.toList heq])
    · rintro heq
      exact hhead (by simp [show cs = ['.', '.'] by simpa using congrArg String.toList heq])

end Path

/-! ## Stores -/

/-- A store `KeepsApart` its sub-paths; `Same s` relates states that look the same from the sub-path
`s`, and itself if it is in order. -/
structure ObjectStore.KeepsApart (S : ObjectStore σ) (Same : String → σ → σ → Prop) : Prop where
  symm : ∀ {s a b}, Same s a b → Same s b a
  trans : ∀ {s a b c}, Same s a b → Same s b c → Same s a c
  /-- A call about one sub-path does not show at another. -/
  elsewhere : ∀ {s t : String}, '/' ∉ s.toList → '/' ∉ t.toList → s ≠ t → ∀ {c : Store.Call},
    c.IsBelow t → ∀ {a}, Same s a a → Same s a (S.step c a).2
  /-- A call is answered by what shows at its own sub-path. -/
  inStep : ∀ {s : String}, '/' ∉ s.toList → S.InStepBelow S (· = s) (Same s)

/-! ## Memories -/

namespace Memory

/-- `SameBelow s` relates memories that look the same from the sub-path `s`: the same objects are
below it. -/
structure SameBelow (s : String) (m n : Memory) : Prop where
  isPrepared : m.isPrepared = n.isPrepared
  files : ∀ name, m.files.get? (Path.object s name) = n.files.get? (Path.object s name)

variable {s t : String} {m n : Memory}

/-- `SameBelow` says that the same paths can be opened. -/
theorem SameBelow.check_eq (h : SameBelow s m n) (path : String) : m.check path = n.check path := by
  rw [check, check, h.isPrepared]

/-- `SameBelow` says that the same names are listed. -/
theorem SameBelow.namesUnder_eq (h : SameBelow s m n) : m.namesUnder s = n.namesUnder s := by
  rw [namesUnder, namesUnder, SortedMap.keys, SortedMap.keys, List.filterMap_map,
    List.filterMap_map]
  refine SortedMap.filterMap_entries_congr
    (P := fun path => ∃ name, path = Path.object s name) ?_ ?_
  · rintro _ ⟨name, rfl⟩
    exact h.files name
  · intro e he
    rw [Function.comp_apply, Option.eq_none_iff_forall_ne_some]
    exact fun name hname => he ⟨name, (Path.nameUnder?_eq_some.1 hname).1⟩

/-- To `put` an object below another sub-path does not show. -/
theorem SameBelow.put (hs : '/' ∉ s.toList) (ht : '/' ∉ t.toList) (hst : s ≠ t)
    (name text : String) : SameBelow s m (m.put (Path.object t name) text) where
  isPrepared := rfl
  files q := by
    have hne : Path.object s q ≠ Path.object t name := fun heq =>
      hst ((Path.object_eq_object hs ht).1 heq).1
    rw [get?_files_put, if_neg hne]

/-- To `drop` an object below another sub-path does not show. -/
theorem SameBelow.drop (hs : '/' ∉ s.toList) (ht : '/' ∉ t.toList) (hst : s ≠ t)
    (name : String) : SameBelow s m (m.drop (Path.object t name)) where
  isPrepared := rfl
  files q := by
    have hne : Path.object s q ≠ Path.object t name := fun heq =>
      hst ((Path.object_eq_object hs ht).1 heq).1
    rw [get?_files_drop, if_neg hne]

/-- A `Memory` keeps its sub-paths apart. -/
theorem keepsApart : store.KeepsApart SameBelow where
  symm h := ⟨h.isPrepared.symm, fun name => (h.files name).symm⟩
  trans h h' := ⟨h.isPrepared.trans h'.isPrepared, fun name => (h.files name).trans (h'.files name)⟩
  elsewhere hs ht hst c hc a ha := by
    -- Only two calls change anything, and they do so below the other sub-path.
    cases hc with
    | put name text => exact .put hs ht hst name text
    | delete name => exact .drop hs ht hst name
    | createSubPath | list | openObject | get => exact ha
  inStep := by
    rintro s hs _ rfl c hc m n h
    cases hc with
    | createSubPath => exact ⟨rfl, h⟩
    | list =>
      refine ⟨?_, h⟩
      show (m.check _).map (fun _ => m.namesUnder _) = (n.check _).map fun _ => n.namesUnder _
      rw [h.check_eq, h.namesUnder_eq]
    | openObject name => exact ⟨h.check_eq _, h⟩
    | get name => exact ⟨congrArg Except.ok (h.files name), h⟩
    | put name text =>
      refine ⟨rfl, h.isPrepared, fun q => ?_⟩
      show (m.put _ _).files.get? _ = (n.put _ _).files.get? _
      rw [get?_files_put, get?_files_put, h.files]
    | delete name =>
      refine ⟨rfl, h.isPrepared, fun q => ?_⟩
      show (m.drop _).files.get? _ = (n.drop _).files.get? _
      rw [get?_files_drop, get?_files_drop, h.files]

end Memory

/-- A store that `Mirrors` a memory keeps apart what the memory does. -/
theorem ObjectStore.Mirrors.keepsApart {S : ObjectStore σ} {held : σ → Memory}
    (hS : S.Mirrors held) : S.KeepsApart fun s a b => Memory.SameBelow s (held a) (held b) where
  symm := Memory.keepsApart.symm
  trans := Memory.keepsApart.trans
  elsewhere hs ht hst c hc a ha := by
    -- A call does to what is held what it does to the memory.
    have hheld : held (S.step c a).2 = (Memory.step c (held a)).2 := (hS c a _ rfl).2
    rw [hheld]
    exact Memory.keepsApart.elsewhere hs ht hst hc ha
  inStep := by
    rintro s hs _ rfl c hc a b hab
    -- Both stores answer as the memories that they hold, and these are alike below `s`.
    obtain ⟨hanswer, hnext⟩ := Memory.keepsApart.inStep hs _ rfl c hc (held a) (held b) hab
    obtain ⟨ha, ha'⟩ := hS c a _ rfl
    obtain ⟨hb, hb'⟩ := hS c b _ rfl
    refine ⟨ha.trans (hanswer.trans hb.symm), ?_⟩
    show Memory.SameBelow _ (held _) (held _)
    rw [ha', hb']
    exact hnext

end Failover
