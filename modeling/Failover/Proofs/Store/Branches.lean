import Failover.Proofs.Store.Apart
import Failover.Store.Files

/-!
# Branches of a directory tree

A sub-path is a branch of the tree in which a store keeps its files: the entry of that name at the
root, with all below it. Whatever stands in the tree, an operation on one branch leaves the others
as they are, and how it ends depends on its own branch only, once the root is there.

## Key results

- `FileTree.SameBranch.find_eq`, `FileTree.SameBranch.filesIn_eq`: what is found in a branch
- `FileTree.SameBranch.put`, `FileTree.SameBranch.deleteFile`: what is done in a branch
- `FileTree.get?_entries_put`, `FileTree.get?_entries_deleteFile`: what is done in another
- `Files.keepsApart`: a store in files keeps its sub-paths apart
-/

namespace Failover

namespace FileTree

/-- The trees `t` and `u` have the same branch `s`: their roots are there and alike, and so is all
below `s`. -/
structure SameBranch (s : String) (t u : FileTree) : Prop where
  isSome_root : (t.entries.get? []).isSome
  root : t.entries.get? [] = u.entries.get? []
  below : ∀ rest, t.entries.get? (s :: rest) = u.entries.get? (s :: rest)

variable {s : String} {t u : FileTree}

/-! ## Other branches -/

/-- `makeBelow` changes nothing but what lies at or below the first directory. -/
private theorem get?_entries_makeBelow (t : FileTree) (dir names : List String) {q : List String}
    (hq : ¬dir <+: q) : (t.makeBelow dir names).2.entries.get? q = t.entries.get? q := by
  -- By induction on the names that are still to come; each goes on below the directory before it.
  induction names generalizing t dir with
  | nil =>
    rw [makeBelow]
    split
    · rfl
    · rfl
    · rw [SortedMap.get?_insert, if_neg]
      rintro rfl
      exact hq (List.prefix_refl _)
  | cons name names ih =>
    have hdeeper : ¬dir ++ [name] <+: q := fun h => hq ((List.prefix_append _ _).trans h)
    have hne : q ≠ dir := by
      rintro rfl
      exact hq (List.prefix_refl _)
    rw [makeBelow]
    split
    · rfl
    · split
      · rfl
      · exact ih t _ hdeeper
    · split
      · rw [SortedMap.get?_insert, if_neg hne]
      · rw [ih _ _ hdeeper, SortedMap.get?_insert, if_neg hne]

/-- Where the root is there, `makeDirectories` changes only the branch of the first name. -/
private theorem get?_entries_makeDirectories (hroot : (t.entries.get? []).isSome) (name : String)
    (names : List String) {q : List String} (hq : ¬[name] <+: q) :
    (t.makeDirectories (name :: names)).2.entries.get? q = t.entries.get? q := by
  rw [makeDirectories]
  split
  · rfl
  · rw [makeBelow, entry?]
    split
    · rfl
    · split
      · rfl
      · exact get?_entries_makeBelow t _ names hq
    · -- Without a root, one would be created, and that lies in every branch.
      next hnone =>
      rw [hnone] at hroot
      cases hroot

/-- `writeFile` changes the entry of its path only. -/
private theorem get?_entries_writeFile (t : FileTree) {path q : List String} (hq : q ≠ path)
    (change : Option FileEntry → Option String) :
    (t.writeFile path change).2.entries.get? q = t.entries.get? q := by
  rw [writeFile]
  split
  · rfl
  · rw [SortedMap.get?_insert, if_neg hq]
  · rw [SortedMap.get?_insert, if_neg hq]
  · rfl

/-- `Files.put` changes only the branch of the first name of its path. -/
theorem get?_entries_put (hroot : (t.entries.get? []).isSome) (name : String) {names : List String}
    (hnames : names ≠ []) (text : String) {q : List String} (hq : ¬[name] <+: q) :
    (Files.put t (name :: names) text).2.entries.get? q = t.entries.get? q := by
  have hmade := get?_entries_makeDirectories hroot name names.dropLast hq
  -- The file itself lies in the branch `name`, and so do the directories on its way.
  have hne : q ≠ name :: names := by
    rintro rfl
    exact hq (List.prefix_append [name] names)
  rw [Files.put, List.dropLast_cons_of_ne_nil hnames]
  cases hmake : t.makeDirectories (name :: names.dropLast) with
  | mk r v =>
    rw [hmake] at hmade
    cases r with
    | error e => exact hmade
    | ok =>
      dsimp only
      split
      · exact hmade
      · rw [get?_entries_writeFile v hne]
        exact hmade

/-- `deleteFile` changes the entry of its path only. -/
theorem get?_entries_deleteFile (t : FileTree) {path q : List String} (hq : q ≠ path) :
    (t.deleteFile path).2.entries.get? q = t.entries.get? q := by
  rw [deleteFile]
  split
  · rfl
  · rw [SortedMap.get?_erase, if_neg hq]
  · rfl
  · rfl

/-! ## The same branch -/

namespace SameBranch

theorem symm (h : SameBranch s t u) : SameBranch s u t :=
  ⟨h.root ▸ h.isSome_root, h.root.symm, fun rest => (h.below rest).symm⟩

theorem trans {v : FileTree} (h : SameBranch s t u) (h' : SameBranch s u v) : SameBranch s t v :=
  ⟨h.isSome_root, h.root.trans h'.root, fun rest => (h.below rest).trans (h'.below rest)⟩

/-- A tree that differs only in the branch of another name has the `SameBranch`. -/
theorem of_elsewhere (hroot : (t.entries.get? []).isSome) {name : String} (hne : s ≠ name)
    (h : ∀ q, ¬[name] <+: q → u.entries.get? q = t.entries.get? q) : SameBranch s t u := by
  refine ⟨hroot, (h [] (by simp)).symm, fun rest => (h _ ?_).symm⟩
  rw [List.cons_prefix_cons]
  exact fun h => hne h.1.symm

/-- A `walk` that has got into the branch `s` meets the same entries in both trees. -/
private theorem walk_eq (h : SameBranch s t u) (dir names : List String) :
    t.walk (s :: dir) names = u.walk (s :: dir) names := by
  -- On the names that are left. The directory grows, so the walk is about any below the branch.
  induction names generalizing dir with
  | nil => rw [walk, walk, entry?, entry?, h.below]
  | cons name names ih =>
    rw [walk, walk, entry?, entry?, h.below]
    have hrest := ih (dir ++ [name])
    simp only [List.cons_append] at hrest ⊢
    rw [hrest]

/-- `find` of a path that starts with `s` ends alike in trees with the `SameBranch`. -/
theorem find_eq (h : SameBranch s t u) (names : List String) :
    t.find (s :: names) = u.find (s :: names) := by
  have hwalk := h.walk_eq [] names
  rw [find, find, walk, walk, entry?, entry?, h.root, List.nil_append, hwalk]

/-- `filesIn` of the sub-path `s` is the same in trees with the `SameBranch`. -/
theorem filesIn_eq (h : SameBranch s t u) : t.filesIn [s] = u.filesIn [s] := by
  refine SortedMap.filterMap_entries_congr (P := fun path => ∃ rest, path = s :: rest) ?_ ?_
  · rintro _ ⟨rest, rfl⟩
    exact h.below rest
  · rintro ⟨path, e⟩ hpath
    cases e with
    | directory => rfl
    | file contents =>
      -- An entry outside the branch does not lie in its directory.
      refine if_neg fun ⟨hdir, hne⟩ => hpath ⟨[path.getLast hne], ?_⟩
      have hsplit := List.dropLast_append_getLast hne
      rw [hdir] at hsplit
      exact hsplit.symm

/-- An `insert` at a path of the branch leaves the branches alike. -/
private theorem insert (h : SameBranch s t u) (dir : List String) (e : FileEntry) :
    SameBranch s ⟨t.entries.insert (s :: dir) e⟩ ⟨u.entries.insert (s :: dir) e⟩ where
  isSome_root := by
    rw [SortedMap.get?_insert, if_neg (by simp)]
    exact h.isSome_root
  root := by
    rw [SortedMap.get?_insert, SortedMap.get?_insert, if_neg (by simp), if_neg (by simp)]
    exact h.root
  below rest := by rw [SortedMap.get?_insert, SortedMap.get?_insert, h.below]

/-- The operations `f` and `g` end alike and leave trees with the `SameBranch`. -/
private abbrev Alike (s : String) (f g : Except IoError Unit × FileTree) : Prop :=
  f.1 = g.1 ∧ SameBranch s f.2 g.2

/-- `makeBelow` in the branch ends alike and creates the same. -/
private theorem makeBelow (h : SameBranch s t u) (dir names : List String) :
    Alike s (t.makeBelow (s :: dir) names) (u.makeBelow (s :: dir) names) := by
  induction names generalizing t u dir with
  | nil =>
    rw [FileTree.makeBelow, FileTree.makeBelow, entry?, entry?, h.below]
    cases u.entries.get? (s :: dir) with
    | none => exact ⟨rfl, h.insert dir _⟩
    | some e => cases e <;> exact ⟨rfl, h⟩
  | cons name names ih =>
    rw [FileTree.makeBelow, FileTree.makeBelow, entry?, entry?, h.below]
    -- What follows once this directory is there, whether it was or has just been created.
    have hdeeper {v w : FileTree} (hvw : SameBranch s v w) :
        Alike s (if maxName < name.utf8ByteSize then (.error .nameTooLong, v)
          else v.makeBelow (s :: dir ++ [name]) names)
          (if maxName < name.utf8ByteSize then (.error .nameTooLong, w)
          else w.makeBelow (s :: dir ++ [name]) names) := by
      split
      · exact ⟨rfl, hvw⟩
      · exact ih hvw _
    cases u.entries.get? (s :: dir) with
    | none => exact hdeeper (h.insert dir _)
    | some e =>
      cases e with
      | file contents => exact ⟨rfl, h⟩
      | directory => exact hdeeper h

/-- `makeDirectories` on a path of the branch ends alike and creates the same. -/
theorem makeDirectories (h : SameBranch s t u) (names : List String) :
    Alike s (t.makeDirectories (s :: names)) (u.makeDirectories (s :: names)) := by
  rw [FileTree.makeDirectories, FileTree.makeDirectories]
  cases checkPath (s :: names) with
  | error e => exact ⟨rfl, h⟩
  | ok =>
    -- The first step is at the root, which is not of the branch but alike in both trees.
    have hroot := h.isSome_root
    dsimp only
    rw [FileTree.makeBelow, FileTree.makeBelow, entry?, entry?, ← h.root]
    cases hentry : t.entries.get? [] with
    | none =>
      rw [hentry] at hroot
      cases hroot
    | some e =>
      cases e with
      | file contents => exact ⟨rfl, h⟩
      | directory =>
        dsimp only
        split
        · exact ⟨rfl, h⟩
        · exact h.makeBelow [] names

/-- `writeFile` on a path of the branch finds the same there, so it writes the same. -/
private theorem writeFile (h : SameBranch s t u) (names : List String)
    (change : Option FileEntry → Option String) :
    Alike s (t.writeFile (s :: names) change) (u.writeFile (s :: names) change) := by
  rw [FileTree.writeFile, FileTree.writeFile, h.find_eq]
  -- names) with :: Both trees find the same at the path, so either both write there or neither
  -- does.
  cases u.find (s :: names) with
  | ok e =>
    cases e with
    | directory => exact ⟨rfl, h⟩
    | file contents => exact ⟨rfl, h.insert names _⟩
  | error f =>
    cases f with
    | missing => exact ⟨rfl, h.insert names _⟩
    | io e => exact ⟨rfl, h⟩

/-- `Files.put` on a path of the branch ends alike and leaves the `SameBranch`. -/
theorem put (h : SameBranch s t u) {names : List String} (hnames : names ≠ []) (text : String) :
    Alike s (Files.put t (s :: names) text) (Files.put u (s :: names) text) := by
  rw [Files.put, Files.put, List.dropLast_cons_of_ne_nil hnames]
  obtain ⟨hanswer, hmade⟩ := h.makeDirectories names.dropLast
  cases ht : t.makeDirectories (s :: names.dropLast) with
  | mk r v =>
    cases hu : u.makeDirectories (s :: names.dropLast) with
    | mk r' v' =>
      rw [ht, hu] at hanswer hmade
      obtain rfl : r = r' := hanswer
      -- Once the directories are made alike, the rest looks at the path alone.
      cases r with
      | error e => exact ⟨rfl, hmade⟩
      | ok =>
        dsimp only
        split
        · exact ⟨rfl, hmade⟩
        · exact writeFile hmade names _

/-- `deleteFile` on a path of the branch ends alike and leaves the `SameBranch`. -/
theorem deleteFile (h : SameBranch s t u) (names : List String) :
    Alike s (t.deleteFile (s :: names)) (u.deleteFile (s :: names)) := by
  rw [FileTree.deleteFile, FileTree.deleteFile, h.find_eq]
  cases u.find (s :: names) with
  | ok e =>
    cases e with
    | directory => exact ⟨rfl, h⟩
    | file contents =>
      -- The path is below the root, and in the branch both trees lose the same entry.
      refine ⟨rfl, ?_, ?_, fun rest => ?_⟩
      · rw [SortedMap.get?_erase, if_neg (by simp)]
        exact h.isSome_root
      · rw [SortedMap.get?_erase, SortedMap.get?_erase, if_neg (by simp), if_neg (by simp)]
        exact h.root
      · rw [SortedMap.get?_erase, SortedMap.get?_erase, h.below]
  | error f => cases f <;> exact ⟨rfl, h⟩

end SameBranch

end FileTree

namespace Files

/-- `f` and `g` look the same from the sub-path `s`: their trees have the `SameBranch` for it, and
`handle` is prepared alike. -/
structure SameBelow (handle s : String) (f g : Files) : Prop where
  isPrepared : f.isPrepared handle = g.isPrepared handle
  tree : FileTree.SameBranch s f.tree g.tree

variable {handle s t : String} {f g : Files}

/-- `check` asks whether the handle is prepared and whether the path is valid, and so ends alike. -/
theorem SameBelow.check_eq (h : SameBelow handle s f g) (path : String) :
    f.check handle path = g.check handle path := by
  rw [check, check, h.isPrepared]

/-- The `segments` of an object begin with its sub-path, so that it lies in the branch of this. -/
private theorem segments_object {s : String} (hs : '/' ∉ s.toList) (name : String) :
    ∃ names, Path.segments (Path.object s name) = s :: names ∧ names ≠ [] := by
  refine ⟨Path.segments name, ?_, ?_⟩
  · rw [Path.segments_object, Path.segments_of_not_mem hs]
    rfl
  · exact fun h => Path.split_ne_nil _ (List.map_eq_nil_iff.1 h)

/-- A path outside the branch `t` is none that begins with `t`. -/
private theorem not_prefix_cons {t : String} {q names : List String} (hq : ¬[t] <+: q) :
    q ≠ t :: names := by
  rintro rfl
  exact hq (List.prefix_append [t] names)

/-- A call that `IsBelow` one sub-path leaves the branches of the others. -/
private theorem step_elsewhere (hs : '/' ∉ t.toList) (hst : s ≠ t) {c : Store.Call}
    (hc : c.IsBelow t) (hroot : (f.tree.entries.get? []).isSome = true) :
    SameBelow handle s f (step handle c f).2 := by
  have hsame : SameBelow handle s f f := ⟨rfl, .of_elsewhere hroot hst fun _ _ => rfl⟩
  cases hc with
  -- Only calls that change the tree are of interest, and all they touch begins with `t`.
  | createSubPath =>
    rw [step, Path.segments_of_not_mem hs]
    split
    · refine ⟨rfl, .of_elsewhere hroot hst fun q hq => ?_⟩
      exact FileTree.get?_entries_makeDirectories hroot t [] hq
    · exact hsame
  | list =>
    rw [step]
    split
    · exact hsame
    · exact hsame
  | openObject name => exact hsame
  | get name => exact hsame
  | put name text =>
    obtain ⟨names, hpath, hnames⟩ := segments_object hs name
    rw [step, hpath]
    refine ⟨rfl, .of_elsewhere hroot hst fun q hq => ?_⟩
    exact FileTree.get?_entries_put hroot t hnames text hq
  | delete name =>
    obtain ⟨names, hpath, -⟩ := segments_object hs name
    rw [step, hpath]
    refine ⟨rfl, .of_elsewhere hroot hst fun q hq => ?_⟩
    exact FileTree.get?_entries_deleteFile f.tree (not_prefix_cons hq)

/-- How a call that `IsBelow` the sub-path `s` ends, and what it does to the branch of it, depends
on that branch. -/
private theorem SameBelow.step (hs : '/' ∉ s.toList) {c : Store.Call} (hc : c.IsBelow s)
    (h : SameBelow handle s f g) :
    (Files.step handle c f).1 = (Files.step handle c g).1 ∧
      SameBelow handle s (Files.step handle c f).2 (Files.step handle c g).2 := by
  cases hc with
  -- Each call asks of the trees only what lies in the branch, where they are the same.
  | createSubPath =>
    rw [Files.step, Files.step, Path.segments_of_not_mem hs]
    split
    · obtain ⟨hanswer, htree⟩ := h.tree.makeDirectories []
      exact ⟨congrArg (Except.mapError StoreError.io) hanswer, h.isPrepared, htree⟩
    · exact ⟨rfl, h⟩
  | list =>
    rw [Files.step, Files.step, h.check_eq, Path.segments_of_not_mem hs]
    cases g.check handle _ with
    | error e => exact ⟨rfl, h⟩
    | ok =>
      refine ⟨congrArg (Except.mapError StoreError.io) ?_, h⟩
      rw [names, names, h.tree.find_eq, h.tree.filesIn_eq]
  | openObject name => exact ⟨h.check_eq _, h⟩
  | get name =>
    obtain ⟨names, hpath, -⟩ := segments_object hs name
    rw [Files.step, Files.step, hpath]
    refine ⟨congrArg (Except.mapError StoreError.io) ?_, h⟩
    rw [FileTree.readFile, FileTree.readFile, h.tree.find_eq]
  | put name text =>
    obtain ⟨names, hpath, hnames⟩ := segments_object hs name
    rw [Files.step, Files.step, hpath]
    obtain ⟨hanswer, htree⟩ := h.tree.put hnames text
    exact ⟨congrArg (Except.mapError StoreError.io) hanswer, h.isPrepared, htree⟩
  | delete name =>
    obtain ⟨names, hpath, -⟩ := segments_object hs name
    rw [Files.step, Files.step, hpath]
    obtain ⟨hanswer, htree⟩ := h.tree.deleteFile names
    exact ⟨congrArg (Except.mapError StoreError.io) hanswer, h.isPrepared, htree⟩

/-- A store in files `KeepsApart` its sub-paths, as long as its root is there. -/
theorem keepsApart (handle : String) : (store handle).KeepsApart (SameBelow handle) where
  symm h := ⟨h.isPrepared.symm, h.tree.symm⟩
  trans h h' := ⟨h.isPrepared.trans h'.isPrepared, h.tree.trans h'.tree⟩
  elsewhere _ ht hst _ hc _ hf := step_elsewhere ht hst hc hf.tree.isSome_root
  inStep := by
    rintro s hs _ rfl c hc f g h
    exact h.step hs hc

end Files

end Failover
