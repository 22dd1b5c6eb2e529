import Failover.Proofs.Store.Tree

/-!
# What can stand in a directory tree

Whatever stands in a directory tree stands in a directory. All that a store in files does keeps to
this. In such a tree the objects of a sub-path are the
regular files in its directory: to put one there adds its name to the listing and to delete it takes
the name away, and the listings of all other sub-paths stay as they are.

## Key results

- `Files.step_isSound`, `Files.run_isSound`: calls keep a tree sound
- `FileTree.IsSound.mem_names`: what is listed of a sub-path
- `FileTree.get?_entries_of_put`, `FileTree.IsSound.get?_entries_of_deleteFile`: what has been done
  to a tree by a call that succeeds
-/

namespace Failover

open Failover.Path (IsPlain)

namespace FileTree

/-- Whatever stands in the tree `t` below its root stands in a directory. -/
def IsSound (t : FileTree) : Prop :=
  ∀ dir name e, t.entries.get? (dir ++ [name]) = some e → t.entries.get? dir = some .directory

variable {t u : FileTree} {dir path : List String} {name s n : String} {e : FileEntry}

/-! ## Lookups -/

/-- What is found at the end of a `walk` stands there. -/
private theorem get?_of_walk_eq_ok {names : List String} (h : t.walk dir names = .ok e) :
    t.entries.get? (dir ++ names) = some e := by
  induction names generalizing dir with
  | nil =>
    rw [walk, entry?] at h
    rw [List.append_nil]
    split at h
    · cases h
      assumption
    · cases h
  | cons name names ih =>
    rw [walk] at h
    -- A walk that succeeds has found a directory here, and goes on below it.
    split at h
    · cases h
    · cases h
    · split at h
      · cases h
      · have hget := ih h
        rwa [List.append_assoc, List.singleton_append] at hget

/-- What `find` finds stands there. -/
theorem get?_of_find_eq_ok (h : t.find path = .ok e) : t.entries.get? path = some e := by
  rw [find] at h
  split at h
  · cases h
  · exact get?_of_walk_eq_ok h

namespace IsSound

/-- In a tree that `IsSound`, all that is on the way to an entry are directories. -/
theorem eq_directory (h : t.IsSound) {rest : List String} (hrest : rest ≠ [])
    (he : t.entries.get? (dir ++ rest) = some e) : t.entries.get? dir = some .directory := by
  -- On the way that is left, from the root down; only the last name leads to `e`.
  induction rest generalizing dir with
  | nil => exact absurd rfl hrest
  | cons name rest ih =>
    have hsplit : dir ++ name :: rest = dir ++ [name] ++ rest := by simp
    rw [hsplit] at he
    cases rest with
    | nil =>
      rw [List.append_nil] at he
      exact h dir name e he
    | cons name' rest => exact h dir name .directory (ih (by simp) he)

/-- In a tree that `IsSound`, a `walk` to what stands there does not end at something missing. -/
private theorem walk_ne_missing (h : t.IsSound) {names : List String}
    (he : t.entries.get? (dir ++ names) = some e) : t.walk dir names ≠ .error .missing := by
  induction names generalizing dir with
  | nil =>
    rw [List.append_nil] at he
    simp [walk, entry?, he]
  | cons name names ih =>
    rw [walk, entry?, h.eq_directory (by simp) he]
    dsimp only
    split
    · simp
    · exact ih (by simpa using he)

/-- In a tree that `IsSound`, nothing stands where `find` finds something missing. -/
theorem get?_eq_none (h : t.IsSound) (hfind : t.find path = .error .missing) :
    t.entries.get? path = none := by
  rw [find] at hfind
  split at hfind
  · cases hfind
  · by_contra hne
    obtain ⟨e, he⟩ := Option.ne_none_iff_exists'.1 hne
    have hroot : t.entries.get? ([] ++ path) = some e := he
    exact h.walk_ne_missing hroot hfind

/-- What stands at a sub-path for which `IsPlain` holds is found by `find`. -/
theorem find_eq_ok (h : t.IsSound) (hs : IsPlain s) (he : t.entries.get? [s] = some e) :
    t.find [s] = .ok e := by
  have hroot : t.entries.get? [] = some .directory := h [] s e he
  rw [find, checkPath_dir hs]
  simp only [walk, entry?, hroot, if_neg (not_maxName_lt hs), List.nil_append, he]

/-! ## Changes -/

/-- An entry may be put into a directory in place of one that is not a directory itself: the tree
`IsSound` afterwards. -/
theorem insert (h : t.IsSound) (e : FileEntry)
    (hparent : ∀ dir name, path = dir ++ [name] → t.entries.get? dir = some .directory)
    (hkeep : t.entries.get? path ≠ some .directory) : IsSound ⟨t.entries.insert path e⟩ := by
  intro dir name e' he'
  rw [SortedMap.get?_insert] at he' ⊢
  have hdir : t.entries.get? dir = some .directory := by
    split at he'
    · next hpath => exact hparent dir name hpath.symm
    · exact h dir name e' he'
  -- The parent is not the entry that is replaced, for that was no directory.
  rw [if_neg, hdir]
  rintro rfl
  exact hkeep hdir

/-- `makeBelow` keeps a tree sound if the parent of the first directory is there. -/
private theorem makeBelow (h : t.IsSound) (names : List String)
    (hparent : ∀ d name, dir = d ++ [name] → t.entries.get? d = some .directory) :
    (t.makeBelow dir names).2.IsSound := by
  induction names generalizing t dir with
  | nil =>
    rw [FileTree.makeBelow]
    split
    · exact h
    · exact h
    · next hnone =>
      have hnone : t.entries.get? dir = none := hnone
      exact h.insert _ hparent (by simp [hnone])
  | cons name names ih =>
    -- Below a directory the next one has its parent.
    have hnext {v : FileTree} (hv : v.IsSound) (hdir : v.entries.get? dir = some .directory) :
        (if maxName < name.utf8ByteSize then (.error .nameTooLong, v)
          else v.makeBelow (dir ++ [name]) names).2.IsSound := by
      split
      · exact hv
      · refine ih hv fun d name' heq => ?_
        obtain ⟨rfl, -⟩ := List.append_inj' heq rfl
        exact hdir
    rw [FileTree.makeBelow]
    split
    · exact h
    · next hdir => exact hnext h hdir
    · next hnone =>
      have hnone : t.entries.get? dir = none := hnone
      exact hnext (h.insert _ hparent (by simp [hnone])) (by simp)

/-- `makeDirectories` keeps a tree sound. -/
theorem makeDirectories (h : t.IsSound) (path : List String) :
    (t.makeDirectories path).2.IsSound := by
  rw [FileTree.makeDirectories]
  split
  · exact h
  · exact h.makeBelow path (by simp)

/-- `writeFile` keeps a tree sound if the parent of the file is there. -/
theorem writeFile (h : t.IsSound) (change : Option FileEntry → Option String)
    (hparent : ∀ dir name, path = dir ++ [name] → t.entries.get? dir = some .directory) :
    (t.writeFile path change).2.IsSound := by
  rw [FileTree.writeFile]
  split
  · exact h
  · -- A file is put where a file stood, or where nothing did; a directory is never overwritten.
    next e hne hfind =>
    refine h.insert _ hparent ?_
    rw [get?_of_find_eq_ok hfind]
    simpa using hne
  · next hfind =>
    refine h.insert _ hparent ?_
    simp [h.get?_eq_none hfind]
  · exact h

/-- `deleteFile` keeps a tree sound. -/
theorem deleteFile (h : t.IsSound) (path : List String) : (t.deleteFile path).2.IsSound := by
  rw [FileTree.deleteFile]
  split
  · exact h
  · next contents hfind =>
    intro dir name e he
    rw [SortedMap.get?_erase] at he ⊢
    split at he
    · cases he
    · have hdir := h dir name e he
      rw [if_neg, hdir]
      -- What is deleted was a file, so nothing stood in it.
      rintro rfl
      cases (get?_of_find_eq_ok hfind).symm.trans hdir
  · exact h
  · exact h

/-- `deleteAll` keeps a tree sound. -/
theorem deleteAll (h : t.IsSound) : t.deleteAll.2.IsSound := by
  rw [FileTree.deleteAll]
  split
  · exact h
  · intro dir name e he
    cases he

/-! ## Listings -/

/-- The `names` of a sub-path are those of the files in its directory that are not in progress. -/
theorem mem_names (h : t.IsSound) (hs : IsPlain s) {names : List String}
    (hnames : Files.names t [s] = .ok names) {x : String} : x ∈ names ↔
      x.toList.head? ≠ some '.' ∧ ∃ contents, t.entries.get? [s, x] = some (.file contents) := by
  rw [Files.names] at hnames
  split at hnames
  · next fault hfind =>
    cases hnames
    -- Where the directory is not found, nothing stands in it.
    refine iff_of_false List.not_mem_nil ?_
    rintro ⟨-, contents, hget⟩
    cases (h.find_eq_ok hs (h [s] x _ hget)).symm.trans hfind
  · cases hnames
  · cases hnames
    rw [List.mem_filter, Mirrors.mem_filesIn, and_comm, decide_eq_true_eq]
    rfl

/-- The `names` of a sub-path can be listed unless it is a file. -/
theorem exists_names_iff (h : t.IsSound) (hs : IsPlain s) :
    (∃ names, Files.names t [s] = .ok names) ↔
      ∀ contents, t.entries.get? [s] ≠ some (.file contents) := by
  constructor
  · rintro ⟨names, hnames⟩ contents hget
    rw [Files.names, h.find_eq_ok hs hget] at hnames
    cases hnames
  · intro hne
    -- Nothing there, or a directory, can be listed; a file cannot.
    rw [Files.names]
    split
    · exact ⟨[], rfl⟩
    · next contents hfind => exact absurd (get?_of_find_eq_ok hfind) (hne contents)
    · exact ⟨_, rfl⟩

end IsSound

/-! ## What a call has done -/

/-- `makeBelow` changes only entries on the way. -/
private theorem get?_entries_makeBelow_of_not_prefix {names q : List String}
    (hq : ¬q <+: dir ++ names) :
    (t.makeBelow dir names).2.entries.get? q = t.entries.get? q := by
  have hne : q ≠ dir := by
    rintro rfl
    exact hq (List.prefix_append _ _)
  -- The next directory is on the way as well, so `q` differs from it too.
  induction names generalizing t dir with
  | nil =>
    rw [makeBelow]
    split
    · rfl
    · rfl
    · rw [SortedMap.get?_insert, if_neg hne]
  | cons name names ih =>
    have hnext {v : FileTree} : (if maxName < name.utf8ByteSize then (.error .nameTooLong, v)
        else v.makeBelow (dir ++ [name]) names).2.entries.get? q = v.entries.get? q := by
      split
      · rfl
      · have hq' : ¬q <+: dir ++ [name] ++ names := by simpa using hq
        refine ih hq' ?_
        rintro rfl
        exact hq' (List.prefix_append _ _)
    rw [makeBelow]
    split
    · rfl
    · exact hnext
    · exact hnext.trans (by rw [SortedMap.get?_insert, if_neg hne])

/-- A `makeBelow` that succeeds leaves a directory at the end of the way. -/
private theorem get?_of_makeBelow_eq_ok {names : List String}
    (h : t.makeBelow dir names = (.ok (), u)) :
    u.entries.get? (dir ++ names) = some .directory := by
  induction names generalizing t dir with
  | nil =>
    rw [List.append_nil]
    rw [makeBelow] at h
    split at h
    · cases h
      assumption
    · cases h
    · cases h
      simp
  | cons name names ih =>
    -- Whether this directory was there or is new, the rest of the way succeeds too.
    have hnext {v : FileTree} (hv : (if maxName < name.utf8ByteSize then (.error .nameTooLong, v)
        else v.makeBelow (dir ++ [name]) names) = (.ok (), u)) :
        u.entries.get? (dir ++ name :: names) = some .directory := by
      split at hv
      · cases hv
      · simpa using ih hv
    rw [makeBelow] at h
    split at h
    · cases h
    · exact hnext h
    · exact hnext h

/-- A `makeDirectories` that succeeds leaves a directory at its path. -/
theorem get?_of_makeDirectories_eq_ok (h : t.makeDirectories path = (.ok (), u)) :
    u.entries.get? path = some .directory := by
  rw [makeDirectories] at h
  split at h
  · cases h
  · exact get?_of_makeBelow_eq_ok h

/-- `makeDirectories` changes only entries on the way. -/
theorem get?_entries_makeDirectories_of_not_prefix {q : List String} (hq : ¬q <+: path) :
    (t.makeDirectories path).2.entries.get? q = t.entries.get? q := by
  rw [makeDirectories]
  split
  · rfl
  · exact get?_entries_makeBelow_of_not_prefix hq

namespace IsSound

/-- `Files.put` keeps a tree sound, whether or not the object can be written. -/
theorem put (h : t.IsSound) (path : List String) (text : String) :
    (Files.put t path text).2.IsSound := by
  have hmade := h.makeDirectories path.dropLast
  rw [Files.put]
  split
  · next e v hmake =>
    rw [hmake] at hmade
    exact hmade
  · next v hmake =>
    rw [hmake] at hmade
    split
    · exact hmade
    · -- The file goes into the directory that has just been made.
      refine IsSound.writeFile hmade _ ?_
      rintro dir name rfl
      simpa using get?_of_makeDirectories_eq_ok hmake

/-- `Files.append` keeps a tree sound, whether or not the object can be written. -/
theorem append (h : t.IsSound) (path : List String) (text : String) :
    (Files.append t path text).2.IsSound := by
  have hmade := h.makeDirectories path.dropLast
  rw [Files.append]
  split
  · next e v hmake =>
    rw [hmake] at hmade
    exact hmade
  · next v hmake =>
    rw [hmake] at hmade
    -- The file goes into the directory that has just been made.
    refine IsSound.writeFile hmade _ ?_
    rintro dir name rfl
    simpa using get?_of_makeDirectories_eq_ok hmake

end IsSound

/-- An object that `Files.put` has put is a file in the directory of its sub-path, and nothing else
has changed below the root. -/
theorem get?_entries_of_put {text : String} (h : Files.put t [s, n] text = (.ok (), u)) :
    u.entries.get? [s] = some .directory ∧ u.entries.get? [s, n] = some (.file (some text)) ∧
      ∀ q, q ≠ [] → q ≠ [s] → q ≠ [s, n] → u.entries.get? q = t.entries.get? q := by
  rw [Files.put] at h
  split at h
  · cases h
  · next v hmake =>
    have hmake : t.makeDirectories [s] = (.ok (), v) := hmake
    split at h
    · cases h
    · have hdir := get?_of_makeDirectories_eq_ok hmake
      have hwritten : u = ⟨v.entries.insert [s, n] (.file (some text))⟩ := by
        rw [writeFile] at h
        split at h <;> cases h <;> rfl
      subst hwritten
      refine ⟨?_, ?_, fun q hroot hs hn => ?_⟩
      · rw [SortedMap.get?_insert, if_neg (by simp), hdir]
      · rw [SortedMap.get?_insert, if_pos rfl]
      · -- Only the root and the sub-path are on the way.
        have hq : ¬q <+: [s] := by
          rw [List.prefix_cons_iff]
          rintro (rfl | ⟨q, rfl, hq⟩)
          · exact hroot rfl
          · rw [List.prefix_nil.1 hq] at hs
            exact hs rfl
        have hsame := get?_entries_makeDirectories_of_not_prefix (t := t) hq
        rw [hmake] at hsame
        rw [SortedMap.get?_insert, if_neg hn, hsame]

/-- An object that `deleteFile` has deleted is no file any more, and nothing else has changed. -/
theorem IsSound.get?_entries_of_deleteFile (ht : t.IsSound)
    (h : t.deleteFile path = (.ok (), u)) :
    (∀ contents, u.entries.get? path ≠ some (.file contents)) ∧
      ∀ q, q ≠ path → u.entries.get? q = t.entries.get? q := by
  rw [FileTree.deleteFile] at h
  split at h
  · cases h
  · cases h
    refine ⟨fun contents => ?_, fun q hq => ?_⟩
    · simp
    · rw [SortedMap.get?_erase, if_neg hq]
  · -- Where nothing is found nothing is deleted, and that counts as success.
    next hfind =>
    cases h
    refine ⟨fun contents => ?_, fun _ _ => rfl⟩
    simp [ht.get?_eq_none hfind]
  · cases h

end FileTree

namespace Files

variable {f : Files}

/-- `prepareTree` keeps a tree sound in every mode. -/
private theorem isSound_prepareTree {t : FileTree} (h : t.IsSound) (mode : PersistMode) :
    (prepareTree t mode).2.IsSound := by
  cases mode with
  | disabled => exact h
  | auto => exact h.makeDirectories []
  | rebind =>
    rw [prepareTree]
    split
    · exact h
    · exact h
    · exact h.makeDirectories []
  -- A directory that is cleared is sound whether or not clearing it came to its end.
  | clean =>
    have hdeleted := h.deleteAll
    rw [prepareTree]
    split
    · next e v hdelete =>
      rw [hdelete] at hdeleted
      exact hdeleted
    · next v hdelete =>
      rw [hdelete] at hdeleted
      exact FileTree.IsSound.makeDirectories hdeleted []

/-- Every `step` keeps a tree sound, whether or not it succeeds. -/
theorem step_isSound (h : f.tree.IsSound) (handle : String) (c : Store.Call) :
    (step handle c f).2.tree.IsSound := by
  -- All other calls than these leave the tree as it was.
  cases c with
  | prepare mode =>
    have hprepare := isSound_prepareTree h mode
    rw [step]
    split
    · next e v heq =>
      rw [heq] at hprepare
      exact hprepare
    · next v heq =>
      rw [heq] at hprepare
      exact hprepare
  | createSubPath p =>
    rw [step]
    split
    · exact h.makeDirectories _
    · exact h
  | list p =>
    rw [step]
    split <;> exact h
  | deleteAll => exact h.deleteAll
  | put p text => exact h.put _ text
  | append p text => exact h.append _ text
  | delete p => exact h.deleteFile _
  | lastModified p =>
    rw [step]
    split <;> exact h
  | close | openObject p | get p | contains p => exact h

/-- Every `run` of calls keeps a tree sound, since each `step` does. -/
theorem run_isSound (h : f.tree.IsSound) (handle : String) (cs : List Store.Call) :
    ((store handle).run cs f).2.tree.IsSound := by
  induction cs generalizing f with
  | nil => exact h
  | cons c cs ih => exact ih (step_isSound h handle c)

/-- The tree of a directory that is not there yet `IsSound`. -/
theorem isSound_fresh : ({ tree := {} } : Files).tree.IsSound := by
  intro dir name e he
  cases he

/-- The tree of an empty directory `IsSound`. -/
theorem isSound_root : ({} : Files).tree.IsSound :=
  isSound_fresh.insert .directory (by simp) (by simp)

end Files

end Failover
