import Failover.Proofs.Store.Memory
import Failover.Store.Files

/-!
# A directory tree that mirrors a memory

A directory tree mirrors a memory if its regular files are the objects of the memory, one level
below a directory for their sub-path. Directories may be there that hold nothing, and some that hold
nothing may be missing, the root among them: neither shows. Each operation of the tree is said here
in terms of the memory that it mirrors.

## Key results

- `FileTree.Mirrors.put`, `FileTree.Mirrors.append`, `FileTree.Mirrors.deleteFile`: what is written
  and deleted
- `FileTree.Mirrors.readFile`, `FileTree.Mirrors.isFile`, `FileTree.Mirrors.names`: what is read
- `FileTree.Mirrors.prepareTree`: how a directory is prepared
-/

namespace Failover

/-- The same `StoreError` of a store that goes by another name. -/
def StoreError.named (store : String) : StoreError → StoreError
  | .notPrepared _ => .notPrepared store
  | .closed _ => .closed store
  | .persistenceDisabled _ => .persistenceDisabled store
  | .nothingToRebind _ => .nothingToRebind store
  | e => e

/-! ## Names -/

namespace Path

/-- A name that `isSingle` is none of a file in progress. -/
theorem head?_ne_of_isSingle {seg : String} (h : isSingle seg = true) :
    seg.toList.head? ≠ some '.' := by
  obtain ⟨hvalid, hslash⟩ := isSingle_iff.1 h
  rw [isValid, split_of_not_mem hslash] at hvalid
  simp only [List.all_cons, List.all_nil, isSegment, Bool.and_eq_true, decide_eq_true_eq] at hvalid
  exact hvalid.2.1.2

/-- A segment that can be the name of a file, and of a temporary file once the 32 bytes of
`temporaryExtra` are added. -/
structure IsPlain (seg : String) : Prop where
  isSingle : isSingle seg = true
  nul_not_mem : '\x00' ∉ seg.toList
  size_le : seg.utf8ByteSize ≤ 223

namespace IsPlain

variable {s n : String} (hs : IsPlain s)
include hs

theorem isValid : Path.isValid s = true := (isSingle_iff.1 hs.isSingle).1

theorem slash_not_mem : '/' ∉ s.toList := (isSingle_iff.1 hs.isSingle).2

theorem segments : Path.segments s = [s] := segments_of_not_mem hs.slash_not_mem

/-- An `object` of plain names has these as its two segments. -/
theorem segments_object (hn : IsPlain n) : Path.segments (object s n) = [s, n] := by
  rw [Path.segments_object, hs.segments, hn.segments]
  rfl

/-- The path of an `object` tells plain names apart. -/
theorem object_eq_object {t m : String} (ht : IsPlain t) :
    object s n = object t m ↔ s = t ∧ n = m :=
  Path.object_eq_object hs.slash_not_mem ht.slash_not_mem

end IsPlain

/-- The paths of `object`s of one sub-path are in the order of their names. -/
theorem compare_of_object {s a b : String} (h : compare (object s a) (object s b) = .lt) :
    compare a b = .lt := by
  have hlt := compareOfLessAndEq_eq_lt.1 h
  refine compareOfLessAndEq_eq_lt.2 ?_
  rw [String.lt_iff, toList_object, toList_object] at hlt
  rw [String.lt_iff]
  -- What they have in common at the beginning decides nothing.
  generalize s.toList = start at hlt
  induction start with
  | nil => simpa using hlt
  | cons c start ih =>
    rw [List.cons_append, List.cons_append, List.cons_lt_cons_iff] at hlt
    exact ih (by simpa using hlt)

end Path

open Failover.Path (IsPlain)

namespace FileTree

/-! ## Paths of one or two names -/

section Paths

variable {s n : String} (hs : IsPlain s) (hn : IsPlain n)
include hs

/-- A name that `IsPlain` is not longer than `maxName`. -/
theorem not_maxName_lt : ¬ maxName < s.utf8ByteSize := by
  have := hs.size_le
  rw [maxName]
  omega

/-- `checkPath` passes a sub-path that `IsPlain`. -/
theorem checkPath_dir : checkPath [s] = .ok () := by
  have := hs.size_le
  have hnul : [s].any (fun name => name.toList.contains '\x00') = false := by
    simpa using hs.nul_not_mem
  have hsize : ¬ maxPath < pathSize [s] := by
    simp only [pathSize, maxPath, List.foldl_cons, List.foldl_nil]
    omega
  rw [checkPath, hnul, if_neg Bool.false_ne_true, if_neg hsize]

include hn

/-- The `pathSize` of an object of plain names. -/
private theorem pathSize_le : pathSize [s, n] ≤ 448 := by
  have := hs.size_le
  have := hn.size_le
  simp only [pathSize, List.foldl_cons, List.foldl_nil]
  omega

/-- `checkPath` passes an object of plain names. -/
private theorem checkPath_object : checkPath [s, n] = .ok () := by
  have := pathSize_le hs hn
  have hnul : [s, n].any (fun name => name.toList.contains '\x00') = false := by
    simpa using ⟨hs.nul_not_mem, hn.nul_not_mem⟩
  have hsize : ¬ maxPath < pathSize [s, n] := by
    rw [maxPath]
    omega
  rw [checkPath, hnul, if_neg Bool.false_ne_true, if_neg hsize]

/-- `checkTemporary` passes an object of plain names: there is room for a temporary file. -/
private theorem checkTemporary_object : Files.checkTemporary [s, n] = .ok () := by
  have := pathSize_le hs hn
  have := hn.size_le
  -- Names that are plain are short enough to leave room for what is appended to them.
  have hname : ¬ maxName < ([s, n].getLast?.getD "").utf8ByteSize + Files.temporaryExtra := by
    show ¬ maxName < n.utf8ByteSize + Files.temporaryExtra
    rw [maxName, Files.temporaryExtra]
    omega
  have hpath : ¬ maxPath < pathSize [s, n] + Files.temporaryExtra := by
    rw [maxPath, Files.temporaryExtra]
    omega
  rw [Files.checkTemporary, checkPath_object hs hn]
  dsimp only
  rw [if_neg hname, if_neg hpath]

end Paths

/-! ## Mirrors -/

/-- The tree `t` mirrors the memory `m`: its files are the objects of `m`, each in a directory for
its sub-path, and what else is there are directories. -/
structure Mirrors (t : FileTree) (m : Memory) : Prop where
  isPlain : ∀ path, (t.entries.get? path).isSome → ∀ seg ∈ path, IsPlain seg
  root : ∀ e, t.entries.get? [] = some e → e = .directory
  dir : ∀ s e, t.entries.get? [s] = some e → e = .directory
  /-- What is there stands in a directory, as `IsSound` has it for any tree. -/
  parent : ∀ path name, (t.entries.get? (path ++ [name])).isSome →
    t.entries.get? path = some .directory
  object : ∀ s n, IsPlain s → IsPlain n →
    t.entries.get? [s, n] = (m.files.get? (Path.object s n)).map fun text => .file (some text)
  stored : ∀ path, (m.files.get? path).isSome →
    ∃ s n, IsPlain s ∧ IsPlain n ∧ path = Path.object s n

namespace Mirrors

variable {t : FileTree} {m : Memory} {s n : String}

/-- Where a tree that `Mirrors` a memory has no entry, there is none one name below. -/
theorem get?_eq_none (h : t.Mirrors m) {path : List String} (hpath : t.entries.get? path = none)
    (name : String) : t.entries.get? (path ++ [name]) = none := by
  rw [← Option.not_isSome_iff_eq_none]
  intro hsome
  have hdir := h.parent path name hsome
  rw [hpath] at hdir
  cases hdir

/-- An object of the memory is no directory of a tree that `Mirrors` it. -/
theorem get?_object_ne (h : t.Mirrors m) (hs : IsPlain s) (hn : IsPlain n) :
    t.entries.get? [s, n] ≠ some .directory := by
  rw [h.object s n hs hn]
  cases m.files.get? (Path.object s n) <;> nofun

/-! ### Changes of a tree -/

/-- The tree without anything `Mirrors` a memory that holds nothing. -/
theorem empty (hm : m.files = .empty) : FileTree.Mirrors {} m where
  isPlain _ hpath := nomatch hpath
  root _ he := nomatch he
  dir _ _ he := nomatch he
  parent _ _ hpath := nomatch hpath
  object s n _ _ := by
    rw [hm]
    rfl
  stored path hpath := by
    rw [hm] at hpath
    cases hpath

/-- A directory that is created does not show: the tree `Mirrors` the same memory. -/
theorem insert_directory (h : t.Mirrors m) {path : List String} (hlength : path.length ≤ 1)
    (hplain : ∀ seg ∈ path, IsPlain seg)
    (hparent : ∀ dir name, path = dir ++ [name] → t.entries.get? dir = some .directory) :
    FileTree.Mirrors ⟨t.entries.insert path .directory⟩ m where
  isPlain q hq := by
    dsimp only at hq
    rw [SortedMap.get?_insert] at hq
    split at hq
    · next heq => rwa [heq]
    · exact h.isPlain q hq
  root e he := by
    dsimp only at he
    rw [SortedMap.get?_insert] at he
    split at he
    · exact (Option.some.inj he).symm
    · exact h.root e he
  dir s e he := by
    dsimp only at he
    rw [SortedMap.get?_insert] at he
    split at he
    · exact (Option.some.inj he).symm
    · exact h.dir s e he
  parent dir name hq := by
    dsimp only at hq ⊢
    rw [SortedMap.get?_insert] at hq ⊢
    split
    · rfl
    · split at hq
      · next heq => exact hparent dir name heq.symm
      · exact h.parent dir name hq
  -- The directory is no longer than one segment, so it is in the place of no object.
  object s n hs hn := by
    have hne : [s, n] ≠ path := by
      rintro rfl
      simp at hlength
    dsimp only
    rw [SortedMap.get?_insert, if_neg hne]
    exact h.object s n hs hn
  stored := h.stored

/-- If one file of the tree and the object of the same path in the memory change alike, the tree
still `Mirrors` the memory. -/
private theorem change {u : FileTree} {m' : Memory} (h : t.Mirrors m) (hs : IsPlain s)
    (hn : IsPlain n) (contents : Option String)
    (hdir : contents.isSome → t.entries.get? [s] = some .directory)
    (htree : ∀ path, u.entries.get? path =
      if path = [s, n] then contents.map fun text => .file (some text) else t.entries.get? path)
    (hfiles : ∀ path, m'.files.get? path =
      if path = Path.object s n then contents else m.files.get? path) : u.Mirrors m' where
  isPlain path hpath := by
    rw [htree] at hpath
    split at hpath
    · next heq =>
      rw [heq]
      simpa using ⟨hs, hn⟩
    · exact h.isPlain path hpath
  root e he := by
    rw [htree, if_neg (by simp)] at he
    exact h.root e he
  dir s' e he := by
    rw [htree, if_neg (by simp)] at he
    exact h.dir s' e he
  parent path name hpath := by
    have hparent : t.entries.get? path = some .directory := by
      rw [htree] at hpath
      split at hpath
      · next heq =>
        have hlast : path ++ [name] = [s] ++ [n] := heq
        obtain ⟨rfl, -⟩ := List.append_inj' hlast rfl
        exact hdir (by rwa [Option.isSome_map] at hpath)
      · exact h.parent path name hpath
    -- The file itself is no directory of anything.
    have hne : path ≠ [s, n] := by
      rintro rfl
      exact h.get?_object_ne hs hn hparent
    rwa [htree, if_neg hne]
  object s' n' hs' hn' := by
    have hiff : [s', n'] = [s, n] ↔ Path.object s' n' = Path.object s n := by
      rw [hs'.object_eq_object hs]
      simp
    rw [htree, hfiles]
    by_cases heq : [s', n'] = [s, n]
    · rw [if_pos heq, if_pos (hiff.1 heq)]
    · rw [if_neg heq, if_neg (mt hiff.2 heq)]
      exact h.object s' n' hs' hn'
  stored path hpath := by
    rw [hfiles] at hpath
    split at hpath
    · next heq => exact ⟨s, n, hs, hn, heq⟩
    · exact h.stored path hpath

/-- If a file is written into its directory, the tree `Mirrors` the memory after `put`. -/
theorem insert_file (h : t.Mirrors m) (hs : IsPlain s) (hn : IsPlain n)
    (hdir : t.entries.get? [s] = some .directory) (text : String) :
    FileTree.Mirrors ⟨t.entries.insert [s, n] (.file (some text))⟩
      (m.put (Path.object s n) text) :=
  h.change hs hn (some text) (fun _ => hdir) (fun _ => SortedMap.get?_insert ..) fun _ =>
    Memory.get?_files_put ..

/-- If a file is deleted, the tree `Mirrors` the memory after `drop`. -/
theorem erase_file (h : t.Mirrors m) (hs : IsPlain s) (hn : IsPlain n) :
    FileTree.Mirrors ⟨t.entries.erase [s, n]⟩ (m.drop (Path.object s n)) :=
  h.change hs hn none nofun (fun _ => SortedMap.get?_erase ..) fun _ => Memory.get?_files_drop ..

/-! ### Lookups -/

/-- In a tree that `Mirrors` a memory, entries at paths of at most one name are directories. -/
theorem eq_directory (h : t.Mirrors m) {path : List String} (hlength : path.length ≤ 1)
    {e : FileEntry} (he : t.entries.get? path = some e) : e = .directory := by
  match path with
  | [] => exact h.root e he
  | [s] => exact h.dir s e he

/-- Where a tree that `Mirrors` a memory has no entry, there is none anywhere below. -/
theorem get?_append_eq_none (h : t.Mirrors m) {path : List String}
    (hpath : t.entries.get? path = none) (names : List String) :
    t.entries.get? (path ++ names) = none := by
  induction names generalizing path with
  | nil => rwa [List.append_nil]
  | cons name names ih =>
    rw [List.append_cons]
    exact ih (h.get?_eq_none hpath name)

/-- A `walk` on plain names in a tree that `Mirrors` a memory comes to what is at the end of the
way. -/
private theorem walk_eq (h : t.Mirrors m) {names : List String}
    (hnames : ∀ name ∈ names, IsPlain name) {dir : List String}
    (hlength : dir.length + names.length ≤ 2) : t.walk dir names =
      match t.entries.get? (dir ++ names) with
      | some e => .ok e
      | none => .error .missing := by
  induction names generalizing dir with
  | nil =>
    rw [List.append_nil]
    rfl
  | cons name names ih =>
    rw [List.forall_mem_cons] at hnames
    rw [List.length_cons] at hlength
    rw [walk, FileTree.entry?]
    cases hdir : t.entries.get? dir with
    | none => rw [h.get?_append_eq_none hdir]
    | some e =>
      -- Whatever is found on the way is a directory, as files lie two levels below the root.
      obtain rfl := h.eq_directory (by omega) hdir
      dsimp only
      rw [if_neg (not_maxName_lt hnames.1), ih hnames.2 (by simp; omega), ← List.append_cons]

/-- `find` finds a directory if it is there. -/
theorem find_dir (h : t.Mirrors m) (hs : IsPlain s) : t.find [s] =
    if (t.entries.get? [s]).isSome then .ok .directory else .error .missing := by
  rw [find, checkPath_dir hs]
  dsimp only
  rw [h.walk_eq (by simpa using hs) (by simp), List.nil_append]
  cases hdir : t.entries.get? [s] with
  | none => rfl
  | some e =>
    obtain rfl := h.dir s e hdir
    rfl

/-- `find` finds an object if the memory has it. -/
theorem find_object (h : t.Mirrors m) (hs : IsPlain s) (hn : IsPlain n) : t.find [s, n] =
    match m.files.get? (Path.object s n) with
    | some text => .ok (.file (some text))
    | none => .error .missing := by
  rw [find, checkPath_object hs hn]
  dsimp only
  rw [h.walk_eq (by simpa using ⟨hs, hn⟩) (by simp), List.nil_append, h.object s n hs hn]
  cases m.files.get? (Path.object s n) <;> rfl

/-! ### Operations -/

/-- `makeDirectories` creates the root if need be. -/
theorem makeRoot (h : t.Mirrors m) : ∃ u, t.makeDirectories [] = (.ok (), u) ∧ u.Mirrors m ∧
    u.entries.get? [] = some .directory := by
  show ∃ u, t.makeBelow [] [] = (.ok (), u) ∧ _
  rw [makeBelow, FileTree.entry?]
  cases hroot : t.entries.get? [] with
  | some e =>
    obtain rfl := h.root e hroot
    exact ⟨t, rfl, h, hroot⟩
  | none =>
    refine ⟨_, rfl, h.insert_directory (by simp) (by simp) (by simp), ?_⟩
    simp

/-- `makeDirectories` creates the directory of a sub-path if need be, and the root above it. -/
theorem makeDirectory (h : t.Mirrors m) (hs : IsPlain s) :
    ∃ u, t.makeDirectories [s] = (.ok (), u) ∧ u.Mirrors m ∧
      u.entries.get? [s] = some .directory := by
  -- With the root there, the directory is there or can be created.
  have hbelow {u : FileTree} (hu : u.Mirrors m) (hroot : u.entries.get? [] = some .directory) :
      ∃ v, u.makeBelow [s] [] = (.ok (), v) ∧ v.Mirrors m ∧
        v.entries.get? [s] = some .directory := by
    rw [makeBelow, FileTree.entry?]
    cases hdir : u.entries.get? [s] with
    | some e =>
      obtain rfl := hu.dir s e hdir
      exact ⟨u, rfl, hu, hdir⟩
    | none =>
      refine ⟨_, rfl, hu.insert_directory (by simp) (by simpa using hs) ?_, by simp⟩
      intro dir name heq
      have hlast : [] ++ [s] = dir ++ [name] := heq
      obtain ⟨rfl, -⟩ := List.append_inj' hlast rfl
      exact hroot
  rw [makeDirectories, checkPath_dir hs]
  dsimp only
  rw [makeBelow, FileTree.entry?, List.nil_append]
  cases hroot : t.entries.get? [] with
  | some e =>
    obtain rfl := h.root e hroot
    dsimp only
    rw [if_neg (not_maxName_lt hs)]
    exact hbelow h hroot
  | none =>
    dsimp only
    rw [if_neg (not_maxName_lt hs)]
    exact hbelow (h.insert_directory (by simp) (by simp) (by simp)) (by simp)

/-- `writeFile` writes an object whose directory is there, and the tree `Mirrors` the memory after
`put`. -/
private theorem writeFile (h : t.Mirrors m) (hs : IsPlain s) (hn : IsPlain n)
    (hdir : t.entries.get? [s] = some .directory) (change : Option FileEntry → Option String)
    (text : String)
    (hchange : change ((m.files.get? (Path.object s n)).map fun old => .file (some old)) =
      some text) :
    ∃ u, t.writeFile [s, n] change = (.ok (), u) ∧ u.Mirrors (m.put (Path.object s n) text) := by
  refine ⟨_, ?_, h.insert_file hs hn hdir text⟩
  rw [FileTree.writeFile, h.find_object hs hn]
  cases hget : m.files.get? (Path.object s n) with
  | none =>
    rw [hget, Option.map_none] at hchange
    dsimp only
    rw [hchange]
  | some old =>
    rw [hget, Option.map_some] at hchange
    dsimp only
    rw [hchange]

/-- `Files.put` succeeds, and the tree `Mirrors` the memory after `put`. -/
theorem put (h : t.Mirrors m) (hs : IsPlain s) (hn : IsPlain n) (text : String) :
    ∃ u, Files.put t [s, n] text = (.ok (), u) ∧ u.Mirrors (m.put (Path.object s n) text) := by
  obtain ⟨v, hmake, hv, hdir⟩ := h.makeDirectory hs
  obtain ⟨u, hwrite, hu⟩ := hv.writeFile hs hn hdir (fun _ => some text) text rfl
  refine ⟨u, ?_, hu⟩
  rw [Files.put, List.dropLast_cons_cons, List.dropLast_singleton, hmake]
  dsimp only
  rw [checkTemporary_object hs hn]
  exact hwrite

/-- What a file holds after `text` is added to it, or to a new one. -/
private def added (text : String) : Option FileEntry → Option String
  | some (.file old) => old.map (· ++ text)
  | _ => some text

/-- `Files.append` succeeds, and the tree `Mirrors` the memory after the text was added to what was
there. -/
theorem append (h : t.Mirrors m) (hs : IsPlain s) (hn : IsPlain n) (text : String) :
    ∃ u, Files.append t [s, n] text = (.ok (), u) ∧ u.Mirrors
      (m.put (Path.object s n) ((m.files.get? (Path.object s n)).getD "" ++ text)) := by
  obtain ⟨v, hmake, hv, hdir⟩ := h.makeDirectory hs
  have hadded : added text ((m.files.get? (Path.object s n)).map fun old => .file (some old)) =
      some ((m.files.get? (Path.object s n)).getD "" ++ text) := by
    cases m.files.get? (Path.object s n) <;> simp [added]
  obtain ⟨u, hwrite, hu⟩ := hv.writeFile hs hn hdir (added text) _ hadded
  refine ⟨u, ?_, hu⟩
  rw [Files.append, List.dropLast_cons_cons, List.dropLast_singleton, hmake]
  exact hwrite

/-- `deleteFile` succeeds, and the tree `Mirrors` the memory after `drop`. -/
theorem deleteFile (h : t.Mirrors m) (hs : IsPlain s) (hn : IsPlain n) :
    ∃ u, t.deleteFile [s, n] = (.ok (), u) ∧ u.Mirrors (m.drop (Path.object s n)) := by
  rw [FileTree.deleteFile, h.find_object hs hn]
  cases hget : m.files.get? (Path.object s n) with
  | some text => exact ⟨_, rfl, h.erase_file hs hn⟩
  | none =>
    -- Nothing is deleted of the memory either.
    have hfiles : m.files.erase (Path.object s n) = m.files := by
      refine SortedMap.ext_get? fun path => ?_
      rw [SortedMap.get?_erase]
      split
      · next heq => rw [heq, hget]
      · rfl
    refine ⟨t, rfl, ?_⟩
    rwa [Memory.drop, hfiles]

/-- `readFile` reads what the memory holds. -/
theorem readFile (h : t.Mirrors m) (hs : IsPlain s) (hn : IsPlain n) :
    t.readFile [s, n] = .ok (m.files.get? (Path.object s n)) := by
  rw [FileTree.readFile, h.find_object hs hn]
  cases m.files.get? (Path.object s n) <;> rfl

/-- `isFile` tells whether the memory holds an object. -/
theorem isFile (h : t.Mirrors m) (hs : IsPlain s) (hn : IsPlain n) :
    t.isFile [s, n] = m.files.contains (Path.object s n) := by
  rw [FileTree.isFile, h.find_object hs hn, SortedMap.contains]
  cases m.files.get? (Path.object s n) <;> rfl

/-! ### Listings -/

/-- `filesIn` takes the names of the files that are one name below the directory. -/
private theorem fileName_eq_some {dir path : List String} {e : FileEntry} {name : String} :
    (match e with
      | .file _ => if path.dropLast = dir ∧ path ≠ [] then path.getLast? else none
      | .directory => none) = some name ↔
      path = dir ++ [name] ∧ ∃ contents, e = .file contents := by
  cases e with
  | directory => simp
  | file contents =>
    dsimp only
    constructor
    · intro h
      split at h
      · next hdir =>
        -- A path is what is left of it without its last segment, and that segment.
        have hlast := List.dropLast_append_getLast? name h
        rw [hdir.1] at hlast
        exact ⟨hlast.symm, contents, rfl⟩
      · cases h
    · rintro ⟨rfl, -⟩
      simp

/-- `filesIn` lists the names of the files that stand in the directory. -/
theorem mem_filesIn {dir : List String} {name : String} :
    name ∈ t.filesIn dir ↔ ∃ contents, t.entries.get? (dir ++ [name]) = some (.file contents) := by
  simp only [filesIn, List.mem_filterMap]
  constructor
  · rintro ⟨⟨path, e⟩, hmem, hname⟩
    obtain ⟨rfl, contents, rfl⟩ := fileName_eq_some.1 hname
    exact ⟨contents, SortedMap.mem_entries.1 hmem⟩
  · rintro ⟨contents, hget⟩
    exact ⟨(dir ++ [name], .file contents), SortedMap.mem_entries.2 hget,
      fileName_eq_some.2 ⟨rfl, contents, rfl⟩⟩

/-- `filesIn` lists names in order. -/
theorem pairwise_filesIn (t : FileTree) (s : String) :
    (t.filesIn [s]).Pairwise fun a b => compare a b = .lt := by
  refine List.Pairwise.filterMap _ ?_ t.entries.sorted
  rintro ⟨p, e⟩ ⟨q, e'⟩ hlt a ha b hb
  obtain ⟨rfl, -⟩ := fileName_eq_some.1 ha
  obtain ⟨rfl, -⟩ := fileName_eq_some.1 hb
  have hcompare : compare [s, a] [s, b] = compare a b := by
    show List.compareLex compare [s, a] [s, b] = _
    simp [List.compareLex_cons_cons, Std.ReflCmp.compare_self]
  rw [← hcompare]
  exact hlt

/-- `namesUnder` lists names in order, as it follows the order of the paths. -/
theorem pairwise_namesUnder (m : Memory) (s : String) :
    (m.namesUnder s).Pairwise fun a b => compare a b = .lt := by
  have hkeys : m.files.keys.Pairwise fun p q => compare p q = .lt :=
    List.pairwise_map.2 m.files.sorted
  refine List.Pairwise.filterMap _ ?_ hkeys
  intro p q hlt a ha b hb
  rw [(Path.nameUnder?_eq_some.1 ha).1, (Path.nameUnder?_eq_some.1 hb).1] at hlt
  exact Path.compare_of_object hlt

/-- Lists that are in order without repetition are equal if the same names are in them. -/
private theorem eq_of_pairwise {as bs : List String}
    (ha : as.Pairwise fun a b => compare a b = .lt) (hb : bs.Pairwise fun a b => compare a b = .lt)
    (h : ∀ name, name ∈ as ↔ name ∈ bs) : as = bs := by
  have hnodup {cs : List String} (hcs : cs.Pairwise fun a b => compare a b = .lt) : cs.Nodup :=
    hcs.imp fun hlt heq => by simp [heq, Std.ReflCmp.compare_self] at hlt
  refine List.Perm.eq_of_pairwise (fun a b _ _ hab hba => ?_) ha hb
    ((List.perm_ext_iff_of_nodup (hnodup ha) (hnodup hb)).2 h)
  exact absurd hba (Std.OrientedCmp.not_lt_of_lt hab)

/-- `filesIn` of a tree that `Mirrors` a memory lists what the memory lists by `namesUnder`. -/
private theorem mem_filesIn_iff (h : t.Mirrors m) (hs : IsPlain s) {name : String} :
    name ∈ t.filesIn [s] ↔ name ∈ m.namesUnder s := by
  rw [mem_filesIn, Memory.mem_namesUnder]
  constructor
  · rintro ⟨contents, hget⟩
    have hget : t.entries.get? [s, name] = some (.file contents) := hget
    -- Every path of the tree is plain, so the file stands for an object of the memory.
    have hname : IsPlain name := h.isPlain [s, name] (by rw [hget]; rfl) name (by simp)
    rw [h.object s name hs hname] at hget
    obtain ⟨text, htext, -⟩ := Option.map_eq_some_iff.1 hget
    rw [Memory.text?_of_not_mem m hname.slash_not_mem, htext]
    rfl
  · intro hsome
    obtain ⟨text, htext⟩ := Option.isSome_iff_exists.1 hsome
    obtain ⟨-, hget⟩ := Memory.text?_eq_some.1 htext
    -- Every object of the memory has plain names, so the slash tells its two segments apart.
    obtain ⟨s', n', hs', hn', heq⟩ := h.stored (Path.object s name) (by rw [hget]; rfl)
    obtain ⟨rfl, rfl⟩ := (Path.object_eq_object hs.slash_not_mem hs'.slash_not_mem).1 heq
    refine ⟨some text, ?_⟩
    show t.entries.get? [s, name] = _
    rw [h.object s name hs hn', hget]
    rfl

/-- `Files.names` of a sub-path are those of the memory; a directory that is missing has no objects.
-/
theorem names (h : t.Mirrors m) (hs : IsPlain s) : Files.names t [s] = .ok (m.namesUnder s) := by
  have hfiles : t.filesIn [s] = m.namesUnder s :=
    eq_of_pairwise (pairwise_filesIn t s) (pairwise_namesUnder m s) fun _ => h.mem_filesIn_iff hs
  rw [Files.names, h.find_dir hs]
  cases hdir : t.entries.get? [s] with
  | none =>
    rw [Option.isSome_none, if_neg Bool.false_ne_true, ← hfiles]
    -- Below a missing directory there are no files.
    have hnil : t.filesIn [s] = [] := by
      refine List.eq_nil_iff_forall_not_mem.2 fun name hname => ?_
      obtain ⟨contents, hget⟩ := mem_filesIn.1 hname
      rw [h.get?_eq_none hdir] at hget
      cases hget
    rw [hnil]
  | some e =>
    rw [Option.isSome_some, if_pos rfl]
    dsimp only
    rw [List.filter_eq_self.2, hfiles]
    intro name hname
    obtain ⟨contents, hget⟩ := mem_filesIn.1 hname
    have hplain := h.isPlain _ (by rw [hget]; rfl) name (by simp)
    simpa using Path.head?_ne_of_isSingle hplain.isSingle

/-- A map that is not empty has something in it. -/
private theorem isEmpty_eq_false {files : SortedMap String String} :
    files.isEmpty = false ↔ ∃ path text, files.get? path = some text := by
  rw [SortedMap.isEmpty, List.isEmpty_eq_false_iff_exists_mem]
  constructor
  · rintro ⟨⟨path, text⟩, hmem⟩
    exact ⟨path, text, SortedMap.mem_entries.1 hmem⟩
  · rintro ⟨path, text, hget⟩
    exact ⟨(path, text), SortedMap.mem_entries.2 hget⟩

/-- A directory `holdsAnything` if something stands one name below it. -/
private theorem holdsAnything_eq_true {dir : List String} : t.holdsAnything dir = true ↔
    ∃ name, (t.entries.get? (dir ++ [name])).isSome := by
  simp only [holdsAnything, List.any_eq_true, Bool.and_eq_true, decide_eq_true_eq,
    SortedMap.mem_keys]
  constructor
  · rintro ⟨path, hsome, rfl, hne⟩
    exact ⟨path.getLast hne, by rwa [List.dropLast_append_getLast hne]⟩
  · rintro ⟨name, hsome⟩
    exact ⟨dir ++ [name], hsome, by simp, by simp⟩

/-- The `topDirectories` are the directories that stand below the root. -/
private theorem mem_topDirectories {path : List String} :
    path ∈ t.topDirectories ↔ ∃ s, path = [s] ∧ t.entries.get? [s] = some .directory := by
  simp only [topDirectories, List.mem_filterMap, Prod.exists]
  constructor
  · rintro ⟨q, e, hmem, hq⟩
    split at hq
    · next hdir =>
      simp only [Bool.and_eq_true, decide_eq_true_eq] at hdir
      cases hq
      obtain ⟨s, rfl⟩ := List.length_eq_one_iff.1 hdir.1
      obtain rfl := hdir.2
      exact ⟨s, rfl, SortedMap.mem_entries.1 hmem⟩
    · cases hq
  · rintro ⟨s, rfl, hget⟩
    exact ⟨[s], .directory, SortedMap.mem_entries.2 hget, by simp⟩

/-- `hasContents` tells whether the memory holds anything. -/
theorem hasContents (h : t.Mirrors m) : Files.hasContents t = .ok (!m.files.isEmpty) := by
  -- What the memory holds stands in a directory below the root.
  have hholds (hfull : m.files.isEmpty = false) : ∃ s, t.entries.get? [s] = some .directory ∧
      t.entries.get? [] = some .directory ∧ t.holdsAnything [s] = true := by
    obtain ⟨path, text, hget⟩ := isEmpty_eq_false.1 hfull
    obtain ⟨s, n, hs, hn, rfl⟩ := h.stored path (by rw [hget]; rfl)
    have hobject : (t.entries.get? ([s] ++ [n])).isSome := by
      show (t.entries.get? [s, n]).isSome
      rw [h.object s n hs hn, hget]
      rfl
    have hdir := h.parent [s] n hobject
    have hroot := h.parent [] s (by rw [List.nil_append, hdir]; rfl)
    exact ⟨s, hdir, hroot, holdsAnything_eq_true.2 ⟨n, hobject⟩⟩
  rw [Files.hasContents, FileTree.entry?]
  cases hroot : t.entries.get? [] with
  | none =>
    cases hempty : m.files.isEmpty with
    | true => rfl
    | false =>
      obtain ⟨s, -, hroot', -⟩ := hholds hempty
      cases hroot.symm.trans hroot'
  | some e =>
    obtain rfl := h.root e hroot
    dsimp only
    congr 1
    cases hempty : m.files.isEmpty with
    | false =>
      obtain ⟨s, hdir, -, hany⟩ := hholds hempty
      exact List.any_eq_true.2 ⟨[s], mem_topDirectories.2 ⟨s, rfl, hdir⟩, hany⟩
    | true =>
      refine List.any_eq_false.2 fun path hpath hany => ?_
      obtain ⟨s, rfl, -⟩ := mem_topDirectories.1 hpath
      obtain ⟨n, hsome⟩ := holdsAnything_eq_true.1 hany
      -- Whatever stands there is an object of the memory.
      have hplain := h.isPlain _ hsome
      have hs : IsPlain s := hplain s (by simp)
      have hn : IsPlain n := hplain n (by simp)
      have hsome : (t.entries.get? [s, n]).isSome := hsome
      rw [h.object s n hs hn, Option.isSome_map] at hsome
      obtain ⟨text, htext⟩ := Option.isSome_iff_exists.1 hsome
      rw [isEmpty_eq_false.2 ⟨_, text, htext⟩] at hempty
      cases hempty

/-! ### Preparing and deleting -/

/-- `deleteAll` succeeds, and the tree `Mirrors` an empty memory. -/
theorem deleteAll (h : t.Mirrors m) :
    ∃ u, t.deleteAll = (.ok (), u) ∧ u.Mirrors { m with files := .empty } := by
  refine ⟨{}, ?_, .empty rfl⟩
  rw [FileTree.deleteAll, FileTree.entry?]
  cases hroot : t.entries.get? [] with
  | none => rfl
  | some e =>
    obtain rfl := h.root e hroot
    rfl

/-- `Mirrors` only asks for the `files` of the memory, not whether it is prepared. -/
theorem of_files_eq {m' : Memory} (h : t.Mirrors m) (heq : m'.files = m.files) : t.Mirrors m' where
  isPlain := h.isPlain
  root := h.root
  dir := h.dir
  parent := h.parent
  object := heq ▸ h.object
  stored := heq ▸ h.stored

/-- `prepareTree` prepares a directory as `prepare` does the memory; both refuse alike, each under
its own name. -/
theorem prepareTree (h : t.Mirrors m) (mode : PersistMode) :
    ∃ u, Files.prepareTree t mode = ((m.prepare mode).1.mapError (.named Files.summary), u) ∧
      u.Mirrors (m.prepare mode).2 := by
  -- In each mode the root is made, or nothing is done at all; neither shows in the memory.
  cases mode with
  | disabled => exact ⟨t, rfl, h⟩
  | auto =>
    obtain ⟨u, hmake, hu, -⟩ := h.makeRoot
    refine ⟨u, ?_, hu.of_files_eq rfl⟩
    rw [Files.prepareTree, hmake]
    rfl
  | rebind =>
    rw [Files.prepareTree, h.hasContents, Memory.prepare]
    cases m.files.isEmpty with
    | true => exact ⟨t, rfl, h⟩
    | false =>
      obtain ⟨u, hmake, hu, -⟩ := h.makeRoot
      refine ⟨u, ?_, hu.of_files_eq rfl⟩
      rw [hmake]
      rfl
  | clean =>
    obtain ⟨v, hdelete, hv⟩ := h.deleteAll
    obtain ⟨u, hmake, hu, -⟩ := hv.makeRoot
    refine ⟨u, ?_, hu.of_files_eq rfl⟩
    rw [Files.prepareTree, hdelete]
    dsimp only
    rw [hmake]
    rfl

end Mirrors

end FileTree

end Failover
