import Failover.Proofs.Store.Sound

/-!
# What a write that fails leaves in a directory

Before an object is written, the directories above it are created where they are missing. They stay
if the object cannot be written after all, or if not all of them can be created: a name may be too
long, or a file stand in the way. So a write that fails does to a directory what creating the
sub-path of its object does and nothing else, and this shows exactly if that was missing.

## Key results

- `FileTree.makeDirectories_extends`: creating directories changes nothing that is there
- `FileTree.exists_find_of_missing`, `FileTree.makeDirectories_of_not_missing`: when a directory is
  created
- `Files.step_of_failed_write`: what a write that fails does to a directory
- `Files.leaves_of_failed_write`: what shows of it
-/

namespace Failover

open Store (Call)

/-- A call that writes the object of `path`, by `put` or by `append`. -/
inductive Store.Call.IsWrite (path : String) : Call → Prop where
  | put (text : String) : IsWrite path (.put path text)
  | append (text : String) : IsWrite path (.append path text)

/-! ## Paths -/

namespace Path

/-- No part that `split` gives has a slash in it. -/
theorem slash_not_mem_of_mem_split {cs seg : List Char} (h : seg ∈ split cs) : '/' ∉ seg := by
  induction cs generalizing seg with
  | nil =>
    rw [split, List.mem_singleton] at h
    rw [h]
    exact List.not_mem_nil
  | cons c cs ih =>
    rw [split] at h
    split at h
    · rcases List.mem_cons.1 h with rfl | h
      · exact List.not_mem_nil
      · exact ih h
    · next hc =>
      split at h
      · rw [List.mem_singleton.1 h]
        simpa using Ne.symm hc
      · -- The character goes to the front of the first part; the others are parts of the rest.
        next first rest heq =>
        rcases List.mem_cons.1 h with rfl | h
        · rw [List.mem_cons, not_or]
          exact ⟨Ne.symm hc, ih (by rw [heq]; exact List.mem_cons_self)⟩
        · exact ih (by rw [heq]; exact List.mem_cons_of_mem _ h)

/-- No name among the `segments` of a path has a slash in it. -/
theorem slash_not_mem_of_mem_segments {path seg : String} (h : seg ∈ segments path) :
    '/' ∉ seg.toList := by
  obtain ⟨cs, hcs, rfl⟩ := List.mem_map.1 h
  rw [String.toList_ofList]
  exact slash_not_mem_of_mem_split hcs

/-- Names without a slash are the `segments` of a path. -/
theorem exists_segments_eq {names : List String} (hne : names ≠ [])
    (hnames : ∀ name ∈ names, '/' ∉ name.toList) : ∃ path, segments path = names := by
  induction names with
  | nil => exact absurd rfl hne
  | cons name names ih =>
    rw [List.forall_mem_cons] at hnames
    cases names with
    | nil => exact ⟨name, segments_of_not_mem hnames.1⟩
    | cons next rest =>
      -- The path of the rest, with the first name and a slash in front.
      obtain ⟨path, hpath⟩ := ih (by simp) hnames.2
      refine ⟨object name path, ?_⟩
      rw [segments_object, segments_of_not_mem hnames.1, hpath]
      rfl

end Path

/-! ## Creating directories -/

namespace FileTree

variable {t u v : FileTree} {dir names path q : List String}

/-- `u` differs from the earlier tree `t` in that some directories on the way to `path` are new. -/
def Extends (u t : FileTree) (path : List String) : Prop :=
  ∀ q, u.entries.get? q = t.entries.get? q ∨
    (q <+: path ∧ t.entries.get? q = none ∧ u.entries.get? q = some .directory)

namespace Extends

protected theorem refl (t : FileTree) (path : List String) : t.Extends t path := fun _ => .inl rfl

/-- `Extends` is transitive, for the same path. -/
protected theorem trans (hvu : v.Extends u path) (hut : u.Extends t path) : v.Extends t path := by
  intro q
  rcases hvu q with hv | ⟨hq, hnone, hv⟩
  · rw [hv]
    exact hut q
  · rcases hut q with hu | ⟨-, -, hu⟩
    · exact .inr ⟨hq, hu ▸ hnone, hv⟩
    · cases hnone.symm.trans hu

/-- A directory stays one in a tree that `Extends` the earlier one. -/
theorem eq_directory (h : u.Extends t path) (hdir : t.entries.get? dir = some .directory) :
    u.entries.get? dir = some .directory := by
  rcases h dir with hu | ⟨-, -, hu⟩
  · rw [hu, hdir]
  · exact hu

end Extends

/-- To `insert` a directory on the way where nothing was is to extend the tree. -/
theorem extends_insert_directory (hdir : dir <+: path) (hnone : t.entries.get? dir = none) :
    Extends ⟨t.entries.insert dir .directory⟩ t path := by
  intro q
  by_cases hq : q = dir
  · rw [hq]
    exact .inr ⟨hdir, hnone, by simp⟩
  · exact .inl (by rw [SortedMap.get?_insert, if_neg hq])

/-- `makeBelow` only creates directories on the way. -/
private theorem makeBelow_extends (t : FileTree) (dir names : List String) :
    (t.makeBelow dir names).2.Extends t (dir ++ names) := by
  -- On the names still to come. `hnext` is the rest of the way once this directory is there.
  induction names generalizing t dir with
  | nil =>
    rw [makeBelow]
    split
    · exact Extends.refl _ _
    · exact Extends.refl _ _
    · next hnone => exact extends_insert_directory (List.prefix_append ..) hnone
  | cons name names ih =>
    have hnext (v : FileTree) : (if maxName < name.utf8ByteSize then (.error .nameTooLong, v)
        else v.makeBelow (dir ++ [name]) names).2.Extends v (dir ++ name :: names) := by
      split
      · exact Extends.refl _ _
      · have hbelow := ih v (dir ++ [name])
        rwa [List.append_assoc, List.singleton_append] at hbelow
    rw [makeBelow]
    split
    · exact Extends.refl _ _
    · exact hnext t
    · next hnone =>
      exact (hnext _).trans (extends_insert_directory (List.prefix_append ..) hnone)

/-- `makeDirectories` creates directories on the way, and changes nothing that was there. -/
theorem makeDirectories_extends (t : FileTree) (path : List String) :
    (t.makeDirectories path).2.Extends t path := by
  rw [makeDirectories]
  split
  · exact Extends.refl _ _
  · exact t.makeBelow_extends [] path

/-- Where nothing was, `makeBelow` leaves a directory. -/
private theorem get?_makeBelow_of_none (hnone : t.entries.get? dir = none) (names : List String) :
    (t.makeBelow dir names).2.entries.get? dir = some .directory := by
  cases names with
  | nil =>
    rw [makeBelow, entry?, hnone]
    simp
  | cons name names =>
    rw [makeBelow, entry?, hnone]
    dsimp only
    split
    · simp
    · exact Extends.eq_directory (makeBelow_extends _ _ _) (by simp)

/-- A `walk` to a directory that has been created found nothing before and finds the directory now.
-/
private theorem exists_walk_of_none (hnone : t.entries.get? dir = none) (names : List String) :
    ∃ pre, pre <+: names ∧ t.walk dir pre = .error .missing ∧
      (t.makeBelow dir names).2.walk dir pre = .ok .directory := by
  have hmade := get?_makeBelow_of_none hnone names
  exact ⟨[], List.nil_prefix, by simp [walk, entry?, hnone], by simp [walk, entry?, hmade]⟩

/-- If a `walk` ends at something missing, then `makeBelow` creates a directory on its way. -/
private theorem exists_walk_of_missing (h : t.walk dir names = .error .missing) :
    ∃ pre, pre <+: names ∧ t.walk dir pre = .error .missing ∧
      (t.makeBelow dir names).2.walk dir pre = .ok .directory := by
  induction names generalizing dir with
  | nil =>
    rw [walk] at h
    split at h
    · cases h
    · next hnone => exact exists_walk_of_none hnone []
  | cons name names ih =>
    rw [walk] at h
    split at h
    · next hnone => exact exists_walk_of_none hnone _
    · cases h
    · next hentry =>
      have hentry : t.entries.get? dir = some .directory := hentry
      split at h
      · cases h
      · next hname =>
        have hmake : t.makeBelow dir (name :: names) = t.makeBelow (dir ++ [name]) names := by
          rw [makeBelow, entry?, hentry]
          dsimp only
          rw [if_neg hname]
        have hdir := (t.makeBelow_extends dir (name :: names)).eq_directory hentry
        -- The walk goes on below the directory, in both trees.
        obtain ⟨pre, hpre, hbefore, hafter⟩ := ih h
        rw [hmake] at hdir ⊢
        refine ⟨name :: pre, (List.prefix_cons_inj name).2 hpre, ?_, ?_⟩
        · rw [walk, entry?, hentry]
          dsimp only
          rw [if_neg hname, hbefore]
        · rw [walk, entry?, hdir]
          dsimp only
          rw [if_neg hname, hafter]

/-- If a `walk` finds nothing missing, then `makeBelow` creates nothing. -/
private theorem makeBelow_of_not_missing (h : t.walk dir names ≠ .error .missing) :
    (t.makeBelow dir names).2 = t := by
  -- The walk and the creation meet the same entries, so both go on or both stop here.
  induction names generalizing dir with
  | nil =>
    rw [walk] at h
    rw [makeBelow]
    split
    · rfl
    · rfl
    · next hnone =>
      rw [hnone] at h
      exact absurd rfl h
  | cons name names ih =>
    rw [walk] at h
    rw [makeBelow]
    split
    · rfl
    · next hentry =>
      rw [hentry] at h
      dsimp only at h
      split
      · rfl
      · next hname =>
        rw [if_neg hname] at h
        exact ih h
    · next hnone =>
      rw [hnone] at h
      exact absurd rfl h

/-- The sum in `pathSize` only grows. -/
private theorem le_foldl_pathSize (names : List String) (n : Nat) :
    n ≤ names.foldl (fun n name => n + name.utf8ByteSize + 1) n := by
  induction names generalizing n with
  | nil => exact Nat.le_refl n
  | cons name names ih =>
    have hrest := ih (n + name.utf8ByteSize + 1)
    rw [List.foldl_cons]
    omega

/-- `checkPath` takes every part of a path that it takes. -/
theorem checkPath_of_prefix (hq : q <+: path) (h : checkPath path = .ok ()) :
    checkPath q = .ok () := by
  obtain ⟨rest, rfl⟩ := hq
  rw [checkPath] at h
  split at h
  · cases h
  · next hnul =>
    split at h
    · cases h
    · next hsize =>
      -- A part of a path has no more bytes than the whole, and no zero byte that the whole has not.
      have hle : pathSize q ≤ pathSize (q ++ rest) := by
        rw [pathSize, pathSize, List.foldl_append]
        exact le_foldl_pathSize rest _
      rw [List.any_append, Bool.or_eq_true, not_or] at hnul
      rw [checkPath, if_neg hnul.1, if_neg (by omega)]

/-- If `find` finds something missing, then `makeDirectories` creates a directory that was missing
before and is found now. -/
theorem exists_find_of_missing (h : t.find path = .error .missing) :
    ∃ q, q <+: path ∧ t.find q = .error .missing ∧
      (t.makeDirectories path).2.find q = .ok .directory := by
  rw [find] at h
  rw [makeDirectories]
  cases hcheck : checkPath path with
  | error e =>
    rw [hcheck] at h
    cases h
  | ok =>
    rw [hcheck] at h
    obtain ⟨q, hq, hbefore, hafter⟩ := exists_walk_of_missing h
    -- The path passes its check, so the part of it that was missing does too.
    have hcheckq := checkPath_of_prefix hq hcheck
    exact ⟨q, hq, by rw [find, hcheckq]; exact hbefore, by rw [find, hcheckq]; exact hafter⟩

/-- If `find` finds nothing missing, then `makeDirectories` creates nothing. -/
theorem makeDirectories_of_not_missing (h : t.find path ≠ .error .missing) :
    (t.makeDirectories path).2 = t := by
  rw [find] at h
  rw [makeDirectories]
  cases hcheck : checkPath path with
  | error e => rfl
  | ok =>
    rw [hcheck] at h
    exact makeBelow_of_not_missing h

/-! ## Writes that fail -/

/-- A `writeFile` that fails leaves the tree as it was. -/
private theorem writeFile_eq_error {change : Option FileEntry → Option String} {e : IoError}
    (h : t.writeFile path change = (.error e, u)) : u = t := by
  rw [writeFile] at h
  split at h <;> cases h <;> rfl

/-- A `put` that fails leaves what `makeDirectories` for its object leaves. -/
theorem eq_of_put_eq_error {text : String} {e : IoError}
    (h : Files.put t path text = (.error e, u)) : u = (t.makeDirectories path.dropLast).2 := by
  rw [Files.put] at h
  split at h
  · next hmake =>
    cases h
    rw [hmake]
  · -- The directories are there; the temporary file or the object itself is refused.
    next hmake =>
    rw [hmake]
    split at h
    · cases h
      rfl
    · exact writeFile_eq_error h

/-- An `append` that fails leaves what `makeDirectories` for its object leaves. -/
theorem eq_of_append_eq_error {text : String} {e : IoError}
    (h : Files.append t path text = (.error e, u)) : u = (t.makeDirectories path.dropLast).2 := by
  rw [Files.append] at h
  split at h
  · next hmake =>
    cases h
    rw [hmake]
  · next hmake =>
    rw [hmake]
    exact writeFile_eq_error h

end FileTree

namespace Files

/-- The answers of `step` to calls through handles on one directory. -/
def answers : List (String × Call) → Files → List ((c : Call) × Except StoreError c.Answer)
  | [], _ => []
  | (handle, c) :: cs, f => ⟨c, (step handle c f).1⟩ :: answers cs (step handle c f).2

/-- What shows of a failed write to the object `p`, between the directory `f` before and `g` after
it. -/
structure Leaves (p : String) (f g : Files) : Prop where
  handles_eq : g.handles = f.handles
  /-- Whatever was there is as before; new are only directories on the way to the object. -/
  tree_extends : g.tree.Extends f.tree (Path.segments p).dropLast
  /-- The directory is as if the sub-path of the object had been created instead. -/
  eq_createSubPath : ∀ s n handle, p = Path.object s n → '/' ∉ n.toList →
    g = (step handle (.createSubPath s) f).2
  /-- All calls are answered as if nothing had been done, exactly if the directory of the object was
  not missing before. -/
  answers_eq_iff : (∀ cs, answers cs g = answers cs f) ↔
    f.tree.find (Path.segments p).dropLast ≠ .error .missing

variable {f : Files} {handle p : String} {c : Call} {e : StoreError}

/-- A call that `IsWrite` and fails leaves the directories above its object, and nothing else. -/
theorem step_of_failed_write (hc : c.IsWrite p) (h : (step handle c f).1 = .error e) :
    (step handle c f).2 =
      { f with tree := (f.tree.makeDirectories (Path.segments p).dropLast).2 } := by
  cases hc with
  -- The parent is created first, and what fails afterwards leaves the tree as it is then.
  | put text =>
    cases hput : put f.tree (Path.segments p) text with
    | mk r u =>
      rw [step, hput] at h ⊢
      cases r with
      | ok => cases h
      | error cause => rw [withTree, FileTree.eq_of_put_eq_error hput]
  | append text =>
    cases happend : append f.tree (Path.segments p) text with
    | mk r u =>
      rw [step, happend] at h ⊢
      cases r with
      | ok => cases h
      | error cause => rw [withTree, FileTree.eq_of_append_eq_error happend]

/-- Equal `answers` to one call are equal answers of `step`. -/
private theorem step_eq_of_answers_eq {f g : Files}
    (h : answers [(handle, c)] g = answers [(handle, c)] f) :
    (step handle c g).1 = (step handle c f).1 :=
  eq_of_heq (Sigma.mk.inj (List.cons.inj h).1).2

/-- `lastModified` of a path where something is missing is unknown. -/
private theorem lastModified_of_missing (h : f.tree.find (Path.segments p) = .error .missing) :
    (step handle (.lastModified p) f).1 = .ok false := by
  rw [step, h]

/-- `lastModified` of a path where an entry is found is known. -/
private theorem lastModified_of_ok {entry : FileEntry}
    (h : f.tree.find (Path.segments p) = .ok entry) :
    (step handle (.lastModified p) f).1 = .ok true := by
  rw [step, h]

/-- A name of `n` letters. -/
def letters (n : Nat) : String := String.ofList (List.replicate n 'x')

private theorem toList_letters (n : Nat) : (letters n).toList = List.replicate n 'x' :=
  String.toList_ofList

private theorem utf8ByteSize_letters (n : Nat) : (letters n).utf8ByteSize = n := by
  rw [letters]
  induction n with
  | zero => rfl
  | succ n ih =>
    rw [List.replicate_succ', String.ofList_append, String.utf8ByteSize_append, ih]
    rfl

private theorem segments_letters (n : Nat) : Path.segments (letters n) = [letters n] := by
  refine Path.segments_of_not_mem ?_
  rw [toList_letters, List.mem_replicate]
  exact fun h => absurd h.2 (by decide)

private theorem nul_not_mem_letters (n : Nat) : '\x00' ∉ (letters n).toList := by
  rw [toList_letters, List.mem_replicate]
  exact fun h => absurd h.2 (by decide)

/-- Short paths of `letters` pass `checkPath`. -/
private theorem checkPath_letters {n : Nat} (hn : n < 4000) {path : List String}
    (hpath : path = [letters n] ∨ path = ["a", letters n]) : FileTree.checkPath path = .ok () := by
  have hnul := nul_not_mem_letters n
  have ha : "a".utf8ByteSize = 1 := rfl
  have hsize : FileTree.pathSize path ≤ FileTree.maxPath := by
    rw [FileTree.maxPath]
    rcases hpath with rfl | rfl <;>
      simp only [FileTree.pathSize, List.foldl_cons, List.foldl_nil, utf8ByteSize_letters] <;> omega
  rw [FileTree.checkPath, if_neg, if_neg (by omega)]
  rcases hpath with rfl | rfl <;> simpa using hnul

/-- Below a root that is there, a name of 256 `letters` is too long. -/
private theorem lastModified_letters (h : f.tree.entries.get? [] = some .directory) :
    (step handle (.lastModified (letters 256)) f).1 = .error (.io .nameTooLong) := by
  have hfind : f.tree.find [letters 256] = .error (.io .nameTooLong) := by
    rw [FileTree.find, checkPath_letters (by omega) (.inl rfl)]
    dsimp only
    rw [FileTree.walk, FileTree.entry?, h]
    dsimp only
    rw [if_pos (by rw [utf8ByteSize_letters]; decide)]
  rw [step, segments_letters, hfind]

/-- Where there is no root, a name of 256 `letters` is just missing. -/
private theorem lastModified_letters_of_none (h : f.tree.entries.get? [] = none) :
    (step handle (.lastModified (letters 256)) f).1 = .ok false := by
  refine lastModified_of_missing ?_
  rw [segments_letters, FileTree.find, checkPath_letters (by omega) (.inl rfl)]
  dsimp only
  rw [FileTree.walk, FileTree.entry?, h]

/-- A directory that is new shows in some `answers` about times of modification. -/
private theorem exists_answers_ne {f g : Files} {q : List String}
    (hnames : ∀ name ∈ q, '/' ∉ name.toList) (hbefore : f.tree.find q = .error .missing)
    (hafter : g.tree.find q = .ok .directory) : ∃ cs, answers cs g ≠ answers cs f := by
  cases q with
  | nil =>
    have hnone : f.tree.entries.get? [] = none := by
      have hwalk : f.tree.walk [] [] = .error .missing := hbefore
      rw [FileTree.walk, FileTree.entry?] at hwalk
      split at hwalk
      · cases hwalk
      · assumption
    -- The new directory is the root, which no path names. It shows in that an overlong name below
    -- it is now refused.
    refine ⟨[("", .lastModified (letters 256))], fun hsame => ?_⟩
    have hsame := step_eq_of_answers_eq hsame
    rw [lastModified_letters (FileTree.get?_of_find_eq_ok hafter),
      lastModified_letters_of_none hnone] at hsame
    cases hsame
  | cons name names =>
    -- Any other directory has a path of its own, whose time of modification can be asked for.
    obtain ⟨p, hp⟩ := Path.exists_segments_eq (List.cons_ne_nil name names) hnames
    rw [← hp] at hbefore hafter
    refine ⟨[("", .lastModified p)], fun hsame => ?_⟩
    have hsame := step_eq_of_answers_eq hsame
    rw [lastModified_of_missing hbefore, lastModified_of_ok hafter] at hsame
    cases hsame

/-- A write that fails `Leaves` the object's directories and nothing else. -/
theorem leaves_of_failed_write (hp : Path.isValid p = true) (hc : c.IsWrite p)
    (h : (step handle c f).1 = .error e) : Leaves p f (step handle c f).2 := by
  rw [step_of_failed_write hc h]
  have hextends := f.tree.makeDirectories_extends (Path.segments p).dropLast
  refine ⟨rfl, hextends, ?_, ?_⟩
  · rintro s n handle rfl hn
    rw [Path.isValid_object, Bool.and_eq_true] at hp
    rw [step, if_pos hp.1, Path.segments_object, Path.segments_of_not_mem hn, List.dropLast_concat]
    rfl
  · constructor
    · intro hsame hmissing
      -- If a directory was missing, one has been created, and some answer tells.
      obtain ⟨q, hq, hbefore, hafter⟩ := FileTree.exists_find_of_missing hmissing
      have hnames : ∀ name ∈ q, '/' ∉ name.toList := fun name hname =>
        Path.slash_not_mem_of_mem_segments (List.dropLast_subset _ (hq.subset hname))
      obtain ⟨cs, hne⟩ := exists_answers_ne (g := { f with tree := _ }) hnames hbefore hafter
      exact hne (hsame cs)
    · intro hthere cs
      rw [FileTree.makeDirectories_of_not_missing hthere]

/-- A directory that has been prepared by `step`, with nothing in it. -/
def fresh : Files := (step "h" (.prepare .auto) {}).2

/-- A path whose last name, of 224 `letters`, leaves no room for a temporary file. -/
def overlong : String := Path.object "a" (letters 224)

private theorem isValid_letters (n : Nat) : Path.isValid (letters (n + 1)) = true := by
  have hslash : '/' ∉ (letters (n + 1)).toList := by
    rw [toList_letters, List.mem_replicate]
    exact fun h => absurd h.2 (by decide)
  have hback : (List.replicate (n + 1) 'x').contains '\\' = false := by
    simp [List.mem_replicate]
  rw [Path.isValid, Path.split_of_not_mem hslash, toList_letters, hback]
  rfl

private theorem isValid_overlong : Path.isValid overlong = true := by
  rw [overlong, Path.isValid_object, isValid_letters 223]
  rfl

/-- `put` may refuse a name as too long for a temporary file although its directory is created. -/
private theorem put_of_lt {t u : FileTree} {dir name text : String}
    (hmake : t.makeDirectories [dir] = (.ok (), u))
    (hcheck : FileTree.checkPath [dir, name] = .ok ())
    (hlt : FileTree.maxName < name.utf8ByteSize + temporaryExtra) :
    put t [dir, name] text = (.error .nameTooLong, u) := by
  have hlast : FileTree.maxName < ([dir, name].getLast?.getD "").utf8ByteSize + temporaryExtra :=
    hlt
  -- The name is one that may be opened, but the temporary file has a longer one.
  have hroom : checkTemporary [dir, name] = .error .nameTooLong := by
    rw [checkTemporary, hcheck]
    dsimp only
    rw [if_pos hlast]
  rw [put, List.dropLast_cons_cons, List.dropLast_singleton, hmake]
  dsimp only
  rw [hroom]

private theorem segments_overlong : Path.segments overlong = ["a", letters 224] := by
  rw [overlong, Path.segments_object, segments_letters]
  rfl

/-- A `put` at `overlong` is refused. -/
private theorem put_overlong :
    (step "h" (.put overlong "") fresh).1 = .error (.io .nameTooLong) := by
  have hlt : FileTree.maxName < (letters 224).utf8ByteSize + temporaryExtra := by
    rw [utf8ByteSize_letters]
    decide
  have hmake : fresh.tree.makeDirectories ["a"] =
      (.ok (), (fresh.tree.makeDirectories ["a"]).2) := rfl
  rw [step, segments_overlong, put_of_lt hmake (checkPath_letters (by omega) (.inr rfl)) hlt]
  rfl

/-- The directory left by a `put` at `overlong` is in the way of an object that could have been
stored. -/
theorem leaves_of_put_overlong :
    (step "h" (.put overlong "") fresh).1 = .error (.io .nameTooLong) ∧
    Leaves overlong fresh (step "h" (.put overlong "") fresh).2 ∧
    answers [("h", .put "a" "")] (step "h" (.put overlong "") fresh).2 =
      [⟨.put "a" "", .error (.io .isDirectory)⟩] ∧
    answers [("h", .put "a" "")] fresh = [⟨.put "a" "", .ok ()⟩] := by
  have hleaves := leaves_of_failed_write isValid_overlong (.put "") put_overlong
  refine ⟨put_overlong, hleaves, ?_, rfl⟩
  rw [step_of_failed_write (.put "") put_overlong, segments_overlong, List.dropLast_cons_cons,
    List.dropLast_singleton]
  rfl

end Files

end Failover
