import Failover.Proofs.SortedMap
import Failover.Proofs.Store.InStep
import Mathlib.Data.List.Nodup

/-!
# What a memory answers to the persisters

A memory is looked at sub-path by sub-path: `Memory.text? m subPath name` is the text that a listing
of the sub-path leads to. Reading, writing and removing stored objects is then said in terms of
these texts.

## Key results

- `Path.object_eq_object`: the path of an object tells its sub-path and name apart
- `Memory.mem_namesUnder`: a name is listed if there is a text for it
- `Memory.run_write_eq_ok`, `Memory.run_remove_eq_ok`: what a write and a removal that succeed have
  done
- `Memory.run_foldObjects`: going through the objects of a sub-path is a fold over its contents
- `Memory.run_foldKinds`: going through the objects of all kinds is a fold over all stored objects
-/

namespace Failover

/-! ## Paths -/

namespace Path

theorem toList_object (subPath name : String) :
    (object subPath name).toList = subPath.toList ++ '/' :: name.toList := by
  simp [object]

/-- `split` leaves a text without a slash as it is. -/
theorem split_of_not_mem {cs : List Char} (h : '/' ∉ cs) : split cs = [cs] := by
  induction cs with
  | nil => rfl
  | cons c cs ih =>
    rw [List.mem_cons, not_or] at h
    rw [split, if_neg (Ne.symm h.1), ih h.2]

/-- The `segments` of a name without a slash are that name. -/
theorem segments_of_not_mem {s : String} (h : '/' ∉ s.toList) : segments s = [s] := by
  rw [segments, split_of_not_mem h]
  simp

/-- `nameUnder?` finds the name of a path that is an object directly below the sub-path. -/
theorem nameUnder?_eq_some {subPath path name : String} :
    nameUnder? subPath path = some name ↔ path = object subPath name ∧ '/' ∉ name.toList := by
  simp only [nameUnder?]
  constructor
  · intro h
    split at h
    · next hpre =>
      obtain ⟨rest, hrest⟩ := List.isPrefixOf_iff_prefix.1 hpre
      rw [← hrest, List.drop_left] at h
      split at h
      · cases h
      · -- Behind the sub-path and the slash there is the name, and nothing below it.
        next hslash =>
        cases h
        refine ⟨String.toList_inj.1 ?_, by simpa using hslash⟩
        rw [toList_object, ← hrest]
        simp
    · cases h
  · rintro ⟨rfl, hslash⟩
    have hpre : (subPath.toList ++ ['/']).isPrefixOf (object subPath name).toList = true := by
      rw [List.isPrefixOf_iff_prefix, toList_object]
      exact ⟨name.toList, by simp⟩
    have hdrop :
        (object subPath name).toList.drop (subPath.toList ++ ['/']).length = name.toList := by
      rw [toList_object, List.append_cons subPath.toList '/' name.toList, List.drop_left]
    rw [if_pos hpre, hdrop, if_neg (by simpa using hslash), String.ofList_toList]

/-- Objects below one sub-path with one path have one name. -/
theorem object_right_inj {subPath a b : String} (h : object subPath a = object subPath b) :
    a = b := by
  have h := congrArg String.toList h
  rw [toList_object, toList_object, List.append_cancel_left_eq] at h
  exact String.toList_inj.1 (List.cons.inj h).2

/-- Where neither sub-path holds a slash, the path of an `object` tells both apart. -/
theorem object_eq_object {s t a b : String} (hs : '/' ∉ s.toList) (ht : '/' ∉ t.toList) :
    object s a = object t b ↔ s = t ∧ a = b := by
  constructor
  · intro h
    have hl := congrArg String.toList h
    rw [toList_object, toList_object] at hl
    -- The sub-path is what stands before the first slash.
    have hst : s.toList = t.toList := by
      have htake (u v : List Char) (hu : '/' ∉ u) :
          (u ++ '/' :: v).takeWhile (fun c => c ≠ '/') = u := by
        have hne : ∀ c ∈ u, decide (c ≠ '/') = true := by
          intro c hc
          refine decide_eq_true fun h => hu ?_
          rwa [← h]
        rw [List.takeWhile_append_of_pos hne]
        simp
      rw [← htake s.toList a.toList hs, ← htake t.toList b.toList ht, hl]
    obtain rfl := String.toList_inj.1 hst
    exact ⟨rfl, object_right_inj h⟩
  · rintro ⟨rfl, rfl⟩
    rfl

/-- The path of an `object` is valid if its sub-path and its name are. -/
theorem isValid_object (subPath name : String) :
    isValid (object subPath name) = (isValid subPath && isValid name) := by
  simp only [isValid, toList_object, split_append, List.all_append, List.contains_append,
    List.contains_cons]
  have hslash : ('\\' == '/') = false := by decide
  rw [hslash, Bool.false_or, Bool.not_or]
  cases subPath.toList.contains '\\' <;> cases name.toList.contains '\\' <;> simp

/-- A segment `isSingle` if it is valid and has no slash. -/
theorem isSingle_iff {seg : String} :
    isSingle seg = true ↔ isValid seg = true ∧ '/' ∉ seg.toList := by
  simp [isSingle]

end Path

theorem Kind.isValid_subPath (k : Kind) : Path.isValid k.subPath = true := by
  cases k <;> decide

theorem Kind.slash_not_mem_subPath (k : Kind) : '/' ∉ k.subPath.toList := by
  cases k <;> decide

/-- Different kinds have different values of `subPath`. -/
theorem Kind.subPath_inj {k l : Kind} (h : k.subPath = l.subPath) : k = l := by
  cases k <;> cases l <;> first | rfl | exact absurd h (by decide)

theorem Kind.mem_all (k : Kind) : k ∈ all := by
  cases k <;> decide

/-! ## Contents -/

namespace Memory

/-- The text of the object `name` directly below `subPath`. -/
def text? (m : Memory) (subPath name : String) : Option String :=
  if '/' ∈ name.toList then none else m.files.get? (Path.object subPath name)

/-- `text?` finds what is filed at the path of an object without a slash in its name. -/
theorem text?_eq_some {m : Memory} {subPath name text : String} :
    m.text? subPath name = some text ↔
      '/' ∉ name.toList ∧ m.files.get? (Path.object subPath name) = some text := by
  by_cases h : '/' ∈ name.toList <;> simp [text?, h]

/-- `text?` of a name without a slash looks at the path of the object. -/
theorem text?_of_not_mem (m : Memory) {name : String} (h : '/' ∉ name.toList) (subPath : String) :
    m.text? subPath name = m.files.get? (Path.object subPath name) := if_neg h

/-- A memory that has just been `prepared` has no texts. -/
@[simp] theorem text?_prepared (subPath name : String) : prepared.text? subPath name = none := by
  rw [text?]
  split <;> rfl

/-- A name is among `namesUnder` a sub-path if `text?` has a text for it. -/
theorem mem_namesUnder {m : Memory} {subPath name : String} :
    name ∈ m.namesUnder subPath ↔ (m.text? subPath name).isSome := by
  simp only [namesUnder, List.mem_filterMap, SortedMap.mem_keys, Path.nameUnder?_eq_some]
  constructor
  · rintro ⟨path, hpath, rfl, hslash⟩
    rwa [text?_of_not_mem m hslash]
  · intro h
    obtain ⟨text, htext⟩ := Option.isSome_iff_exists.1 h
    obtain ⟨hslash, hget⟩ := text?_eq_some.1 htext
    exact ⟨_, by rw [hget]; rfl, rfl, hslash⟩

/-- `namesUnder` lists every name once, since different paths have different names. -/
theorem nodup_namesUnder (m : Memory) (subPath : String) : (m.namesUnder subPath).Nodup := by
  refine List.Pairwise.filterMap _ ?_ m.files.nodup_keys
  rintro p q hne a ha b hb rfl
  exact hne ((Path.nameUnder?_eq_some.1 ha).1.trans (Path.nameUnder?_eq_some.1 hb).1.symm)

/-- The objects directly below `subPath`, as a listing leads to them. -/
def contents (m : Memory) (subPath : String) : List (String × String) :=
  (m.namesUnder subPath).filterMap fun name => (m.text? subPath name).map (name, ·)

/-- The `contents` pair each name with its `text?`. -/
theorem mem_contents {m : Memory} {subPath name text : String} :
    (name, text) ∈ m.contents subPath ↔ m.text? subPath name = some text := by
  simp only [contents, List.mem_filterMap, mem_namesUnder, Option.map_eq_some_iff, Prod.mk.injEq]
  constructor
  · rintro ⟨_, -, _, h, rfl, rfl⟩
    exact h
  · intro h
    exact ⟨name, by rw [h]; rfl, text, h, rfl, rfl⟩

/-- The `contents` have every name once. -/
theorem nodup_contents (m : Memory) (subPath : String) :
    ((m.contents subPath).map (·.1)).Nodup := by
  have hnames : ((m.namesUnder subPath).map id).Nodup := by
    rw [List.map_id]
    exact m.nodup_namesUnder subPath
  refine nodup_map_filterMap (fun name _ e he => ?_) hnames
  obtain ⟨_, -, rfl⟩ := Option.map_eq_some_iff.1 he
  rfl

/-- `subPath` is open if the memory `m` has been prepared and every name listed there can be opened.
-/
structure IsOpen (m : Memory) (subPath : String) : Prop where
  isPrepared : m.isPrepared = true
  isValid : Path.isValid subPath = true
  isValid_object : ∀ name ∈ m.namesUnder subPath, Path.isValid (Path.object subPath name) = true

/-- The memory `m` with the one text at `path` replaced. -/
def put (m : Memory) (path text : String) : Memory := { m with files := m.files.insert path text }

/-- The memory `m` without the text at `path`. -/
def drop (m : Memory) (path : String) : Memory := { m with files := m.files.erase path }

/-- Memories that are prepared alike and hold the same `files` are the same. -/
theorem ext_get? {m n : Memory} (hprepared : m.isPrepared = n.isPrepared)
    (hfiles : ∀ path, m.files.get? path = n.files.get? path) : m = n := by
  obtain ⟨files, isPrepared⟩ := m
  obtain ⟨files', isPrepared'⟩ := n
  obtain rfl : files = files' := SortedMap.ext_get? hfiles
  obtain rfl : isPrepared = isPrepared' := hprepared
  rfl

/-- What the `files` hold after a `put`. -/
@[simp] theorem get?_files_put (m : Memory) (path text q : String) :
    (m.put path text).files.get? q = if q = path then some text else m.files.get? q :=
  SortedMap.get?_insert ..

/-- What the `files` hold after a `drop`. -/
@[simp] theorem get?_files_drop (m : Memory) (path q : String) :
    (m.drop path).files.get? q = if q = path then none else m.files.get? q :=
  SortedMap.get?_erase ..

/-- An object that is `put` under a name without a slash is seen by `text?` at that name only. -/
theorem text?_put (m : Memory) {name : String} (h : '/' ∉ name.toList) (subPath text q : String) :
    (m.put (Path.object subPath name) text).text? subPath q =
      if q = name then some text else m.text? subPath q := by
  by_cases hq : q = name
  · rw [if_pos hq, hq, text?_of_not_mem _ h, get?_files_put, if_pos rfl]
  · have hne : Path.object subPath q ≠ Path.object subPath name :=
      fun heq => hq (Path.object_right_inj heq)
    rw [if_neg hq, text?, text?, get?_files_put, if_neg hne]

/-- An object that is `drop`ped is not seen by `text?` any more, and the others are. -/
theorem text?_drop (m : Memory) (subPath name q : String) :
    (m.drop (Path.object subPath name)).text? subPath q =
      if q = name then none else m.text? subPath q := by
  by_cases hq : q = name
  · rw [if_pos hq, hq, text?, get?_files_drop, if_pos rfl, ite_self]
  · have hne : Path.object subPath q ≠ Path.object subPath name :=
      fun heq => hq (Path.object_right_inj heq)
    rw [if_neg hq, text?, text?, get?_files_drop, if_neg hne]

/-- A sub-path that `IsOpen` stays so if an object is `put` there that can be opened. -/
theorem IsOpen.put {m : Memory} {subPath : String} (h : m.IsOpen subPath) {name : String}
    (hname : Path.isSingle name = true) (text : String) :
    (m.put (Path.object subPath name) text).IsOpen subPath := by
  obtain ⟨hvalid, hslash⟩ := Path.isSingle_iff.1 hname
  refine ⟨h.isPrepared, h.isValid, fun q hq => ?_⟩
  rw [mem_namesUnder, text?_put m hslash] at hq
  split at hq
  · next heq =>
    rw [heq, Path.isValid_object, h.isValid, hvalid]
    rfl
  · exact h.isValid_object q (mem_namesUnder.2 hq)

/-- A sub-path that `IsOpen` stays so if an object is dropped. -/
theorem IsOpen.drop {m : Memory} {subPath : String} (h : m.IsOpen subPath) (name : String) :
    (m.drop (Path.object subPath name)).IsOpen subPath := by
  refine ⟨h.isPrepared, h.isValid, fun q hq => ?_⟩
  rw [mem_namesUnder, text?_drop] at hq
  split at hq
  · cases hq
  · exact h.isValid_object q (mem_namesUnder.2 hq)

/-! ## Calls -/

/-- `check` succeeds for a valid path in a memory that has been prepared. -/
theorem check_eq_ok {m : Memory} {path : String} :
    m.check path = .ok () ↔ Path.isValid path = true ∧ m.isPrepared = true := by
  cases hv : Path.isValid path <;> cases hp : m.isPrepared <;> simp [check, hv, hp]

/-- `Stored.list` succeeds where `check` does, and lists `namesUnder` the sub-path. -/
theorem run_list_eq_ok {m n : Memory} {subPath : String} {names : List String} :
    (Stored.list store subPath).run m = (.ok names, n) ↔
      (Path.isValid subPath = true ∧ m.isPrepared = true) ∧
        names = m.namesUnder subPath ∧ n = m := by
  rw [← check_eq_ok]
  refine Action.run_mapError_eq_ok.trans ?_
  show ((m.check subPath).map fun _ => m.namesUnder subPath, m) = _ ↔ _
  cases m.check subPath with
  | error e => simp [Except.map]
  | ok => simp [Except.map, eq_comm]

/-- `Stored.create` succeeds for a valid sub-path and does nothing. -/
theorem run_create_eq_ok {m n : Memory} {subPath : String} :
    (Stored.create store subPath).run m = (.ok (), n) ↔ Path.isValid subPath = true ∧ n = m := by
  refine Action.run_mapError_eq_ok.trans ?_
  show (if Path.isValid subPath then Except.ok () else .error _, m) = _ ↔ _
  cases Path.isValid subPath <;> simp [eq_comm]

/-- A call on an object that is opened for it succeeds where `check` and its own `step` do. -/
private theorem run_opened_eq_ok {m n : Memory} {path : String} {c : Store.Call} {a : c.Answer} :
    ((store.call (.openObject path) >>= fun _ => store.call c).mapError
      (PersistenceError.ofStore path)).run m = (.ok a, n) ↔
      (Path.isValid path = true ∧ m.isPrepared = true) ∧ step c m = (.ok a, n) := by
  rw [← check_eq_ok, Action.run_mapError_eq_ok]
  -- To open an object is no more than to check its path.
  cases hc : m.check path with
  | error e =>
    have hopen : (store.call (.openObject path)).run m = (.error e, m) := Prod.ext hc rfl
    rw [Action.run_bind_of_error hopen]
    simp
  | ok =>
    have hopen : (store.call (.openObject path)).run m = (.ok (), m) := Prod.ext hc rfl
    rw [Action.run_bind_of_ok hopen]
    exact (and_iff_right rfl).symm

/-- `Stored.read` succeeds where `check` does, and reads what is there. -/
theorem run_read_eq_ok {m n : Memory} {path : String} {text? : Option String} :
    (Stored.read store path).run m = (.ok text?, n) ↔
      (Path.isValid path = true ∧ m.isPrepared = true) ∧ text? = m.files.get? path ∧ n = m := by
  refine (run_opened_eq_ok (c := .get path)).trans (and_congr_right fun _ => ?_)
  simp [step, eq_comm]

/-- `Stored.write` succeeds where `check` does, and puts the text. -/
theorem run_write_eq_ok {m n : Memory} {path text : String} :
    (Stored.write store path text).run m = (.ok (), n) ↔
      (Path.isValid path = true ∧ m.isPrepared = true) ∧ n = m.put path text := by
  refine (run_opened_eq_ok (c := .put path text)).trans (and_congr_right fun _ => ?_)
  simp [step, put, eq_comm]

/-- `Stored.remove` succeeds where `check` does, and drops the text. -/
theorem run_remove_eq_ok {m n : Memory} {path : String} :
    (Stored.remove store path).run m = (.ok (), n) ↔
      (Path.isValid path = true ∧ m.isPrepared = true) ∧ n = m.drop path := by
  refine (run_opened_eq_ok (c := .delete path)).trans (and_congr_right fun _ => ?_)
  simp [step, drop, eq_comm]

/-- `Stored.each` of actions, each of which may fail for its own reason and else does its own
change, fails if one of them does and else makes all changes one after the other. -/
theorem run_each_eq_ok {β : Type} {act : β → Action Memory PersistenceError Unit}
    {can : β → Prop} {change : Memory → β → Memory}
    (hact : ∀ b m n, (act b).run m = (.ok (), n) ↔ (can b ∧ m.isPrepared = true) ∧ n = change m b)
    (hchange : ∀ m b, (change m b).isPrepared = m.isPrepared) {m n : Memory} {bs : List β} :
    (Stored.each act bs).run m = (.ok (), n) ↔
      (∀ b ∈ bs, can b ∧ m.isPrepared = true) ∧ n = bs.foldl change m := by
  induction bs generalizing m with
  | nil =>
    constructor
    · intro h
      obtain ⟨-, rfl⟩ := Prod.mk.inj h
      exact ⟨List.forall_mem_nil _, rfl⟩
    · rintro ⟨-, rfl⟩
      rfl
  | cons b bs ih =>
    rw [Stored.each, Action.run_bind_eq_ok]
    simp only [hact, ih, List.forall_mem_cons, List.foldl_cons]
    constructor
    · rintro ⟨_, _, ⟨hb, rfl⟩, hbs, hn⟩
      -- That the memory is prepared is asked of each action; no change spoils it.
      rw [hchange] at hbs
      exact ⟨⟨hb, hbs⟩, hn⟩
    · rintro ⟨⟨hb, hbs⟩, hn⟩
      refine ⟨(), _, ⟨hb, rfl⟩, ?_, hn⟩
      rwa [hchange]

/-! ## Going through stored objects -/

section Fold

variable {α : Type} {m n : Memory} {subPath : String} {acc a : α}

/-- `foldNames` over names that can be opened is a fold over those for which there is a text. -/
private theorem run_foldNames {take : α → String → String → Except PersistenceError α}
    (hm : m.isPrepared = true) {names : List String}
    (hnames : ∀ name ∈ names, Path.isValid (Path.object subPath name) = true) (acc : α) :
    (Stored.foldNames store subPath take acc names).run m =
      ((names.filterMap fun name => (m.files.get? (Path.object subPath name)).map (name, ·)).foldlM
        (fun a e => take a e.1 e.2) acc, m) := by
  induction names generalizing acc with
  | nil => rfl
  | cons name names ih =>
    rw [List.forall_mem_cons] at hnames
    rw [Stored.foldNames, Action.run_bind_of_ok (run_read_eq_ok.2 ⟨⟨hnames.1, hm⟩, rfl, rfl⟩)]
    cases hget : m.files.get? (Path.object subPath name) with
    -- What has gone since the listing is passed over.
    | none =>
      rw [List.filterMap_cons_none (by rw [hget]; rfl)]
      exact ih hnames.2 acc
    | some text =>
      rw [List.filterMap_cons_some (by rw [hget]; rfl), List.foldlM_cons]
      show (Action.lift (take acc name text) >>= fun acc =>
        Stored.foldNames store subPath take acc names).run m = _
      cases take acc name text with
      | error e => rfl
      | ok acc => exact (Action.run_bind_of_ok (Action.run_lift ..) _).trans (ih hnames.2 acc)

/-- `foldObjects` over a sub-path that `IsOpen` is a fold over its `contents`. -/
theorem run_foldObjects (h : m.IsOpen subPath)
    (take : α → String → String → Except PersistenceError α) (acc : α) :
    (Stored.foldObjects store subPath take acc).run m =
      ((m.contents subPath).foldlM (fun a e => take a e.1 e.2) acc, m) := by
  rw [Stored.foldObjects,
    Action.run_bind_of_ok (run_list_eq_ok.2 ⟨⟨h.isValid, h.isPrepared⟩, rfl, rfl⟩),
    run_foldNames h.isPrepared h.isValid_object]
  -- What is listed has no slash in it, so its text is what a read finds.
  have hcontents : m.contents subPath = (m.namesUnder subPath).filterMap fun name =>
      (m.files.get? (Path.object subPath name)).map (name, ·) := by
    refine List.filterMap_congr fun name hname => ?_
    obtain ⟨text, htext⟩ := Option.isSome_iff_exists.1 (mem_namesUnder.1 hname)
    rw [htext, (text?_eq_some.1 htext).2]
  rw [hcontents]

/-- If `foldNames` succeeds, every name could be opened. -/
private theorem isValid_of_foldNames_ok {take : α → String → String → Except PersistenceError α}
    {names : List String} (h : (Stored.foldNames store subPath take acc names).run m = (.ok a, n)) :
    ∀ name ∈ names, Path.isValid (Path.object subPath name) = true := by
  induction names generalizing acc with
  | nil => simp
  | cons name names ih =>
    rw [Stored.foldNames, Action.run_bind_eq_ok] at h
    obtain ⟨text?, t, hread, h⟩ := h
    obtain ⟨⟨hvalid, -⟩, -, rfl⟩ := run_read_eq_ok.1 hread
    refine List.forall_mem_cons.2 ⟨hvalid, ?_⟩
    -- Whether or not there is a text, the fold goes on with the rest of the names.
    cases text? with
    | none => exact ih h
    | some text =>
      obtain ⟨_, _, hlift, h⟩ := Action.run_bind_eq_ok.1 h
      obtain ⟨-, rfl⟩ := Prod.mk.inj ((Action.run_lift ..).symm.trans hlift)
      exact ih h

/-- If `foldObjects` succeeds, the sub-path `IsOpen`. -/
theorem isOpen_of_foldObjects_ok {take : α → String → String → Except PersistenceError α}
    (h : (Stored.foldObjects store subPath take acc).run m = (.ok a, n)) : m.IsOpen subPath := by
  rw [Stored.foldObjects, Action.run_bind_eq_ok] at h
  obtain ⟨names, t, hlist, h⟩ := h
  obtain ⟨⟨hvalid, hprepared⟩, rfl, rfl⟩ := run_list_eq_ok.1 hlist
  exact ⟨hprepared, hvalid, isValid_of_foldNames_ok h⟩

end Fold

/-! ## All stored objects -/

/-- All stored objects of all kinds, in the order in which `foldKinds` reads them. -/
def stored (m : Memory) : List (ObjectRef × String) :=
  Kind.all.flatMap fun k => (m.contents k.subPath).map fun e => (⟨k, e.1⟩, e.2)

/-- The text that is stored for the object `r`. -/
def storedText? (m : Memory) (r : ObjectRef) : Option String := m.text? r.kind.subPath r.id

/-- The objects that are `stored`, each with its `storedText?`. -/
theorem mem_stored {m : Memory} {r : ObjectRef} {text : String} :
    (r, text) ∈ m.stored ↔ m.storedText? r = some text := by
  simp only [stored, List.mem_flatMap, List.mem_map, Prod.exists, Prod.mk.injEq, storedText?]
  constructor
  · rintro ⟨k, -, name, _, h, rfl, rfl⟩
    exact mem_contents.1 h
  · intro h
    exact ⟨r.kind, r.kind.mem_all, r.id, text, mem_contents.2 h, rfl, rfl⟩

/-- `stored` lists every object once. -/
theorem nodup_stored (m : Memory) : (m.stored.map (·.1)).Nodup := by
  rw [stored, List.map_flatMap, List.nodup_flatMap]
  refine ⟨fun k _ => ?_, ?_⟩
  · rw [List.map_map]
    refine List.pairwise_map.2 ((List.pairwise_map.1 (m.nodup_contents k.subPath)).imp ?_)
    exact fun hne heq => hne (congrArg ObjectRef.id heq)
  · -- Objects of different kinds differ in their kind.
    refine List.Pairwise.imp ?_ (show Kind.all.Pairwise (· ≠ ·) by decide)
    intro k l hkl r hk hl
    simp only [List.map_map, List.mem_map] at hk hl
    obtain ⟨e, -, rfl⟩ := hk
    obtain ⟨e', -, heq⟩ := hl
    exact hkl (congrArg ObjectRef.kind heq).symm

section FoldKinds

variable {α : Type} {m n : Memory} {acc a : α}
  {take : Kind → α → String → String → Except PersistenceError α}

/-- `foldKinds` over sub-paths all of which are open is a fold over all that is `stored`. -/
theorem run_foldKinds (h : ∀ k : Kind, m.IsOpen k.subPath)
    (take : Kind → α → String → String → Except PersistenceError α) (acc : α) :
    (Stored.foldKinds store take Kind.all acc).run m =
      (m.stored.foldlM (fun a e => take e.1.kind a e.1.id e.2) acc, m) := by
  have hfold (ks : List Kind) (acc : α) : (Stored.foldKinds store take ks acc).run m =
      ((ks.flatMap fun k => (m.contents k.subPath).map fun e =>
        ((⟨k, e.1⟩, e.2) : ObjectRef × String)).foldlM
        (fun a e => take e.1.kind a e.1.id e.2) acc, m) := by
    -- On the kinds that are left; an error ends the reading.
    induction ks generalizing acc with
    | nil => rfl
    | cons k ks ih =>
      have hrun := run_foldObjects (h k) (take k) acc
      rw [List.flatMap_cons, List.foldlM_append, List.foldlM_map, Stored.foldKinds]
      cases hk : (m.contents k.subPath).foldlM (fun a e => take k a e.1 e.2) acc with
      | error e =>
        rw [hk] at hrun
        exact Action.run_bind_of_error hrun _
      | ok acc =>
        rw [hk] at hrun
        exact (Action.run_bind_of_ok hrun _).trans (ih acc)
  exact hfold Kind.all acc

/-- If `foldKinds` succeeds, the sub-path of every kind `IsOpen`. -/
theorem isOpen_of_foldKinds_ok
    (h : (Stored.foldKinds store take Kind.all acc).run m = (.ok a, n)) (k : Kind) :
    m.IsOpen k.subPath := by
  have hopen (ks : List Kind) (acc : α)
      (h : (Stored.foldKinds store take ks acc).run m = (.ok a, n)) :
      ∀ k ∈ ks, m.IsOpen k.subPath := by
    induction ks generalizing acc with
    | nil => nofun
    | cons k ks ih =>
      rw [Stored.foldKinds, Action.run_bind_eq_ok] at h
      obtain ⟨acc', t, hk, h⟩ := h
      have hopen := isOpen_of_foldObjects_ok hk
      -- Reading changes nothing, so the next kind is read from the same memory.
      have ht : t = m := by
        rw [run_foldObjects hopen] at hk
        exact (Prod.mk.inj hk).2.symm
      exact List.forall_mem_cons.2 ⟨hopen, ih acc' (ht ▸ h)⟩
  exact hopen Kind.all acc h k k.mem_all

end FoldKinds

/-- `Stored.each` over `Kind.all` is an action for entities, one for locations and one for policies.
-/
theorem run_kinds_eq_ok {act : Kind → Action Memory PersistenceError Unit} {m n : Memory} :
    (Stored.each act Kind.all).run m = (.ok (), n) ↔
      ∃ a b, (act .entity).run m = (.ok (), a) ∧ (act .location).run a = (.ok (), b) ∧
        (act .policy).run b = (.ok (), n) := by
  simp only [Kind.all, Stored.each, Action.run_bind_eq_ok, Action.run_pure]
  constructor
  · rintro ⟨_, a, ha, _, b, hb, _, c, hc, heq⟩
    cases heq
    exact ⟨a, b, ha, hb, hc⟩
  · rintro ⟨a, b, ha, hb, hc⟩
    exact ⟨(), a, ha, (), b, hb, (), n, hc, rfl⟩

end Memory

end Failover
