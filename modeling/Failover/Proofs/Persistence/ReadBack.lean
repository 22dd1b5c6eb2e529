import Failover.Proofs.Json.Nesting
import Failover.Proofs.Persistence.Mementos

/-!
# What is read back of one memento

A delta that puts in one memento is checked on its way in for the path alone, unless the persister
verifies what it writes. On the way out there are two more hurdles: a listing shows only names
without a slash, and the reader of the text follows only so much nesting. A memento that fails at
the first is passed over in silence; one that fails at the second is reported.

## Key results

- `Memory.OpensAll.run`: what is in a memory can be opened again, whatever calls there were
- `MementoPersister.readsBack_iff`: which mementos a lenient load finds after they were put in, and
  which it reports
-/

namespace Failover

/-! ## Paths that can be opened -/

/-- A call that puts text under a path, if it does, was made on an object for which `openObject`
succeeds. -/
def Store.Call.IsOpened : Store.Call → Prop
  | .put path _ | .append path _ => Path.isValid path = true
  | _ => True

namespace Memory

open Store

/-- Every object of the memory `m` can be opened. -/
def OpensAll (m : Memory) : Prop :=
  ∀ path, (m.files.get? path).isSome → Path.isValid path = true

/-- A memory that has just been `prepared` has no objects. -/
theorem prepared_opensAll : prepared.OpensAll := by simp [OpensAll, prepared]

variable {m : Memory}

/-- `OpensAll` is kept by a `put` at a valid path. -/
theorem OpensAll.put (h : m.OpensAll) {path : String} (hpath : Path.isValid path = true)
    (text : String) : (m.put path text).OpensAll := by
  intro q hq
  rw [get?_files_put] at hq
  split at hq
  · next heq => rwa [heq]
  · exact h q hq

/-- `OpensAll` is kept by a `drop`. -/
theorem OpensAll.drop (h : m.OpensAll) (path : String) : (m.drop path).OpensAll := by
  intro q hq
  rw [get?_files_drop] at hq
  split at hq
  · cases hq
  · exact h q hq

/-- `OpensAll` is kept by every `step` of a call that `IsOpened`. -/
theorem OpensAll.step (h : m.OpensAll) {c : Call} (hc : c.IsOpened) :
    (Memory.step c m).2.OpensAll := by
  cases c with
  -- Only what is put in could be in the way, and it has been opened before.
  | prepare mode =>
    cases mode with
    | disabled => exact h
    | auto => exact h
    | rebind =>
      rw [Memory.step, prepare]
      split <;> exact h
    | clean => exact prepared_opensAll
  | put path text => exact h.put hc text
  | append path text => exact h.put hc _
  | delete path => exact h.drop path
  | deleteAll => simp [OpensAll, Memory.step]
  | createSubPath | list | close | openObject | get | contains | lastModified => exact h

/-- `OpensAll` is kept by every `run` of such calls. -/
theorem OpensAll.run (h : m.OpensAll) {cs : List Call} (hcs : ∀ c ∈ cs, c.IsOpened) :
    (store.run cs m).2.OpensAll := by
  induction cs generalizing m with
  | nil => exact h
  | cons c cs ih =>
    rw [List.forall_mem_cons] at hcs
    exact ih (h.step hcs.1) hcs.2

/-- Where `OpensAll` holds and the memory is prepared, every valid sub-path `IsOpen`. -/
theorem OpensAll.isOpen (h : m.OpensAll) (hprepared : m.isPrepared = true) {subPath : String}
    (hsub : Path.isValid subPath = true) : m.IsOpen subPath := by
  refine ⟨hprepared, hsub, fun name hname => h _ ?_⟩
  obtain ⟨text, htext⟩ := Option.isSome_iff_exists.1 (mem_namesUnder.1 hname)
  rw [(text?_eq_some.1 htext).2]
  rfl

end Memory

/-! ## Reading back -/

namespace MementoPersister

open Memory (store)

variable {p q : MementoPersister} {m n : Memory} {x : Memento}

/-- What a lenient load makes of the text of a memento that a listing leads to: it is found or
reported by its depth. -/
private theorem loaded_put (m : Memory) (hslash : '/' ∉ x.id.toList) (hx : x.isIntegral = true) :
    let found := loaded .placeholders (m.put (path x.ref) (Memento.codec.toText x))
    (found.topology.get? x.ref = some x ↔ (Memento.codec.write x).depth ≤ Scan.maxDepth) ∧
      (x.ref ∈ found.failures.map (·.ref) ↔ Scan.maxDepth < (Memento.codec.write x).depth) := by
  have htext := storedText?_put m (q := x.ref) hslash (Memento.codec.toText x) x.ref
  rw [if_pos rfl] at htext
  have hfound (y : Memento) : (loaded .placeholders
      (m.put (path x.ref) (Memento.codec.toText x))).topology.get? x.ref = some y ↔
      Memento.load .placeholders (Memento.codec.toText x) = .ok y ∧ y.ref = x.ref := by
    refine get?_found.trans ?_
    simp [htext, parse_eq_ok]
  constructor
  · rw [hfound, Memento.load_toText_eq_ok_iff hx, and_iff_left rfl]
  · refine mem_refs_failures.trans ?_
    rw [htext, and_iff_right Option.isSome_some, ← Nat.not_le, ← Memento.load_toText_eq_ok_iff hx]
    constructor
    · intro hnone hload
      cases ((hfound x).2 ⟨hload, rfl⟩).symm.trans hnone
    · -- A text that fails to read as its own memento reads as no other.
      refine fun hload => Option.eq_none_iff_forall_ne_some.2 fun y hy => hload ?_
      exact (Memento.load_toText_eq_ok_iff hx).2 (Memento.depth_le_of_load hx ((hfound y).1 hy).1)

/-- What a lenient load makes of a text that no listing leads to: nothing. -/
private theorem loaded_of_slash (m : Memory) {r : ObjectRef} (hslash : '/' ∈ r.id.toList) :
    (loaded .placeholders m).topology.get? r = none ∧
      r ∉ (loaded .placeholders m).failures.map (·.ref) := by
  have htext : m.storedText? r = none := by rw [storedText?_eq, if_pos hslash]
  constructor
  · refine Option.eq_none_iff_forall_ne_some.2 fun y hy => ?_
    obtain ⟨text, hsome, -⟩ := get?_found.1 hy
    cases htext.symm.trans hsome
  · intro hmem
    have hsome := (mem_refs_failures.1 hmem).1
    rw [htext] at hsome
    cases hsome

/-- After a `delta` that puts in one memento, `loadLenient` succeeds. It finds that memento exactly
if its id has no slash and it nests no deeper than `Scan.maxDepth`, and it reports it exactly if its
id has no slash and it nests deeper. So a memento whose id has a slash is stored and never seen
again. -/
theorem readsBack_iff (hm : m.OpensAll) (hx : x.isIntegral = true)
    (h : (p.delta store (.ofChanges [.changed x])).run m = (.ok q, n)) :
    ∃ found, (q.loadLenient store .placeholders).run n = (.ok found, n) ∧
      (found.topology.get? x.ref = some x ↔
        '/' ∉ x.id.toList ∧ (Memento.codec.write x).depth ≤ Scan.maxDepth) ∧
      (x.ref ∈ found.failures.map (·.ref) ↔
        '/' ∉ x.id.toList ∧ Scan.maxDepth < (Memento.codec.write x).depth) := by
  -- The delta has put exactly the one text.
  obtain ⟨hp, ⟨-, hvalid⟩, hprepared, rfl, rfl⟩ := run_delta_changed_eq_ok.1 h
  have hopen (k : Kind) : (m.put (path x.ref) (Memento.codec.toText x)).IsOpen k.subPath :=
    (hm.put hvalid _).isOpen hprepared k.isValid_subPath
  refine ⟨_, run_loadLenient hp hopen, ?_⟩
  by_cases hslash : '/' ∈ x.id.toList
  · obtain ⟨hnone, hunreported⟩ := loaded_of_slash
      (m.put (path x.ref) (Memento.codec.toText x)) (r := x.ref) hslash
    simp [hnone, hunreported, hslash]
  · rw [and_iff_right hslash, and_iff_right hslash]
    exact loaded_put m hslash hx

/-- `readsBack_iff` for an entity with a slash in its id, with a persister that does not verify: a
load then neither finds it nor reports it. -/
theorem readsBack_iff_slash :
    ∃ q n found, (({} : MementoPersister).delta store
        (.ofChanges [.changed (.new .entity "a/b" "web")])).run Memory.prepared = (.ok q, n) ∧
      (q.loadLenient store .placeholders).run n = (.ok found, n) ∧
      found.topology.get? ⟨.entity, "a/b"⟩ ≠ some (.new .entity "a/b" "web") ∧
      ⟨.entity, "a/b"⟩ ∉ found.failures.map (·.ref) := by
  have hdelta := (run_delta_changed_eq_ok (p := {}) (m := Memory.prepared)
    (x := .new .entity "a/b" "web")).2 ⟨rfl, ⟨rfl, by decide⟩, rfl, rfl, rfl⟩
  obtain ⟨found, hload, hfound, hreported⟩ :=
    readsBack_iff Memory.prepared_opensAll (by decide) hdelta
  -- The path is valid, but no listing shows a name with a slash.
  have hslash : '/' ∈ (Memento.new .entity "a/b" "web").id.toList := by decide
  exact ⟨_, _, found, hdelta, hload, fun h => (hfound.1 h).1 hslash,
    fun h => (hreported.1 h).1 hslash⟩

end MementoPersister

end Failover
