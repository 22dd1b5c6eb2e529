import Failover.Proofs.Store.Tree

/-!
# A store in files answers as one in memory does

On sub-paths of one segment and objects directly below them, a fresh store in an empty directory and
a fresh store in memory cannot be told apart: every call has the same answer, but for the name that
each store goes by in its errors. Directories that were never created or have been emptied,
temporary files and renames do not show.

## Key results

- `Files.Simulates.step`: a call on a directory that simulates a memory
- `Files.run_eq`: the answers to a sequence of calls
-/

namespace Failover

open Failover.Path (IsPlain)
open Store (Call)

/-- A call on a sub-path of one segment or an object directly below one, by names for which
`IsPlain` holds. -/
inductive Store.Call.IsFlat : Call → Prop where
  | prepare (mode : PersistMode) : IsFlat (.prepare mode)
  | createSubPath {s : String} (hs : IsPlain s) : IsFlat (.createSubPath s)
  | list {s : String} (hs : IsPlain s) : IsFlat (.list s)
  | deleteAll : IsFlat .deleteAll
  | openObject {s n : String} (hs : IsPlain s) (hn : IsPlain n) :
    IsFlat (.openObject (Path.object s n))
  | get {s n : String} (hs : IsPlain s) (hn : IsPlain n) : IsFlat (.get (Path.object s n))
  | put {s n : String} (hs : IsPlain s) (hn : IsPlain n) (text : String) :
    IsFlat (.put (Path.object s n) text)
  | append {s n : String} (hs : IsPlain s) (hn : IsPlain n) (text : String) :
    IsFlat (.append (Path.object s n) text)
  | delete {s n : String} (hs : IsPlain s) (hn : IsPlain n) : IsFlat (.delete (Path.object s n))
  | contains {s n : String} (hs : IsPlain s) (hn : IsPlain n) :
    IsFlat (.contains (Path.object s n))

namespace Files

/-- The directory `f` simulates the memory `m`: its tree `Mirrors` it, and `handle` is prepared as
the memory is. -/
structure Simulates (handle : String) (f : Files) (m : Memory) : Prop where
  isPrepared_eq : f.isPrepared handle = m.isPrepared
  tree : f.tree.Mirrors m

variable {handle : String} {f : Files} {m : Memory}

/-- `setPrepared` sets what `isPrepared` asks for. -/
@[simp] theorem isPrepared_setPrepared (f : Files) (handle : String) (b : Bool) :
    (f.setPrepared handle b).isPrepared handle = b := by
  simp [isPrepared, setPrepared]

/-- An empty directory `Simulates` a memory that holds nothing. -/
theorem fresh_simulates (handle : String) : Simulates handle {} {} where
  isPrepared_eq := rfl
  tree := by
    have hempty : FileTree.Mirrors {} {} := .empty rfl
    exact hempty.insert_directory (by simp) (by simp) (by simp)

namespace Simulates

/-- `Files.check` ends as `Memory.check` does, but for the name of the store. -/
theorem check_eq (h : Simulates handle f m) (path : String) :
    f.check handle path = (m.check path).mapError (.named summary) := by
  rw [Files.check, Memory.check, h.isPrepared_eq]
  cases Path.isValid path <;> cases m.isPrepared <;> rfl

/-- `Memory.prepare` fails and leaves the memory, or succeeds and leaves one that is prepared. -/
private theorem prepare_cases (m : Memory) (mode : PersistMode) :
    (∃ e, m.prepare mode = (.error e, m)) ∨
      ∃ n, m.prepare mode = (.ok (), n) ∧ n.isPrepared = true := by
  cases mode with
  | disabled => exact .inl ⟨_, rfl⟩
  | auto => exact .inr ⟨_, rfl, rfl⟩
  | rebind =>
    rw [Memory.prepare]
    split
    · exact .inl ⟨_, rfl⟩
    · exact .inr ⟨_, rfl, rfl⟩
  | clean => exact .inr ⟨_, rfl, rfl⟩

/-- A call that `IsFlat` is answered alike and leaves a directory that still `Simulates` the memory.
-/
theorem step (h : Simulates handle f m) {c : Call} (hc : c.IsFlat) :
    (Files.step handle c f).1 = (Memory.step c m).1.mapError (.named summary) ∧
      Simulates handle (Files.step handle c f).2 (Memory.step c m).2 := by
  cases hc with
  | prepare mode =>
    -- A handle counts as prepared if this succeeds, and so does the memory.
    obtain ⟨u, hprepare, hu⟩ := h.tree.prepareTree mode
    rw [Files.step, Memory.step, hprepare]
    rcases prepare_cases m mode with ⟨e, heq⟩ | ⟨n, heq, hn⟩
    · rw [heq] at hu ⊢
      exact ⟨rfl, h.isPrepared_eq, hu⟩
    · rw [heq] at hu ⊢
      exact ⟨rfl, (isPrepared_setPrepared ..).trans hn.symm, hu⟩
  | createSubPath hs =>
    obtain ⟨u, hmake, hu, -⟩ := h.tree.makeDirectory hs
    rw [Files.step, Memory.step, if_pos hs.isValid, if_pos hs.isValid, hs.segments, hmake]
    exact ⟨rfl, h.isPrepared_eq, hu⟩
  | list hs =>
    rw [Files.step, Memory.step, h.check_eq, hs.segments, h.tree.names hs]
    cases m.check _ <;> exact ⟨rfl, h⟩
  | deleteAll =>
    obtain ⟨u, hdelete, hu⟩ := h.tree.deleteAll
    rw [Files.step, Memory.step, hdelete]
    exact ⟨rfl, h.isPrepared_eq, hu⟩
  | openObject hs hn =>
    rw [Files.step, Memory.step, h.check_eq]
    exact ⟨rfl, h⟩
  | get hs hn =>
    rw [Files.step, Memory.step, hs.segments_object hn, h.tree.readFile hs hn]
    exact ⟨rfl, h⟩
  | put hs hn text =>
    obtain ⟨u, hput, hu⟩ := h.tree.put hs hn text
    rw [Files.step, Memory.step, hs.segments_object hn, hput]
    exact ⟨rfl, h.isPrepared_eq, hu⟩
  | append hs hn text =>
    obtain ⟨u, happend, hu⟩ := h.tree.append hs hn text
    rw [Files.step, Memory.step, hs.segments_object hn, happend]
    exact ⟨rfl, h.isPrepared_eq, hu⟩
  | delete hs hn =>
    obtain ⟨u, hdelete, hu⟩ := h.tree.deleteFile hs hn
    rw [Files.step, Memory.step, hs.segments_object hn, hdelete]
    exact ⟨rfl, h.isPrepared_eq, hu⟩
  | contains hs hn =>
    rw [Files.step, Memory.step, hs.segments_object hn, h.tree.isFile hs hn]
    exact ⟨rfl, h⟩

/-- Calls that are all flat are answered by `run` as a memory answers them, from any directory that
`Simulates` it. -/
theorem run (h : Simulates handle f m) {cs : List Call} (hcs : ∀ c ∈ cs, c.IsFlat) :
    ((store handle).run cs f).1 =
      (Memory.store.run cs m).1.map fun a => ⟨a.1, a.2.mapError (.named summary)⟩ := by
  -- Each call leaves a directory that simulates the memory again, which is what the rest needs.
  induction cs generalizing f m with
  | nil => rfl
  | cons c cs ih =>
    rw [List.forall_mem_cons] at hcs
    obtain ⟨hanswer, hnext⟩ := h.step hcs.1
    have hrest := ih hnext hcs.2
    calc ((store handle).run (c :: cs) f).1
        = ⟨c, (Files.step handle c f).1⟩ ::
            ((store handle).run cs (Files.step handle c f).2).1 := rfl
      _ = ⟨c, (Memory.step c m).1.mapError (.named summary)⟩ ::
            (Memory.store.run cs (Memory.step c m).2).1.map
              fun a => ⟨a.1, a.2.mapError (.named summary)⟩ := by rw [hanswer, hrest]
      _ = (Memory.store.run (c :: cs) m).1.map
            fun a => ⟨a.1, a.2.mapError (.named summary)⟩ := rfl

end Simulates

/-- Flat calls on a fresh store in an empty directory are answered by `run` as by a fresh store in
memory: they succeed alike, with the same results, and fail with the same error, which names the
store. -/
theorem run_eq (handle : String) {cs : List Call} (hcs : ∀ c ∈ cs, c.IsFlat) :
    ((store handle).run cs {}).1 =
      (Memory.store.run cs {}).1.map fun a => ⟨a.1, a.2.mapError (.named summary)⟩ :=
  (fresh_simulates handle).run hcs

/-- `run_eq` where the only object is deleted again: the directory that is left is nothing to
rebind. -/
theorem run_eq_emptied :
    let calls : List Call := [.prepare .rebind, .prepare .auto, .put (Path.object "plane" "a") "1",
      .append (Path.object "plane" "a") "2", .list "plane", .get (Path.object "plane" "a"),
      .delete (Path.object "plane" "a"), .prepare .rebind]
    (∀ c ∈ calls, c.IsFlat) ∧ ((store "a").run calls {}).1 =
      [⟨.prepare .rebind, .error (.nothingToRebind summary)⟩, ⟨.prepare .auto, .ok ()⟩,
        ⟨.put (Path.object "plane" "a") "1", .ok ()⟩,
        ⟨.append (Path.object "plane" "a") "2", .ok ()⟩, ⟨.list "plane", .ok ["a"]⟩,
        ⟨.get (Path.object "plane" "a"), .ok (some "12")⟩,
        ⟨.delete (Path.object "plane" "a"), .ok ()⟩,
        ⟨.prepare .rebind, .error (.nothingToRebind summary)⟩] := by
  intro calls
  have hplane : IsPlain "plane" := ⟨by decide, by decide, by decide⟩
  have ha : IsPlain "a" := ⟨by decide, by decide, by decide⟩
  have hcalls : ∀ c ∈ calls, c.IsFlat := by
    simp only [calls, List.forall_mem_cons]
    exact ⟨.prepare _, .prepare _, .put hplane ha _, .append hplane ha _, .list hplane,
      .get hplane ha, .delete hplane ha, .prepare _, List.forall_mem_nil _⟩
  exact ⟨hcalls, (run_eq "a" hcalls).trans rfl⟩

end Files

end Failover
