import Failover.Proofs.Rebind.Pending
import Failover.Proofs.Rebind.TakeOver
import Failover.Proofs.Store.Faults

/-!
# While the graph is being written

A checkpoint or a flush writes the graph as it was when it began, in many calls. Any of them may
fail, and between them the graph goes on changing. `Amid` says what holds all the while: an object
that has been written has the text that it had in the graph at the beginning, any other one that
text or the one that was stored before; and of whatever has changed in the graph since then a report
is pending.

## Key results

- `Amid.writes`: what each call of a checkpoint or a flush keeps
- `Amid.mentions_of_ne`: where the store differs from the graph, a report is pending, or the
  difference was there at the beginning and has not been written yet
-/

namespace Failover

open Store.Fault (Allows)

/-- The text that the graph `g` has for the object `r`. -/
def ManagedGraph.text? (g : ManagedGraph) (r : ObjectRef) : Option String :=
  (g.get? r).map fun o => Memento.codec.toText o.toMemento

/-- The memento that the graph `g` has for the object `r`. -/
def ManagedGraph.memento? (g : ManagedGraph) (r : ObjectRef) : Option Memento :=
  (g.get? r).map (·.toMemento)

/-- `text?` is the text of `memento?`. -/
theorem ManagedGraph.text?_eq (g : ManagedGraph) (r : ObjectRef) :
    g.text? r = (g.memento? r).map Memento.codec.toText := by
  rw [text?, memento?, Option.map_map]
  rfl

/-- What happens `Meanwhile` is an edit whose object has a place in a store. -/
def Meanwhile.IsPlaced : Meanwhile → Prop
  | .edit e => e.IsPlaced
  | .stopPersisting => False

namespace Workspace

variable {σ : Type} {S : ObjectStore σ} {held : σ → Memory} {w w₀ : Workspace σ}
  {done done' : Set ObjectRef}

/-! ## A workspace that persists -/

/-- Changes of the graph are reported to a writer that runs over a prepared memory, and all that is
planned to happen are edits for which `Meanwhile.IsPlaced` holds. -/
structure IsAttached (held : σ → Memory) (w : Workspace σ) : Prop where
  isRunning : w.persisting.isRunning = true
  listener : w.listener = some (.writer .persisting)
  isStopped : w.mementos.isStopped = false
  isPrepared : (held w.store).isPrepared = true
  isPlaced : w.graph.IsPlaced
  /-- What is to be removed is not in the `graph`. -/
  removed : ∀ r, w.persisting.pending.removed.contains r = true → w.graph.get? r = none
  allows : Allows Meanwhile.IsPlaced w.faults

/-- An `edit` that the graph does not refuse is reported to the writer by `note`. -/
theorem run_edit_of_ok (h : w.IsAttached held) {e : GraphEdit} {g : ManagedGraph} {c : Change}
    (he : w.graph.edit e = .ok (g, c)) :
    (edit e).run w = (.ok (), { w with graph := g, persisting := w.persisting.note c }) := by
  rw [edit, Action.run_of, changed, he]
  simp only [Except.map, notify, h.listener]
  rfl

/-- An `edit` that the graph refuses has no effect. -/
theorem run_edit_of_error {e : GraphEdit} {cause : GraphError}
    (he : w.graph.edit e = .error cause) : (edit e).run w = (.error cause, w) := by
  rw [edit, Action.run_of, changed, he]
  rfl

/-- `IsAttached` is kept by an edit that the graph does not refuse. -/
theorem IsAttached.edited (h : w.IsAttached held) {e : GraphEdit} (hplaced : e.IsPlaced)
    {g : ManagedGraph} {c : Change} (he : w.graph.edit e = .ok (g, c)) :
    IsAttached held { w with graph := g, persisting := w.persisting.note c } := by
  refine { h with isPlaced := h.isPlaced.edit hplaced he, removed := fun r hr => ?_ }
  obtain rfl | ⟨hne, hr⟩ := Pending.contains_removed_note hr
  · exact ManagedGraph.get?_of_edit_removed he
  · exact (ManagedGraph.get?_of_edit he hne).trans (h.removed r hr)

/-! ## Amid writing -/

/-- The graph as it was in `w₀` is being written; the objects of `done` have been. -/
structure Amid (held : σ → Memory) (w₀ : Workspace σ) (done : Set ObjectRef) (w : Workspace σ) :
    Prop extends w.IsAttached held where
  isReadOnly : w.graph.isReadOnly = w₀.graph.isReadOnly
  /-- Of what has changed in the graph since `w₀` a report is pending. -/
  graph : ∀ r, ¬w.persisting.pending.Mentions r → w.graph.get? r = w₀.graph.get? r
  pending : ∀ r, w₀.persisting.pending.Mentions r → w.persisting.pending.Mentions r
  written : ∀ r ∈ done, (held w.store).storedText? r = w₀.graph.text? r
  stored : ∀ r, (held w.store).storedText? r = w₀.graph.text? r ∨
    (held w.store).storedText? r = (held w₀.store).storedText? r

namespace Amid

/-- `Amid` writing, before anything has been written. -/
theorem start (h : w₀.IsAttached held) : Amid held w₀ ∅ w₀ :=
  { h with
    isReadOnly := rfl
    graph := fun _ _ => rfl
    pending := fun _ => id
    written := fun _ => False.elim
    stored := fun _ => .inr rfl }

/-- `Amid` says less of fewer objects. -/
theorem mono (hsub : done' ⊆ done) (h : Amid held w₀ done w) : Amid held w₀ done' w :=
  { h with written := fun r hr => h.written r (hsub hr) }

/-- Where the store differs from the graph, a report is pending (`Mentions`), or the difference was
there at the beginning and has not been written yet. -/
theorem mentions_of_ne (h : Amid held w₀ done w) {r : ObjectRef}
    (hr : (held w.store).storedText? r ≠ w.graph.text? r) : w.persisting.pending.Mentions r ∨
      r ∉ done ∧ (held w₀.store).storedText? r ≠ w₀.graph.text? r := by
  by_cases hm : w.persisting.pending.Mentions r
  · exact .inl hm
  · -- The object is as it was in the graph, so it is the store that differs.
    have htext : w.graph.text? r = w₀.graph.text? r := by
      rw [ManagedGraph.text?, h.graph r hm, ManagedGraph.text?]
    rw [htext] at hr
    exact .inr ⟨fun hd => hr (h.written r hd), (h.stored r).resolve_left hr ▸ hr⟩

/-- `Amid` is kept by an edit that the graph does not refuse. -/
theorem edited (h : Amid held w₀ done w) {e : GraphEdit} (hplaced : e.IsPlaced)
    {g : ManagedGraph} {c : Change} (he : w.graph.edit e = .ok (g, c)) :
    Amid held w₀ done { w with graph := g, persisting := w.persisting.note c } where
  toIsAttached := h.toIsAttached.edited hplaced he
  isReadOnly := (ManagedGraph.isReadOnly_of_edit he).trans h.isReadOnly
  graph := by
    intro r hr
    obtain ⟨hne, hm⟩ := not_or.1 (mt Pending.mentions_note.2 hr)
    exact (ManagedGraph.get?_of_edit he hne).trans (h.graph r hm)
  pending := fun r hr => Pending.mentions_note.2 (.inr (h.pending r hr))
  written := h.written
  stored := h.stored

/-- `Amid` is kept by what happens `Meanwhile`. -/
theorem happen (h : Amid held w₀ done w) {x : Meanwhile} (hx : x.IsPlaced) :
    Amid held w₀ done (w.happen x) := by
  cases x with
  -- Nobody stops the persister, and an edit that is refused changes nothing.
  | stopPersisting => exact hx.elim
  | edit e =>
    rw [Workspace.happen]
    cases he : w.graph.edit e with
    | error cause =>
      rw [run_edit_of_error he]
      exact h
    | ok gc =>
      rw [run_edit_of_ok h.toIsAttached he]
      exact h.edited hx he

/-! ## Calls of the store -/

/-- `Amid` writing the graph, the store `IsWriting` its mementos. -/
theorem isWriting (h : Amid held w₀ done w) :
    Memory.IsWriting w₀.graph.memento? (held w₀.store) done (held w.store) where
  isPrepared := h.isPrepared
  written r hr := by
    rw [← ManagedGraph.text?_eq]
    exact h.written r hr
  stored r := by
    rw [← ManagedGraph.text?_eq]
    exact h.stored r

/-- `Amid` is kept by a call that changes the store alone, and leaves it `IsWriting`. -/
theorem called (h : Amid held w₀ done w) {s : σ}
    (hs : Memory.IsWriting w₀.graph.memento? (held w₀.store) done' (held s)) :
    Amid held w₀ done' { w with store := s } :=
  { h with
    isPrepared := hs.isPrepared
    written := fun r hr => (hs.written r hr).trans (w₀.graph.text?_eq r).symm
    stored := fun r => (hs.stored r).imp_left fun heq => heq.trans (w₀.graph.text?_eq r).symm }

/-- `Writes` of the store as the workspace sees it keep `Amid`. -/
theorem writes_seen (hS : S.Mirrors held) (hw₀ : w₀.graph.IsPlaced) :
    Writes (seen S) w₀.graph.memento? (Amid held w₀) := by
  -- What holds whatever the store comes to is kept by every call.
  let F (w : Workspace σ) : Prop := ∀ done s,
    Memory.IsWriting w₀.graph.memento? (held w₀.store) done (held s) →
      Amid held w₀ done { w with store := s }
  have hslash (r : ObjectRef) (x : Memento) (hx : w₀.graph.memento? r = some x) :
      '/' ∉ r.id.toList := by
    obtain ⟨o, ho, -⟩ := Option.map_eq_some_iff.1 hx
    exact (Path.isSingle_iff.1 (hw₀.isSingle r o ho)).2
  have hseen : (seen S).Mirrors fun w => held w.store := hS.focus fun _ _ => rfl
  have hF (c : Store.Call) : Action.Keeps F ((seen S).call c) := fun _ hw => hw
  have hwrites := (Memory.writes (held w₀.store) hslash).mirrored hseen hF
  refine hwrites.congr fun done w => ⟨fun h => h.1 done w.store h.2, fun h => ?_⟩
  exact ⟨fun done s => h.called, h.isWriting⟩

end Amid

end Workspace

namespace Workspace

variable {σ : Type} {S : ObjectStore σ} {held : σ → Memory} {w₀ : Workspace σ}

/-- `Writes` of a store that is `faulty` keep `Amid`, whatever goes wrong with the calls. -/
theorem Amid.writes (hS : S.Mirrors held) (hw₀ : w₀.graph.IsPlaced) :
    Writes (faulty S) w₀.graph.memento? (Amid held w₀) :=
  (Amid.writes_seen hS hw₀).faulty (fun _ _ h => h.allows)
    (fun _ _ _ h hfs => { h with allows := hfs }) fun _ _ _ h => h.happen

end Workspace

end Failover
