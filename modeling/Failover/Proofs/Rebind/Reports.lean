import Failover.Proofs.Rebind.Flush
import Mathlib.Data.List.Perm.Basic

/-!
# Reports that overtake each other

An edit changes the graph, and its report reaches the writer later. Callers do not wait for each
other, so the reports come in in any order, before a flush or between any two of its calls. A flush
asks the graph for an object that has been reported as changed, but one that has been reported as
removed it removes from the store without asking. So the store follows the latest report that has
come in, and not the latest edit: it comes to hold all objects of the graph but those of which a
removal was the last thing to come in.

## Key results

- `IsRacing.move`, `Since.move`: what an edit or an incoming report keeps
- `Since.writes`: what each call of a flush keeps while callers go on
- `IsFollowed.step`, `IsFollowed.run`: what an event keeps, and so a whole run
- `stores_iff_not_isOvertaken`: which objects are stored as they are in the graph
- `stores_of_inOrder`: all of them, if the reports come in in the order of the edits
-/

namespace Failover

open Failover.Action (Keeps)
open Store (Fault)
open Store.Fault (Allows)

/-- What goes on beside a `DeltaWriter`. -/
inductive Move where
  /-- A caller edits the graph; the report of it is on the way. -/
  | edit (e : GraphEdit)
  /-- A report that is on the way comes in, whichever it is. -/
  | deliver (i : Nat)

namespace Move

/-- An object that the `Move` puts in has a place in a store. -/
def IsPlaced : Move → Prop
  | .edit e => e.IsPlaced
  | .deliver _ => True

/-- The `Move` lets no report overtake another. -/
def IsInOrder : Move → Prop
  | .edit _ => True
  | .deliver i => i = 0

end Move

/-- What happens to a `Workspace` while callers race. -/
inductive RaceEvent where
  | move (x : Move)
  /-- It turns out otherwise what will go wrong with the calls of the store, and what goes on
  between them. -/
  | plan (faults : List (Fault Move))
  | flush

/-- Every `Move` that goes on with the event is of a sort. -/
def RaceEvent.Allows (may : Move → Prop) : RaceEvent → Prop
  | .move x => may x
  | .plan faults => Fault.Allows may faults
  | .flush => True

/-- A store, and the reports (`Change`) of edits beside it. -/
structure Reports (σ : Type) where
  store : σ
  /-- What will go wrong with the calls of the store, and what goes on between them. -/
  faults : List (Fault Move) := []
  /-- The reports that have not come in yet, in the order of the edits. -/
  onTheWay : List Change := []
  /-- The latest report of each object that has come in. -/
  latest : ByRef Change := .empty

namespace Workspace

variable {σ : Type}

/-! ## Moves -/

/-- A caller edits the graph by `Workspace.changed`; an edit that the graph refuses is not reported.
-/
def post (w : Workspace (Reports σ)) (e : GraphEdit) : Workspace (Reports σ) :=
  match w.changed e with
  | .ok (u, c) => { u with store := { u.store with onTheWay := u.store.onTheWay ++ [c] } }
  | .error _ => w

/-- The report at the place `i` of those that are on the way reaches the listener, by `notify`. -/
def deliver (w : Workspace (Reports σ)) (i : Nat) : Workspace (Reports σ) :=
  match w.store.onTheWay[i]? with
  | some c => notify { w with store := { w.store with
      onTheWay := w.store.onTheWay.eraseIdx i
      latest := w.store.latest.insert c.ref c } } c
  | none => w

/-- What a `Move` beside the writer does. -/
def move (w : Workspace (Reports σ)) : Move → Workspace (Reports σ)
  | .edit e => w.post e
  | .deliver i => w.deliver i

/-- The store `S` whose calls go wrong as planned (`faulty`), with callers that go on between them.
-/
def racing (S : ObjectStore σ) : ObjectStore (Workspace (Reports σ)) :=
  (S.focus (·.store.store) fun w s => { w with store := { w.store with store := s } }).faulty
    (·.store.faults) (fun w faults => { w with store := { w.store with faults } }) move

variable {S : ObjectStore σ} {held : σ → Memory} {w w₀ v : Workspace (Reports σ)}
  {done done' : Set ObjectRef} {r : ObjectRef}

/-- A report of the object `r` is on the way. -/
def Awaits (w : Workspace (Reports σ)) (r : ObjectRef) : Prop := ∃ c ∈ w.store.onTheWay, c.ref = r

/-- The text of the object `r` in the store. -/
def storedText? (held : σ → Memory) (w : Workspace (Reports σ)) (r : ObjectRef) : Option String :=
  (held w.store.store).storedText? r

/-- The memento of the object `r` that the reports ask for: that of the graph, unless the latest
report says that the object has been removed. -/
def due (w : Workspace (Reports σ)) (r : ObjectRef) : Option Memento :=
  if w.store.latest.get? r = some (.removed r) then none else w.graph.memento? r

/-- A removal of the object `r` came in last, and yet the graph has it. -/
def IsOvertaken (w : Workspace (Reports σ)) (r : ObjectRef) : Prop :=
  w.store.latest.get? r = some (.removed r) ∧ (w.graph.get? r).isSome

/-- What is `due` is what the graph has, but for objects for which `IsOvertaken` holds. -/
theorem map_toText_due : (w.due r).map Memento.codec.toText = w.graph.text? r ↔
    ¬w.IsOvertaken r := by
  rw [due, IsOvertaken, ManagedGraph.text?_eq, ManagedGraph.memento?]
  by_cases hlatest : w.store.latest.get? r = some (.removed r)
  · rw [if_pos hlatest]
    cases w.graph.get? r <;> simp [hlatest]
  · rw [if_neg hlatest]
    simp [hlatest]

/-! ## A writer among callers -/

/-- A writer listens and has taken note of all that came in last; what is planned to go on puts in
only objects that have a place in a store. -/
structure IsRacing (w : Workspace (Reports σ)) : Prop where
  isRunning : w.persisting.isRunning = true
  listener : w.listener = some (.writer .persisting)
  isStopped : w.mementos.isStopped = false
  isPlaced : w.graph.IsPlaced
  changed : ∀ r, w.persisting.pending.changed.contains r = true →
    w.store.latest.get? r = some (.changed r)
  removed : ∀ r, w.persisting.pending.removed.contains r = true →
    w.store.latest.get? r = some (.removed r)
  allows : Allows Move.IsPlaced w.store.faults

/-- What a `move` does: nothing, or an edit, or a report comes in. -/
theorem move_cases (hlistener : w.listener = some (.writer .persisting)) (x : Move) :
    w.move x = w ∨
      (∃ e g c, x = .edit e ∧ w.graph.edit e = .ok (g, c) ∧ w.move x = { w with
        graph := g
        store := { w.store with onTheWay := w.store.onTheWay ++ [c] } }) ∨
      ∃ i c, x = .deliver i ∧ w.store.onTheWay[i]? = some c ∧ w.move x = { w with
        persisting := w.persisting.note c
        store := { w.store with
          onTheWay := w.store.onTheWay.eraseIdx i
          latest := w.store.latest.insert c.ref c } } := by
  -- An edit sends a report off, and a delivery hands one over; both may come to nothing.
  cases x with
  | edit e =>
    cases he : w.graph.edit e with
    | error cause =>
      refine .inl ?_
      rw [move, post, Workspace.changed, he]
      rfl
    | ok gc =>
      obtain ⟨g, c⟩ := gc
      refine .inr (.inl ⟨e, g, c, rfl, he, ?_⟩)
      rw [move, post, Workspace.changed, he]
      rfl
  | deliver i =>
    cases hc : w.store.onTheWay[i]? with
    | none =>
      refine .inl ?_
      rw [move, deliver, hc]
    | some c =>
      refine .inr (.inr ⟨i, c, rfl, hc, ?_⟩)
      rw [move, deliver, hc]
      simp only [notify, hlistener]
      rfl

/-- A report that has come in is no longer on the way (`eraseIdx`), and all others still are. -/
private theorem mem_eraseIdx {cs : List Change} {i : Nat} {c d : Change} (hc : cs[i]? = some c) :
    d ∈ cs ↔ d = c ∨ d ∈ cs.eraseIdx i := by
  obtain ⟨hi, rfl⟩ := List.getElem?_eq_some_iff.1 hc
  rw [← (List.getElem_cons_eraseIdx_perm hi).mem_iff, List.mem_cons]

/-- `IsRacing` is kept by every `move`. -/
theorem IsRacing.move (h : w.IsRacing) {x : Move} (hx : x.IsPlaced) : (w.move x).IsRacing := by
  obtain heq | ⟨e, g, c, rfl, he, heq⟩ | ⟨i, c, rfl, -, heq⟩ := move_cases h.listener x
  · rwa [heq]
  · rw [heq]
    exact { h with isPlaced := h.isPlaced.edit hx he }
  · rw [heq]
    -- What is pending is what has been reported last, of this object or, as before, of another.
    refine { h with changed := fun r hr => ?_, removed := fun r hr => ?_ }
    · obtain rfl | ⟨hne, hr⟩ := Pending.contains_changed_note hr
      · exact (ByRef.get?_insert ..).trans (if_pos rfl)
      · exact ((ByRef.get?_insert ..).trans (if_neg hne)).trans (h.changed r hr)
    · obtain rfl | ⟨hne, hr⟩ := Pending.contains_removed_note hr
      · exact (ByRef.get?_insert ..).trans (if_pos rfl)
      · exact ((ByRef.get?_insert ..).trans (if_neg hne)).trans (h.removed r hr)

/-- The `delta` of what is pending lists what is `due`. -/
theorem IsRacing.isWanted_delta (h : w.IsRacing) :
    (w.persisting.pending.delta w.graph).IsWanted w.due := by
  refine Pending.isWanted_delta h.isPlaced.isFiled (fun r hr => ?_) fun r hr => ?_
  · rw [due, h.changed r hr]
    simp [ManagedGraph.memento?]
  · rw [due, if_pos (h.removed r hr)]

/-- `IsRacing` is kept when a flush takes what is pending. -/
theorem IsRacing.taken (h : w.IsRacing) : w.taken.IsRacing :=
  { h with changed := nofun, removed := nofun }

/-! ## Since a flush began -/

/-- What was `due` in `w₀` is being written; the objects of `done` have been. -/
structure Since (held : σ → Memory) (w₀ : Workspace (Reports σ)) (done : Set ObjectRef)
    (w : Workspace (Reports σ)) : Prop extends w.IsRacing where
  /-- Whatever has come in since `w₀` is pending. -/
  latest : ∀ r, ¬w.persisting.pending.Mentions r →
    w.store.latest.get? r = w₀.store.latest.get? r
  /-- Of what has changed in the graph since `w₀` a report is pending or on the way. -/
  graph : ∀ r, ¬w.persisting.pending.Mentions r → ¬w.Awaits r → w.graph.get? r = w₀.graph.get? r
  pending : ∀ r, w₀.persisting.pending.Mentions r → w.persisting.pending.Mentions r
  onTheWay : ∀ r, w₀.Awaits r → w.persisting.pending.Mentions r ∨ w.Awaits r
  isWriting : Memory.IsWriting w₀.due (held w₀.store.store) done (held w.store.store)

/-- Wherever the store is not as what is `due`, a report is pending or on the way. -/
structure IsFollowed (held : σ → Memory) (w : Workspace (Reports σ)) : Prop
    extends w.IsRacing where
  isPrepared : (held w.store.store).isPrepared = true
  covered : ∀ r, w.storedText? held r ≠ (w.due r).map Memento.codec.toText →
    w.persisting.pending.Mentions r ∨ w.Awaits r

namespace Since

/-- `Since` the flush began, before anything has been written. -/
theorem start (h : w₀.IsRacing) (hprepared : (held w₀.store.store).isPrepared = true) :
    Since held w₀ ∅ w₀ :=
  { h with
    latest := fun _ _ => rfl
    graph := fun _ _ _ => rfl
    pending := fun _ => id
    onTheWay := fun _ => .inr
    isWriting := .start hprepared }

/-- `Since` is kept by every `move`. -/
theorem move (h : Since held w₀ done w) {x : Move} (hx : x.IsPlaced) :
    Since held w₀ done (w.move x) := by
  have hracing := h.toIsRacing.move hx
  obtain heq | ⟨e, g, c, -, he, heq⟩ | ⟨i, c, -, hc, heq⟩ := move_cases h.listener x
  · rwa [heq]
  · rw [heq] at hracing ⊢
    have hawaits {r : ObjectRef} (hr : w.Awaits r) : ∃ d ∈ w.store.onTheWay ++ [c], d.ref = r :=
      hr.imp fun _ => And.imp_left (List.mem_append_left _)
    refine { hracing with
      latest := h.latest
      graph := fun r hm hr => ?_
      pending := h.pending
      onTheWay := fun r hr => (h.onTheWay r hr).imp_right hawaits
      isWriting := h.isWriting }
    -- The object that was edited is awaited now.
    have hne : r ≠ c.ref := fun heq => hr ⟨c, by simp, heq.symm⟩
    exact (ManagedGraph.get?_of_edit he hne).trans (h.graph r hm (mt hawaits hr))
  · rw [heq] at hracing ⊢
    -- What was awaited still is, unless this very report is what it waited for.
    have hawaits {r : ObjectRef} (hr : w.Awaits r) :
        r = c.ref ∨ ∃ d ∈ w.store.onTheWay.eraseIdx i, d.ref = r := by
      obtain ⟨d, hd, rfl⟩ := hr
      exact ((mem_eraseIdx hc).1 hd).imp (congrArg _) fun hd => ⟨d, hd, rfl⟩
    refine { hracing with
      latest := fun r hm => ?_
      graph := fun r hm hr => ?_
      pending := fun r hr => Pending.mentions_note.2 (.inr (h.pending r hr))
      onTheWay := fun r hr => ?_
      isWriting := h.isWriting }
    · obtain ⟨hne, hm⟩ := not_or.1 (mt Pending.mentions_note.2 hm)
      exact ((ByRef.get?_insert ..).trans (if_neg hne)).trans (h.latest r hm)
    · obtain ⟨hne, hm⟩ := not_or.1 (mt Pending.mentions_note.2 hm)
      exact h.graph r hm fun hawaited => (hawaits hawaited).elim hne hr
    · obtain hm | hawaited := h.onTheWay r hr
      · exact .inl (Pending.mentions_note.2 (.inr hm))
      · exact (hawaits hawaited).imp_left fun heq => Pending.mentions_note.2 (.inl heq)

/-- `Since` is kept by a call that changes the store alone, and leaves it `IsWriting`. -/
theorem called (h : Since held w₀ done w) {s : σ}
    (hs : Memory.IsWriting w₀.due (held w₀.store.store) done' (held s)) :
    Since held w₀ done' { w with store := { w.store with store := s } } :=
  { h with isWriting := hs }

/-- `Since` is kept when the persister that a call has returned is put in place. -/
theorem setMementos (h : Since held w₀ done w) {q : MementoPersister} (hq : q.isStopped = false) :
    Since held w₀ done { w with mementos := q } :=
  { h with isStopped := hq }

/-- `Writes` of a flush keep `Since`, whatever goes on. -/
theorem writes (hS : S.Mirrors held) (hw₀ : w₀.graph.IsPlaced) :
    Writes (racing S) w₀.due (Since held w₀) := by
  -- What holds whatever the store comes to is kept by every call.
  let F (w : Workspace (Reports σ)) : Prop := ∀ done s,
    Memory.IsWriting w₀.due (held w₀.store.store) done (held s) →
      Since held w₀ done { w with store := { w.store with store := s } }
  have hslash (r : ObjectRef) (x : Memento) (hx : w₀.due r = some x) : '/' ∉ r.id.toList := by
    rw [due] at hx
    split at hx
    · cases hx
    · obtain ⟨o, ho, -⟩ := Option.map_eq_some_iff.1 hx
      exact (Path.isSingle_iff.1 (hw₀.isSingle r o ho)).2
  let T : ObjectStore (Workspace (Reports σ)) :=
    S.focus (·.store.store) fun w s => { w with store := { w.store with store := s } }
  have hT : T.Mirrors fun w => held w.store.store := hS.focus fun _ _ => rfl
  have hF (c : Store.Call) : Keeps F (T.call c) := fun _ hw => hw
  have hwrites : Writes T w₀.due (Since held w₀) :=
    ((Memory.writes (held w₀.store.store) hslash).mirrored hT hF).congr fun done w =>
      ⟨fun h => h.1 done w.store.store h.2, fun h => ⟨fun done s => h.called, h.isWriting⟩⟩
  exact hwrites.faulty (fun _ _ h => h.allows) (fun _ _ _ h hfs => { h with allows := hfs })
    fun _ _ _ h => h.move

/-- `Since` the flush began: where the store is not as what is `due`, a report is pending or on the
way, or it was not so at the beginning and has not been written yet. -/
theorem cases_of_ne (h : Since held w₀ done w)
    (hr : w.storedText? held r ≠ (w.due r).map Memento.codec.toText) :
    w.persisting.pending.Mentions r ∨ w.Awaits r ∨
      r ∉ done ∧ w₀.storedText? held r ≠ (w₀.due r).map Memento.codec.toText := by
  by_cases hm : w.persisting.pending.Mentions r
  · exact .inl hm
  by_cases ha : w.Awaits r
  · exact .inr (.inl ha)
  -- Of an object that is neither pending nor awaited, the graph and the last report are as they
  -- were.
  have hdue : w.due r = w₀.due r := by
    rw [due, due, h.latest r hm, ManagedGraph.memento?, h.graph r hm ha, ManagedGraph.memento?]
  rw [hdue] at hr
  refine .inr (.inr ⟨fun hd => hr (h.isWriting.written r hd), fun heq => hr ?_⟩)
  exact (h.isWriting.stored r).elim id fun hsame => hsame.trans heq

/-- `Since` the flush began: what has been written, or is still pending or on the way, is followed.
-/
theorem isFollowed (h : Since held w₀ done w)
    (hdone : ∀ r, w₀.storedText? held r ≠ (w₀.due r).map Memento.codec.toText →
      r ∈ done ∨ w₀.persisting.pending.Mentions r ∨ w₀.Awaits r) : w.IsFollowed held :=
  { h with
    isPrepared := h.isWriting.isPrepared
    covered := fun r hr => by
      obtain hm | ha | ⟨hnot, hne⟩ := h.cases_of_ne hr
      · exact .inl hm
      · exact .inr ha
      · obtain hd | hm | ha := hdone r hne
        · exact absurd hd hnot
        · exact .inl (h.pending r hm)
        · exact h.onTheWay r ha }

/-- `IsFollowed` holds again once a flush that fails has given back what it took. -/
theorem isFollowed_giveBack (hw : w₀.IsFollowed held) (h : Since held w₀.taken done w) :
    (w.updateWriter .persisting (·.giveBack w₀.persisting.pending)).IsFollowed held := by
  rw [updateWriter_giveBack h.isRunning]
  refine { h with
    isPrepared := h.isWriting.isPrepared
    changed := fun r hr => ?_
    removed := fun r hr => ?_
    covered := fun r hr => ?_ }
  · by_cases hm : w.persisting.pending.changed.contains r = true
    · exact h.changed r hm
    -- Nothing newer is pending of the object, so what came in last is what had been taken.
    obtain hnew | ⟨hfailed, hnot⟩ := Pending.contains_changed_requeue.1 hr
    · exact absurd hnew hm
    · have hquiet : ¬w.persisting.pending.Mentions r := by
        rintro (hnew | hnew)
        · exact hm hnew
        · exact Bool.noConfusion (hnot.symm.trans hnew)
      exact (h.latest r hquiet).trans (hw.changed r hfailed)
  · cases hm : w.persisting.pending.removed.contains r with
    | true => exact h.removed r hm
    | false =>
      obtain ⟨hquiet, hfailed⟩ := Pending.not_mentions_of_contains_removed hr hm
      exact (h.latest r hquiet).trans (hw.removed r hfailed)
  · obtain hm | ha | ⟨-, hne⟩ := h.cases_of_ne hr
    · exact .inl (Pending.mentions_requeue.2 (.inl hm))
    · exact .inr ha
    · obtain hm | ha := hw.covered r hne
      · exact .inl (Pending.mentions_requeue.2 (.inr hm))
      · exact (h.onTheWay r ha).imp_left fun hm => Pending.mentions_requeue.2 (.inl hm)

end Since

/-! ## Runs -/

/-- The workspace `w` after a `RaceEvent`. -/
def raceStep (S : ObjectStore σ) (w : Workspace (Reports σ)) :
    RaceEvent → Workspace (Reports σ)
  | .move x => w.move x
  | .plan faults => { w with store := { w.store with faults } }
  | .flush => ((flush (racing S)).run w).2

/-- The workspace `w` after events among callers. -/
def race (S : ObjectStore σ) (w : Workspace (Reports σ)) (es : List RaceEvent) :
    Workspace (Reports σ) :=
  es.foldl (raceStep S) w

/-! ## What a run keeps -/

/-- A `flush` among callers keeps what its calls keep, if that does not depend on the writer. -/
private theorem run_flush_of_keeps {P : Workspace (Reports σ) → Prop}
    (hT : ∀ c, Keeps P ((racing S).call c))
    (hwriter : ∀ u x, P u → P { u with persisting := x })
    (hmementos : ∀ u q, P u → P { u with mementos := q }) (hw : w.IsRacing) (hP : P w) :
    P ((flush (racing S)).run w).2 := by
  cases hpending : w.persisting.pending.isEmpty with
  | true =>
    rw [run_flush_of_idle (.inr hpending)]
    exact hP
  | false =>
    obtain ⟨n, u, hu, hend⟩ | ⟨e, u, hu, hend⟩ := end_of_flush_of_isWanted (Writes.of_keeps hT)
      (fun _ _ _ hu _ => hmementos _ _ hu) hw.isRunning hpending hw.isPlaced.isFiled
      hw.isWanted_delta (hwriter _ _ hP)
    · rw [hu]
      exact hend
    · rw [hu]
      exact hwriter _ _ hend

namespace IsFollowed

variable (hS : S.Mirrors held) (hw : w.IsFollowed held)
include hw

/-- `IsFollowed` is kept by every `move`. -/
theorem move {x : Move} (hx : x.IsPlaced) : (w.move x).IsFollowed held :=
  ((Since.start hw.toIsRacing hw.isPrepared).move hx).isFollowed fun r hr => .inr (hw.covered r hr)

include hS

/-- `IsFollowed` is kept by every `flush`, whether or not it succeeds. -/
theorem flush : ((flush (racing S)).run w).2.IsFollowed held := by
  cases hpending : w.persisting.pending.isEmpty with
  | true =>
    rw [run_flush_of_idle (.inr hpending)]
    exact hw
  | false =>
    -- What is due is fixed when the flush takes what is pending.
    have hwrites : Writes (racing S) w.due (Since held w.taken) :=
      show Writes (racing S) w.taken.due (Since held w.taken) from Since.writes hS hw.isPlaced
    obtain ⟨n, u, hu, hend⟩ | ⟨e, u, hu, hend⟩ := end_of_flush_of_isWanted hwrites
      (fun _ _ _ hu hq => hu.setMementos hq) hw.isRunning hpending hw.isPlaced.isFiled
      hw.isWanted_delta (Since.start hw.taken hw.isPrepared)
    · rw [hu]
      exact hend.isFollowed fun r hr => (hw.covered r hr).imp_right .inr
    · rw [hu]
      exact hend.isFollowed_giveBack hw

/-- `IsFollowed` is kept by every `raceStep`. -/
theorem step {e : RaceEvent} (he : e.Allows Move.IsPlaced) : (w.raceStep S e).IsFollowed held := by
  cases e with
  | move x => exact hw.move he
  | plan faults => exact { hw with allows := he }
  | flush => exact hw.flush hS

omit hw

/-- `IsFollowed` is kept by every `race`. -/
theorem run {es : List RaceEvent} (hw : w.IsFollowed held)
    (hes : ∀ e ∈ es, e.Allows Move.IsPlaced) : (w.race S es).IsFollowed held := by
  induction es generalizing w with
  | nil => exact hw
  | cons e es ih =>
    rw [List.forall_mem_cons] at hes
    exact ih (hw.step hS hes.1) hes.2

end IsFollowed

/-- A `flush` that succeeds, while nothing goes on beside it, leaves nothing pending. -/
private theorem isEmpty_pending_of_quiet (hw : w.IsRacing)
    (hquiet : ∀ f ∈ w.store.faults, f.meanwhile = []) {n : Nat}
    (h : (flush (racing S)).run w = (.ok n, v)) :
    v.persisting.pending.isEmpty = true ∧ v.graph = w.graph ∧
      v.store.onTheWay = w.store.onTheWay := by
  let P (u : Workspace (Reports σ)) : Prop := (u.persisting.pending.isEmpty = true ∧
    u.graph = w.graph ∧ u.store.onTheWay = w.store.onTheWay) ∧ Allows (fun _ => False) u.store.faults
  -- With nothing going on beside them, the calls leave the graph and the reports alone.
  have hcalls (c : Store.Call) : Keeps P ((racing S).call c) :=
    ObjectStore.keeps_faulty (fun _ hu => hu.2) (fun _ _ hu hfs => ⟨hu.1, hfs⟩)
      (fun _ _ _ => False.elim) fun _ hu => hu
  have hfaults : Allows (fun _ => False) w.store.faults := Fault.allows_of_quiet hquiet
  exact (of_flush_of_keeps hcalls (fun _ _ hu => hu) hw.isRunning hw.isPlaced.isFiled
    hw.isWanted_delta (fun hempty => ⟨⟨hempty, rfl, rfl⟩, hfaults⟩)
    ⟨⟨rfl, rfl, rfl⟩, hfaults⟩ h).1

/-! ## What is stored in the end -/

/-- A writer has begun to listen, nothing has been reported to it yet, and the store is as the
graph. -/
structure IsLevel (held : σ → Memory) (w : Workspace (Reports σ)) : Prop where
  isRunning : w.persisting.isRunning = true
  listener : w.listener = some (.writer .persisting)
  isStopped : w.mementos.isStopped = false
  isPrepared : (held w.store.store).isPrepared = true
  isPlaced : w.graph.IsPlaced
  allows : Allows Move.IsPlaced w.store.faults
  pending : w.persisting.pending = .none
  onTheWay : w.store.onTheWay = []
  latest : w.store.latest = .empty
  stored : ∀ r, w.storedText? held r = w.graph.text? r

namespace IsLevel

/-- `IsFollowed` holds where `IsLevel` does, as store and graph agree. -/
theorem isFollowed (h : w.IsLevel held) : w.IsFollowed held where
  toIsRacing := { h with
    changed := by
      rw [h.pending]
      nofun
    removed := by
      rw [h.pending]
      nofun }
  isPrepared := h.isPrepared
  covered r hr := by
    refine absurd ((h.stored r).trans (map_toText_due.2 fun hovertaken => ?_).symm) hr
    rw [IsOvertaken, h.latest, ByRef.get?_empty] at hovertaken
    cases hovertaken.1

end IsLevel

/-- Once all reports have come in and a `flush` has succeeded, all that is `due` is stored. -/
private theorem storedText?_of_flush (hS : S.Mirrors held) (hw : w.IsFollowed held)
    (hdelivered : w.store.onTheWay = []) (hquiet : ∀ f ∈ w.store.faults, f.meanwhile = [])
    {n : Nat} (hflush : (flush (racing S)).run w = (.ok n, v)) :
    v.graph = w.graph ∧ v.store.onTheWay = [] ∧
      ∀ r, v.storedText? held r = (v.due r).map Memento.codec.toText := by
  have hv : v.IsFollowed held := by
    have h := hw.flush hS
    rwa [hflush] at h
  obtain ⟨hpending, hgraph, hway⟩ := isEmpty_pending_of_quiet hw.toIsRacing hquiet hflush
  rw [hdelivered] at hway
  refine ⟨hgraph, hway, fun r => ?_⟩
  -- What is not stored would be pending or awaited, and nothing is either.
  by_contra hne
  obtain hm | ⟨c, hc, -⟩ := hv.covered r hne
  · exact Pending.not_mentions_of_isEmpty hpending r hm
  · rw [hway] at hc
    exact List.not_mem_nil hc

/-- However callers race: once all their reports have come in and a `flush` has succeeded, an object
is stored as it is in the graph, unless it `IsOvertaken`: a removal of it came in last and yet the
graph has it. Then it is not stored at all. -/
theorem stores_iff_not_isOvertaken (hS : S.Mirrors held) (hw : w.IsLevel held)
    {es : List RaceEvent} (hes : ∀ e ∈ es, e.Allows Move.IsPlaced)
    (hdelivered : (w.race S es).store.onTheWay = [])
    (hquiet : ∀ f ∈ (w.race S es).store.faults, f.meanwhile = []) {n : Nat}
    (hflush : (flush (racing S)).run (w.race S es) = (.ok n, v)) :
    v.graph = (w.race S es).graph ∧ ∀ r,
      (v.storedText? held r = v.graph.text? r ↔ ¬v.IsOvertaken r) ∧
      (v.IsOvertaken r → v.storedText? held r = none) := by
  obtain ⟨hgraph, -, hstored⟩ :=
    storedText?_of_flush hS (hw.isFollowed.run hS hes) hdelivered hquiet hflush
  refine ⟨hgraph, fun r => ⟨?_, fun hovertaken => ?_⟩⟩
  · rw [hstored r]
    exact map_toText_due
  · -- The last report of an overtaken object says that it was removed, so nothing is due of it.
    rw [hstored r, due, if_pos hovertaken.1]
    rfl

/-- A `Workspace` without objects that has begun to listen. -/
def listening : Workspace (Reports Memory) :=
  startWriter { store := { store := .prepared } } .persisting

/-- `listening` has nothing stored and nothing in its graph. -/
private theorem listening_isLevel : listening.IsLevel id where
  isRunning := rfl
  listener := rfl
  isStopped := rfl
  isPrepared := rfl
  isPlaced := ⟨nofun, nofun⟩
  allows := List.forall_mem_nil _
  pending := rfl
  onTheWay := rfl
  latest := rfl
  stored r := by
    rw [ManagedGraph.text?, show listening.graph.get? r = none from ByRef.get?_empty r]
    exact ite_self none

/-- Events for `listening`. An entity comes in and is written. Then one caller takes it out and
another puts it back, and the report of the first one comes in last. -/
def overtaking : List RaceEvent :=
  [.move (.edit (.manage (.shell ⟨.entity, "a", "web"⟩))), .move (.deliver 0), .flush,
    .move (.edit (.unmanage ⟨.entity, "a"⟩)),
    .move (.edit (.manage (.shell ⟨.entity, "a", "web"⟩))), .move (.deliver 1),
    .move (.deliver 0)]

/-- `stores_iff_not_isOvertaken` for `overtaking`: the next flush takes the entity out of the store,
although it is in the graph. -/
theorem stores_iff_not_isOvertaken_overtaking : ∃ v,
    (flush (racing Memory.store)).run (listening.race Memory.store overtaking) = (.ok 1, v) ∧
      (listening.race Memory.store overtaking).store.onTheWay = [] ∧
      ((listening.race Memory.store overtaking).storedText? id ⟨.entity, "a"⟩).isSome = true ∧
      v.storedText? id ⟨.entity, "a"⟩ = none ∧ (v.graph.get? ⟨.entity, "a"⟩).isSome = true := by
  have hplaced : ∀ e ∈ overtaking, e.Allows Move.IsPlaced := by
    have ha : Path.isSingle "a" = true := by decide
    simp only [overtaking, List.forall_mem_cons]
    exact ⟨ha, trivial, trivial, trivial, ha, trivial, trivial, List.forall_mem_nil _⟩
  have hway : (listening.race Memory.store overtaking).store.onTheWay.isEmpty = true := by
    decide +kernel
  have hfaults : (listening.race Memory.store overtaking).store.faults.isEmpty = true := by
    decide +kernel
  have hstored :
      ((listening.race Memory.store overtaking).storedText? id ⟨.entity, "a"⟩).isSome = true := by
    decide +kernel
  have hgraph : ((listening.race Memory.store overtaking).graph.get? ⟨.entity, "a"⟩).isSome =
      true := by
    decide +kernel
  obtain ⟨v, hflush⟩ : ∃ v,
      (flush (racing Memory.store)).run (listening.race Memory.store overtaking) = (.ok 1, v) :=
    Action.exists_run_eq_ok (by decide +kernel)
  have hlatest : ((flush (racing Memory.store)).run
      (listening.race Memory.store overtaking)).2.store.latest.get? ⟨.entity, "a"⟩ =
        some (.removed ⟨.entity, "a"⟩) := by
    decide +kernel
  obtain ⟨hsame, hend⟩ := stores_iff_not_isOvertaken Memory.mirrors listening_isLevel hplaced
    (List.isEmpty_iff.1 hway) (by rw [List.isEmpty_iff.1 hfaults]; exact List.forall_mem_nil _)
    hflush
  rw [hflush] at hlatest
  rw [← hsame] at hgraph
  exact ⟨v, hflush, List.isEmpty_iff.1 hway, hstored,
    (hend ⟨.entity, "a"⟩).2 ⟨hlatest, hgraph⟩, hgraph⟩

/-! ## Reports in order -/

/-- The latest report of each object, once all that are on the way have come in in order. -/
def announced (w : Workspace (Reports σ)) : ByRef Change :=
  w.store.onTheWay.foldl (fun latest c => latest.insert c.ref c) w.store.latest

/-- What has been `announced` as removed is gone, and no report will overtake another. -/
structure IsOrderly (w : Workspace (Reports σ)) : Prop where
  listener : w.listener = some (.writer .persisting)
  gone : ∀ r, w.announced.get? r = some (.removed r) → w.graph.get? r = none
  allows : Allows Move.IsInOrder w.store.faults

namespace IsOrderly

/-- `IsOrderly` is kept by a `move` that `IsInOrder`. -/
theorem move (h : w.IsOrderly) {x : Move} (hx : x.IsInOrder) : (w.move x).IsOrderly := by
  obtain heq | ⟨e, g, c, -, he, heq⟩ | ⟨i, c, rfl, hc, heq⟩ := move_cases h.listener x
  · rwa [heq]
  · rw [heq]
    refine { h with gone := fun r hr => ?_ }
    rw [announced, List.foldl_append, List.foldl_cons, List.foldl_nil, ByRef.get?_insert] at hr
    split at hr
    · cases hr
      exact ManagedGraph.get?_of_edit_removed he
    · next hne => exact (ManagedGraph.get?_of_edit he hne).trans (h.gone r hr)
  · obtain rfl : i = 0 := hx
    rw [heq]
    refine { h with gone := fun r hr => h.gone r ?_ }
    -- The report that has come in was the first on the way.
    obtain ⟨cs, hway⟩ : ∃ cs, w.store.onTheWay = c :: cs := by
      cases hcs : w.store.onTheWay with
      | nil =>
        rw [hcs] at hc
        cases hc
      | cons d cs =>
        rw [hcs] at hc
        cases hc
        exact ⟨cs, rfl⟩
    rw [announced, hway] at hr ⊢
    exact hr

/-- `IsOrderly` is kept by a `flush`. -/
theorem flush (h : w.IsOrderly) (hw : w.IsRacing) : ((flush (racing S)).run w).2.IsOrderly :=
  run_flush_of_keeps (P := IsOrderly)
    (fun _ => ObjectStore.keeps_faulty (fun _ h => h.allows)
      (fun _ _ h hfs => { h with allows := hfs }) (fun _ _ h => h.move)
      fun _ h => { h with })
    (fun _ _ h => { h with }) (fun _ _ h => { h with }) hw h

/-- `IsOrderly` is kept by a `raceStep` during which no report overtakes another. -/
theorem step (h : w.IsOrderly) (hw : w.IsRacing) {e : RaceEvent} (he : e.Allows Move.IsInOrder) :
    (w.raceStep S e).IsOrderly := by
  cases e with
  | move x => exact h.move he
  | plan faults => exact { h with allows := he }
  | flush => exact h.flush hw

/-- `IsOrderly` is kept by a `race` in which no report overtakes another. -/
theorem run (hS : S.Mirrors held) {es : List RaceEvent} (h : w.IsOrderly) (hw : w.IsFollowed held)
    (hes : ∀ e ∈ es, e.Allows Move.IsPlaced) (horder : ∀ e ∈ es, e.Allows Move.IsInOrder) :
    (w.race S es).IsOrderly := by
  induction es generalizing w with
  | nil => exact h
  | cons e es ih =>
    rw [List.forall_mem_cons] at hes horder
    exact ih (h.step hw.toIsRacing horder.1) (hw.step hS hes.1) hes.2 horder.2

end IsOrderly

/-- If the reports come in in the order of the edits (`IsInOrder`), no update is lost: once all of
them have come in and a `flush` has succeeded, the store is as the graph. -/
theorem stores_of_inOrder (hS : S.Mirrors held) (hw : w.IsLevel held)
    (hfaults : Allows Move.IsInOrder w.store.faults) {es : List RaceEvent}
    (hes : ∀ e ∈ es, e.Allows Move.IsPlaced) (horder : ∀ e ∈ es, e.Allows Move.IsInOrder)
    (hdelivered : (w.race S es).store.onTheWay = [])
    (hquiet : ∀ f ∈ (w.race S es).store.faults, f.meanwhile = []) {n : Nat}
    (hflush : (flush (racing S)).run (w.race S es) = (.ok n, v)) (r : ObjectRef) :
    v.storedText? held r = v.graph.text? r := by
  have hstart : w.IsOrderly := by
    refine ⟨hw.listener, fun r hr => ?_, hfaults⟩
    rw [announced, hw.onTheWay, hw.latest, List.foldl_nil, ByRef.get?_empty] at hr
    cases hr
  have hrun := hw.isFollowed.run hS hes
  have hv : v.IsOrderly := by
    have h := IsOrderly.flush (S := S) (hstart.run hS hw.isFollowed hes horder) hrun.toIsRacing
    rwa [hflush] at h
  obtain ⟨-, hway, hstored⟩ := storedText?_of_flush hS hrun hdelivered hquiet hflush
  rw [hstored r]
  refine map_toText_due.2 fun ⟨hlatest, hgraph⟩ => ?_
  -- Nothing is on the way any more, so what came in last is what was announced last.
  have hgone := hv.gone r (by rw [announced, hway]; exact hlatest)
  rw [hgone] at hgraph
  cases hgraph

end Workspace

end Failover
