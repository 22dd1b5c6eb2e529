import Failover.Proofs.Rebind.Amid

/-!
# Flushes and checkpoints lose nothing

`IsCovered` says that wherever a store differs from the graph, a report is pending. It holds once a
node has started to persist, and every checkpoint and every flush keeps it, however many of their
calls come to be made.

## Key results

- `isCovered_of_startPersisting`: a node that has started to persist has covered all differences
- `IsCovered.checkpointNow`, `IsCovered.flush`: checkpoints and flushes keep differences covered
- `end_of_flush_of_isWanted`, `of_flush_of_keeps`: how a flush ends, from what its calls keep
- `isEmpty_pending_of_flush`: what a flush leaves during which nothing happens
-/

namespace Failover

open Failover.Action (Keeps Meets)
open Store.Fault (Allows)

namespace Workspace

variable {σ : Type} {S : ObjectStore σ} {held : σ → Memory} {w w₀ w' : Workspace σ}
  {done : Set ObjectRef}

/-! ## A whole checkpoint, a whole flush -/

/-- `checkpointNow` is a `checkpoint` of the graph by the persister, which is then kept. -/
theorem run_checkpointNow (T : ObjectStore (Workspace σ)) (w : Workspace σ) :
    (checkpointNow T).run w = (w.mementos.checkpoint T w.graph.snapshot >>= fun q =>
      modify fun u => { u with mementos := q }).run w := by
  rw [checkpointNow, Action.run_bind_of_ok (Action.run_get w), checkpoint,
    Action.run_bind_of_ok (Action.run_get w)]

/-- `delta` of a workspace is one by its persister, which is then kept. -/
theorem run_delta (T : ObjectStore (Workspace σ)) (d : Delta) (w : Workspace σ) :
    (delta T d).run w = (w.mementos.delta T d >>= fun q =>
      modify fun u => { u with mementos := q }).run w := by
  rw [delta, Action.run_bind_of_ok (Action.run_get w)]

/-- The workspace `w` once a flush has taken what is pending. -/
def taken (w : Workspace σ) : Workspace σ := w.updateWriter .persisting (·.taken)

/-- A `flush` that has something to write takes all that is pending, writes its `delta`, and gives
it back if that fails. -/
theorem run_flush {T : ObjectStore (Workspace σ)} (hrunning : w.persisting.isRunning = true)
    (hpending : w.persisting.pending.isEmpty = false) :
    (flush T).run w =
      match (delta T (w.persisting.pending.delta w.graph)).run w.taken with
      | (.ok _, u) => (.ok (w.persisting.pending.delta w.graph).size, u)
      | (.error e, u) =>
        (.error e, u.updateWriter .persisting (·.giveBack w.persisting.pending)) := by
  -- There is something to write and the writer is running, so the flush goes on.
  have hgoes : (!(w.writer .persisting).isRunning || (w.writer .persisting).pending.isEmpty) =
      false := by
    rw [writer, hrunning, hpending]
    rfl
  rw [flush, flushWriter, Action.run_bind_of_ok (Action.run_get w)]
  simp only [hgoes, Bool.false_eq_true, if_false]
  rw [Action.run_bind_of_ok (Action.run_set ..), Action.run_bind_of_ok (Action.run_attempt ..)]
  have hdelta : (delta T ((w.writer .persisting).pending.delta w.graph)).run
      (w.updateWriter .persisting (·.taken)) =
        (delta T (w.persisting.pending.delta w.graph)).run w.taken := rfl
  rw [hdelta]
  generalize (delta T (w.persisting.pending.delta w.graph)).run w.taken = result
  obtain ⟨r, u⟩ := result
  cases r with
  | ok => rfl
  | error e => rfl

/-- A writer that runs puts back what a flush had taken, by `requeue`. -/
theorem updateWriter_giveBack (hrunning : w.persisting.isRunning = true) (failed : Pending) :
    w.updateWriter .persisting (·.giveBack failed) = { w with
      persisting := { w.persisting with pending := w.persisting.pending.requeue failed } } := by
  rw [updateWriter, DeltaWriter.giveBack, if_pos hrunning]

/-- A `flush` with nothing to write does nothing. -/
theorem run_flush_of_idle {T : ObjectStore (Workspace σ)}
    (h : w.persisting.isRunning = false ∨ w.persisting.pending.isEmpty = true) :
    (flush T).run w = (.ok 0, w) := by
  have hstays : (!(w.writer .persisting).isRunning || (w.writer .persisting).pending.isEmpty) =
      true := by
    obtain h | h := h <;> simp [writer, h]
  rw [flush, flushWriter, Action.run_bind_of_ok (Action.run_get w)]
  simp only [hstays, if_true]
  rfl

/-- How a `flush` ends that has something to write, if what is wanted is what its delta lists. -/
theorem end_of_flush_of_isWanted {T : ObjectStore (Workspace σ)}
    {P : Set ObjectRef → Workspace σ → Prop} {want : ObjectRef → Option Memento}
    (hT : Writes T want P)
    (hset : ∀ done u q, P done u → q.isStopped = false → P done { u with mementos := q })
    (hrunning : w.persisting.isRunning = true) (hpending : w.persisting.pending.isEmpty = false)
    (hfiled : w.graph.IsFiled) (hwanted : (w.persisting.pending.delta w.graph).IsWanted want)
    (hw : P ∅ w.taken) :
    (∃ n u, (flush T).run w = (.ok n, u) ∧ P {r | w.persisting.pending.Mentions r} u) ∨
      ∃ e u, (flush T).run w =
        (.error e, u.updateWriter .persisting (·.giveBack w.persisting.pending)) ∧ P ∅ u := by
  have hmeets : Meets (P ∅) (fun _ => P {r | w.persisting.pending.Mentions r}) (P ∅)
      (w.taken.mementos.delta T (w.persisting.pending.delta w.graph) >>= fun q =>
        modify fun u => { u with mementos := q }) := by
    -- The delta writes what is pending, and in the end the persister is put back.
    refine (hT.delta hwanted ∅).bind fun q s hs => hset _ s q (hT.mono ?_ s hs.2) hs.1
    exact fun r hr => .inr ((Pending.lists_delta hfiled).2 hr)
  rw [run_flush hrunning hpending, run_delta]
  obtain ⟨_, u, hu, hend⟩ | ⟨e, u, hu, hend⟩ := hmeets.run_cases hw
  · exact .inl ⟨_, u, by rw [hu], hend⟩
  · exact .inr ⟨e, u, by rw [hu], hend⟩

/-- The `delta` of what is pending lists what the graph has, if what is to be removed is not in the
graph. -/
theorem isWanted_delta (hfiled : w.graph.IsFiled)
    (hremoved : ∀ r, w.persisting.pending.removed.contains r = true → w.graph.get? r = none) :
    (w.persisting.pending.delta w.graph).IsWanted w.graph.memento? :=
  Pending.isWanted_delta hfiled (fun _ _ => rfl) fun r hr => by
    rw [ManagedGraph.memento?, hremoved r hr]
    rfl

section Ends

variable {T : ObjectStore (Workspace σ)} {P : Set ObjectRef → Workspace σ → Prop}
  (hT : Writes T w.graph.memento? P)
  (hset : ∀ done u q, P done u → q.isStopped = false → P done { u with mementos := q })
include hT hset

/-- How a `checkpointNow` ends: all objects have been written, or it has failed. -/
theorem end_of_checkpointNow (hfiled : w.graph.IsFiled) (hw : P ∅ w) :
    (∃ u, (checkpointNow T).run w = (.ok (), u) ∧ P Set.univ u) ∨
      ∃ e u, (checkpointNow T).run w = (.error e, u) ∧ P ∅ u := by
  -- A checkpoint wants of every object what the graph has of it.
  have hwant (r : ObjectRef) : w.graph.memento? r = w.graph.snapshot.get? r :=
    (ManagedGraph.get?_snapshot hfiled r).symm
  have hmeets : Meets (P ∅) (fun _ => P Set.univ) (P ∅)
      (w.mementos.checkpoint T w.graph.snapshot >>= fun q =>
        modify fun u => { u with mementos := q }) :=
    (hT.checkpoint (Topology.ofMementos_isFiled _ _) hwant ∅).bind fun q s hs =>
      hset _ s q hs.2 hs.1
  rw [run_checkpointNow]
  obtain ⟨_, u, hu, hend⟩ | hfailed := hmeets.run_cases hw
  · exact .inl ⟨u, hu, hend⟩
  · exact .inr hfailed

/-- How a `flush` ends that has something to write: the pending objects have been written, or they
are given back. -/
theorem end_of_flush (hrunning : w.persisting.isRunning = true)
    (hpending : w.persisting.pending.isEmpty = false) (hfiled : w.graph.IsFiled)
    (hremoved : ∀ r, w.persisting.pending.removed.contains r = true → w.graph.get? r = none)
    (hw : P ∅ w.taken) :
    (∃ n u, (flush T).run w = (.ok n, u) ∧ P {r | w.persisting.pending.Mentions r} u) ∨
      ∃ e u, (flush T).run w =
        (.error e, u.updateWriter .persisting (·.giveBack w.persisting.pending)) ∧ P ∅ u :=
  end_of_flush_of_isWanted hT hset hrunning hpending hfiled (isWanted_delta hfiled hremoved) hw

end Ends

/-! ## Flushes that succeed -/

/-- What holds once a `flush` has taken what is pending, and is kept by its calls, holds when the
flush has succeeded. -/
theorem of_flush_of_keeps {T : ObjectStore (Workspace σ)} {P : Workspace σ → Prop}
    {want : ObjectRef → Option Memento} (hT : ∀ c, Keeps P (T.call c))
    (hset : ∀ u q, P u → P { u with mementos := q }) (hrunning : w.persisting.isRunning = true)
    (hfiled : w.graph.IsFiled) (hwanted : (w.persisting.pending.delta w.graph).IsWanted want)
    (hidle : w.persisting.pending.isEmpty = true → P w) (htaken : P w.taken) {n : Nat}
    (h : (flush T).run w = (.ok n, w')) : P w' := by
  cases hpending : w.persisting.pending.isEmpty with
  | true =>
    rw [run_flush_of_idle (.inr hpending)] at h
    cases h
    exact hidle hpending
  | false =>
    obtain ⟨m, u, hu, hend⟩ | ⟨e, u, hu, -⟩ := end_of_flush_of_isWanted (Writes.of_keeps hT)
      (fun _ u q hu _ => hset u q hu) hrunning hpending hfiled hwanted htaken
    · cases h.symm.trans hu
      exact hend
    · cases h.symm.trans hu

/-- A `flush` that succeeds leaves nothing pending, if nothing happens during it. -/
theorem isEmpty_pending_of_flush (hrunning : w.persisting.isRunning = true)
    (hfiled : w.graph.IsFiled)
    (hremoved : ∀ r, w.persisting.pending.removed.contains r = true → w.graph.get? r = none)
    (hquiet : ∀ f ∈ w.faults, f.meanwhile = []) {n : Nat}
    (h : (flush (faulty S)).run w = (.ok n, w')) :
    w'.persisting.pending.isEmpty = true ∧ w'.graph = w.graph := by
  -- The calls leave alone what the flush has taken, and the graph.
  let P (u : Workspace σ) : Prop := (u.persisting.pending.isEmpty = true ∧ u.graph = w.graph) ∧
    Allows (fun _ => False) u.faults
  have hcalls (c : Store.Call) : Keeps P ((faulty S).call c) :=
    ObjectStore.keeps_faulty (fun _ hu => hu.2) (fun _ _ hu hfs => ⟨hu.1, hfs⟩)
      (fun _ _ _ => False.elim) fun _ hu => hu
  have hfaults : Allows (fun _ => False) w.faults := Store.Fault.allows_of_quiet hquiet
  exact (of_flush_of_keeps hcalls (fun _ _ hu => hu) hrunning hfiled
    (isWanted_delta hfiled hremoved) (fun hempty => ⟨⟨hempty, rfl⟩, hfaults⟩)
    ⟨⟨rfl, rfl⟩, hfaults⟩ h).1

/-! ## What is covered -/

/-- Wherever the store of `w` differs from its graph, a report is pending. -/
structure IsCovered (held : σ → Memory) (w : Workspace σ) : Prop extends w.IsAttached held where
  covered : ∀ r, (held w.store).storedText? r ≠ w.graph.text? r → w.persisting.pending.Mentions r

/-- `IsAttached` does not depend on what is pending, if that is less. -/
theorem IsAttached.taken (h : w.IsAttached held) : w.taken.IsAttached held :=
  { h with removed := nofun }

namespace Amid

/-- `Writes` of a flush write the graph as it was when it took what was pending. -/
theorem writes_taken (hS : S.Mirrors held) (hw₀ : w₀.graph.IsPlaced) :
    Writes (faulty S) w₀.graph.memento? (Amid held w₀.taken) :=
  show Writes (faulty S) w₀.taken.graph.memento? (Amid held w₀.taken) from writes hS hw₀

/-- `Amid` is kept when the persister that a call has returned is put in place. -/
theorem setMementos (h : Amid held w₀ done w) {q : MementoPersister} (hq : q.isStopped = false) :
    Amid held w₀ done { w with mementos := q } :=
  { h with isStopped := hq }

/-- `Amid` writing, what has been written or is still pending makes the differences covered. -/
theorem isCovered (h : Amid held w₀ done w)
    (hdone : ∀ r, (held w₀.store).storedText? r ≠ w₀.graph.text? r →
      r ∈ done ∨ w₀.persisting.pending.Mentions r) : w.IsCovered held :=
  { h with
    covered := fun r hr => (h.mentions_of_ne hr).elim id fun ⟨hnot, hne⟩ =>
      (hdone r hne).elim (absurd · hnot) (h.pending r) }

/-- `IsCovered` holds again once a flush that fails has given back what it took. -/
theorem isCovered_giveBack (hw : w₀.IsCovered held) (h : Amid held w₀.taken done w) :
    (w.updateWriter .persisting (·.giveBack w₀.persisting.pending)).IsCovered held := by
  rw [updateWriter_giveBack h.isRunning]
  refine { h with removed := fun r hr => ?_, covered := fun r hr => ?_ }
  · cases hold : w.persisting.pending.removed.contains r with
    | true => exact h.removed r hold
    | false =>
      -- Nothing newer is pending of the object, so it is still gone.
      obtain ⟨hnot, hfailed⟩ := Pending.not_mentions_of_contains_removed hr hold
      exact (h.graph r hnot).trans (hw.removed r hfailed)
  · exact Pending.mentions_requeue.2
      ((h.mentions_of_ne hr).imp_right fun hne => hw.covered r hne.2)

end Amid

/-! ## Starting to persist -/

/-- `checkpointNow` succeeds only if the persister has not been stopped. -/
theorem isStopped_of_checkpointNow {T : ObjectStore (Workspace σ)}
    (h : (checkpointNow T).run w = (.ok (), w')) : w.mementos.isStopped = false := by
  rw [run_checkpointNow] at h
  obtain ⟨q, u, hcheckpoint, -⟩ := Action.run_bind_eq_ok.1 h
  obtain ⟨t, hrunning, -⟩ := Action.run_then_eq_ok.1 hcheckpoint
  rw [MementoPersister.checkRunning, Action.run_lift] at hrunning
  cases hstopped : w.mementos.isStopped with
  | false => rfl
  | true =>
    rw [hstopped] at hrunning
    cases hrunning

/-- `IsCovered` holds of a node once `startPersisting` has succeeded, whatever changed meanwhile. -/
theorem isCovered_of_startPersisting (hS : S.Mirrors held)
    (hprepared : (held w.store).isPrepared = true) (hp : w.isPersisting = false)
    (hgraph : w.graph.IsPlaced) (hfaults : Allows Meanwhile.IsPlaced w.faults)
    (h : (startPersisting (faulty S)).run w = (.ok (), w')) :
    w'.IsCovered held ∧ w'.graph.isReadOnly = w.graph.isReadOnly := by
  have hrun := (startPersisting_eq_ok hp).1 h
  -- From here on changes are noted, so what the checkpoint does not catch is pending.
  have hattached : IsAttached held { w with
      persisting := .started
      listener := some (.writer .persisting)
      lastStarted := .persisting } :=
    { isRunning := rfl
      listener := rfl
      isStopped := isStopped_of_checkpointNow hrun
      isPrepared := hprepared
      isPlaced := hgraph
      removed := nofun
      allows := hfaults }
  obtain ⟨u, hu, hamid⟩ | ⟨e, u, hu, -⟩ := end_of_checkpointNow
    (Amid.writes hS hattached.isPlaced) (fun _ _ _ hu hq => hu.setMementos hq)
    hattached.isPlaced.isFiled (Amid.start hattached)
  · cases hrun.symm.trans hu
    exact ⟨hamid.isCovered fun r _ => .inl (Set.mem_univ r), hamid.isReadOnly⟩
  · cases hrun.symm.trans hu

/-! ## Checkpoints and flushes -/

namespace IsCovered

variable (hS : S.Mirrors held) (hw : w.IsCovered held)
include hS hw

/-- `IsCovered` is kept by `checkpointNow`, whether or not it succeeds. -/
theorem checkpointNow : (((checkpointNow (faulty S)).run w).2.IsCovered held) ∧
    ((checkpointNow (faulty S)).run w).2.graph.isReadOnly = w.graph.isReadOnly := by
  obtain ⟨u, hu, hamid⟩ | ⟨e, u, hu, hamid⟩ := end_of_checkpointNow (Amid.writes hS hw.isPlaced)
    (fun _ _ _ hu hq => hu.setMementos hq) hw.isPlaced.isFiled (Amid.start hw.toIsAttached)
  · rw [hu]
    exact ⟨hamid.isCovered fun r hr => .inr (hw.covered r hr), hamid.isReadOnly⟩
  · rw [hu]
    exact ⟨hamid.isCovered fun r hr => .inr (hw.covered r hr), hamid.isReadOnly⟩

/-- `IsCovered` is kept by `flush`, whether or not it succeeds. -/
theorem flush : ((flush (faulty S)).run w).2.IsCovered held ∧
    ((flush (faulty S)).run w).2.graph.isReadOnly = w.graph.isReadOnly := by
  cases hpending : w.persisting.pending.isEmpty with
  | true =>
    rw [run_flush_of_idle (.inr hpending)]
    exact ⟨hw, rfl⟩
  | false =>
    -- It has written what was pending, or it gives this back.
    obtain ⟨n, u, hu, hamid⟩ | ⟨e, u, hu, hamid⟩ := end_of_flush
      (Amid.writes_taken hS hw.isPlaced) (fun _ _ _ hu hq => hu.setMementos hq) hw.isRunning
      hpending hw.isPlaced.isFiled hw.removed (Amid.start hw.toIsAttached.taken)
    · rw [hu]
      exact ⟨hamid.isCovered fun r hr => .inl (hw.covered r hr), hamid.isReadOnly⟩
    · rw [hu]
      exact ⟨hamid.isCovered_giveBack hw, hamid.isReadOnly⟩

end IsCovered

end Workspace

end Failover
