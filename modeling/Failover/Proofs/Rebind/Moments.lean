import Failover.Proofs.Rebind.Flush

/-!
# The moments of a flush

A flush is over only after many calls of the store. What a workspace is like before and after each
of them is noted by a store that is watched, which does nothing else. At every such moment a
difference between store and graph is pending or in the delta that is being written.

## Key results

- `checkpointNow_watched`, `flush_watched`: to be watched changes nothing
- `IsCovered.mentions_of_mem_checkpointMoments`: at every moment of a checkpoint each difference is
  pending
- `IsCovered.mentions_or_lists_of_mem_flushMoments`: at every moment of a flush each difference is
  pending or in the delta
-/

namespace Failover

open Failover.Action (Meets)

variable {σ : Type}

namespace Workspace

/-! ## Watching -/

/-- The workspace `w`, of which nothing has been noted yet. -/
def watch (w : Workspace σ) : Workspace (σ × List (Workspace σ)) := w.withStore (w.store, [])

/-- The workspace `w` without what has been noted of it. -/
def unwatch (w : Workspace (σ × List (Workspace σ))) : Workspace σ := w.withStore w.store.1

/-- The store `T`, which notes what the workspace is like before and after each call. -/
def watched (T : ObjectStore (Workspace σ)) : ObjectStore (Workspace (σ × List (Workspace σ))) :=
  ⟨T.summary, fun c w =>
    let (r, u) := T.step c w.unwatch
    (r, u.withStore (u.store, w.store.2 ++ [w.unwatch, u]))⟩

variable {T : ObjectStore (Workspace σ)}

/-- A store that is `watched` is in step with itself. -/
theorem watched_inStep (T : ObjectStore (Workspace σ)) :
    (watched T).InStep T fun w v => w.unwatch = v := by
  rintro c w _ rfl
  exact ⟨rfl, rfl⟩

/-- `checkpointNow` over a store that is `watched` comes to the same as over the store itself. -/
theorem checkpointNow_watched (w : Workspace (σ × List (Workspace σ))) :
    ((checkpointNow (watched T)).run w).1 = ((checkpointNow T).run w.unwatch).1 ∧
      ((checkpointNow (watched T)).run w).2.unwatch = ((checkpointNow T).run w.unwatch).2 := by
  -- The checkpoint is made of calls of the store, and watching those changes none of them.
  have hstep : Action.InStep (fun w v => unwatch w = v)
      (w.mementos.checkpoint (watched T) w.graph.snapshot >>= fun q =>
        modify fun w => { w with mementos := q })
      (w.mementos.checkpoint T w.graph.snapshot >>= fun q =>
        modify fun w => { w with mementos := q }) := by
    refine .bind ((watched_inStep T).checkpoint _ _) fun q => ?_
    rintro w _ rfl
    exact ⟨rfl, rfl⟩
  rw [run_checkpointNow, run_checkpointNow]
  exact hstep w _ rfl

/-- `flush` over a store that is `watched` comes to the same as over the store itself. -/
theorem flush_watched (w : Workspace (σ × List (Workspace σ))) :
    ((flush (watched T)).run w).1 = ((flush T).run w.unwatch).1 ∧
      ((flush (watched T)).run w).2.unwatch = ((flush T).run w.unwatch).2 := by
  by_cases hidle : w.persisting.isRunning = false ∨ w.persisting.pending.isEmpty = true
  · rw [run_flush_of_idle hidle, run_flush_of_idle (w := w.unwatch) hidle]
    exact ⟨rfl, rfl⟩
  · rw [not_or, Bool.not_eq_false, Bool.not_eq_true] at hidle
    obtain ⟨hrunning, hpending⟩ := hidle
    -- The delta is written by the same calls, of which what is noted is only a record.
    have hstep : Action.InStep (fun w v => unwatch w = v)
        (w.mementos.delta (watched T) (w.persisting.pending.delta w.graph) >>= fun q =>
          modify fun w => { w with mementos := q })
        (w.mementos.delta T (w.persisting.pending.delta w.graph) >>= fun q =>
          modify fun w => { w with mementos := q }) := by
      refine .bind ((watched_inStep T).delta _ _) fun q => ?_
      rintro w _ rfl
      exact ⟨rfl, rfl⟩
    have hdelta : ∀ r u, (delta (watched T) (w.persisting.pending.delta w.graph)).run w.taken =
        (r, u) → (delta T (w.unwatch.persisting.pending.delta w.unwatch.graph)).run w.unwatch.taken =
          (r, u.unwatch) := by
      intro r u hrun
      rw [run_delta] at hrun ⊢
      obtain ⟨hr, hu⟩ := hstep w.taken _ rfl
      exact Prod.ext (hr.symm.trans (congrArg Prod.fst hrun))
        (hu.symm.trans (congrArg (fun s => unwatch s.2) hrun))
    rw [run_flush hrunning hpending, run_flush (w := w.unwatch) hrunning hpending]
    cases hrun : (delta (watched T) (w.persisting.pending.delta w.graph)).run w.taken with
    | mk r u =>
      rw [hdelta r u hrun]
      cases r with
      | ok => exact ⟨rfl, rfl⟩
      | error e => exact ⟨rfl, rfl⟩

/-! ## What is noted -/

/-- What the calls of a store keep holds of all that is noted of them once it is `watched`. -/
theorem meets_watched {P : Workspace σ → Prop} {L : Workspace σ → Prop} {c : Store.Call}
    {Q : c.Answer → Workspace σ → Prop} (h : Meets P Q P (T.call c)) (hP : ∀ w, P w → L w)
    (hQ : ∀ a w, Q a w → L w) :
    Meets (fun w => P w.unwatch ∧ ∀ v ∈ w.store.2, L v)
      (fun a w => Q a w.unwatch ∧ ∀ v ∈ w.store.2, L v)
      (fun w => P w.unwatch ∧ ∀ v ∈ w.store.2, L v) ((watched T).call c) := by
  rintro w ⟨hw, hlog⟩
  have hrun : ((watched T).call c).run w =
      (((T.call c).run w.unwatch).1, ((T.call c).run w.unwatch).2.withStore
        (((T.call c).run w.unwatch).2.store,
          w.store.2 ++ [w.unwatch, ((T.call c).run w.unwatch).2])) := rfl
  -- Each call adds what the workspace is before and after it.
  have hnoted (u : Workspace σ) (hu : L u) : ∀ v ∈ w.store.2 ++ [w.unwatch, u], L v := by
    simp only [List.mem_append, List.mem_cons, List.not_mem_nil, or_false]
    rintro v (hv | rfl | rfl)
    · exact hlog v hv
    · exact hP _ hw
    · exact hu
  rw [hrun]
  obtain ⟨a, u, hu, hend⟩ | ⟨e, u, hu, hend⟩ := h.run_cases hw
  · rw [hu]
    exact ⟨hend, hnoted u (hQ a u hend)⟩
  · rw [hu]
    exact ⟨hend, hnoted u (hP u hend)⟩

end Workspace

open Workspace

/-- `Writes` of a store that is `watched`: what is kept while some objects are written holds of all
that is noted meanwhile. -/
theorem Writes.watched {T : ObjectStore (Workspace σ)} {want : ObjectRef → Option Memento}
    {P : Set ObjectRef → Workspace σ → Prop} (h : Writes T want P) :
    Writes (Workspace.watched T) want
      fun done w => P done w.unwatch ∧ ∀ v ∈ w.store.2, P ∅ v := by
  -- At every moment at least nothing has been written.
  have hall {done : Set ObjectRef} (w : Workspace σ) : P done w → P ∅ w :=
    h.mono (Set.empty_subset _) w
  exact {
    mono := fun hsub w hw => ⟨h.mono hsub _ hw.1, hw.2⟩
    openObject := fun done path => meets_watched (h.openObject done path) hall fun _ => hall
    createSubPath := fun done p => meets_watched (h.createSubPath done p) hall fun _ => hall
    list := fun done k =>
      meets_watched (c := .list k.subPath) (h.list done k) hall fun _ => hall
    put := fun done x hx => meets_watched (h.put done x hx) hall fun _ => hall
    delete := fun done r hr => meets_watched (h.delete done r hr) hall fun _ => hall }

namespace Workspace

variable {S : ObjectStore σ} {held : σ → Memory} {w u : Workspace σ}

/-- What the workspace `w` is like before and after each call of a checkpoint. -/
def checkpointMoments (T : ObjectStore (Workspace σ)) (w : Workspace σ) : List (Workspace σ) :=
  ((checkpointNow (watched T)).run w.watch).2.store.2

/-- What the workspace `w` is like before and after each call of a flush. -/
def flushMoments (T : ObjectStore (Workspace σ)) (w : Workspace σ) : List (Workspace σ) :=
  ((flush (watched T)).run w.watch).2.store.2

namespace IsCovered

variable (hS : S.Mirrors held) (hw : w.IsCovered held)
include hS hw

/-- At all `checkpointMoments` each difference between store and graph is pending. -/
theorem mentions_of_mem_checkpointMoments (hu : u ∈ w.checkpointMoments (faulty S)) {r : ObjectRef}
    (hr : (held u.store).storedText? r ≠ u.graph.text? r) : u.persisting.pending.Mentions r := by
  have hend := end_of_checkpointNow (w := w.watch) (Amid.writes hS hw.isPlaced).watched
    (fun _ _ _ hv hq => ⟨hv.1.setMementos hq, hv.2⟩) hw.isPlaced.isFiled
    ⟨Amid.start hw.toIsAttached, List.forall_mem_nil _⟩
  -- Whether or not the checkpoint succeeds, all its moments are in the log.
  have hamid : Amid held w ∅ u := by
    rw [checkpointMoments] at hu
    obtain ⟨v, hv, -, hlog⟩ | ⟨e, v, hv, -, hlog⟩ := hend
    · rw [hv] at hu
      exact hlog u hu
    · rw [hv] at hu
      exact hlog u hu
  exact (hamid.mentions_of_ne hr).elim id fun hne => hamid.pending r (hw.covered r hne.2)

/-- At all `flushMoments` each difference between store and graph is pending or in the delta that is
being written. -/
theorem mentions_or_lists_of_mem_flushMoments (hu : u ∈ w.flushMoments (faulty S)) {r : ObjectRef}
    (hr : (held u.store).storedText? r ≠ u.graph.text? r) :
    u.persisting.pending.Mentions r ∨ (w.persisting.pending.delta w.graph).Lists r := by
  rw [flushMoments] at hu
  cases hpending : w.persisting.pending.isEmpty with
  | true =>
    rw [run_flush_of_idle (w := w.watch) (.inr hpending)] at hu
    exact absurd hu List.not_mem_nil
  | false =>
    have hend := end_of_flush (w := w.watch) (Amid.writes_taken hS hw.isPlaced).watched
      (fun _ _ _ hv hq => ⟨hv.1.setMementos hq, hv.2⟩) hw.isRunning hpending hw.isPlaced.isFiled
      hw.removed ⟨Amid.start hw.toIsAttached.taken, List.forall_mem_nil _⟩
    -- Whether or not the flush succeeds, all its moments are in the log.
    have hamid : Amid held w.taken ∅ u := by
      obtain ⟨n, v, hv, -, hlog⟩ | ⟨e, v, hv, -, hlog⟩ := hend
      · rw [hv] at hu
        exact hlog u hu
      · rw [hv] at hu
        exact hlog u hu
    exact (hamid.mentions_of_ne hr).imp_right fun hne =>
      (Pending.lists_delta hw.isPlaced.isFiled).2 (hw.covered r hne.2)

end IsCovered

end Workspace

end Failover
