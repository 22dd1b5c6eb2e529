import Failover.Proofs.Rebind.Workspace

/-!
# Shells under another name

A constructor may make a shell of another kind or id than it was asked for. The memento that is
loaded for it is then that of another object: the shell keeps its own state, and this is reported.
Yet it counts as rebuilt, and goes into the graph under its own kind and id. There it may be taken
for an object that is not stored, or hide one that was rebuilt.

## Key results

- `Rebuilt.mem_populates`: which shells are reported to stand for another object
- `Rebuilt.isRestored_or_isDisplaced`: the objects that are rebuilt, and the shells beside them
- `Rebuilt.isRestored_iff`: when there are no such shells
- `Workspace.isRestored_iff_of_rebind`: when a rebind that goes on restores all that it counts
-/

namespace Failover

/-! ## Going on -/

namespace FailureLog

/-- With `proceed`, `noteAll` takes down all failures. -/
private theorem noteAll_proceed (log : FailureLog) (fs : List RebindFailure) :
    ∃ log', noteAll .proceed log fs = .ok log' ∧ log'.failures = log.failures ++ fs := by
  induction fs generalizing log with
  | nil => exact ⟨log, rfl, (List.append_nil _).symm⟩
  | cons f fs ih =>
    obtain ⟨log', hlog', hfailures⟩ := ih ⟨log.failures ++ [f], log.failed.insert f.ref ()⟩
    exact ⟨log', hlog', by rw [hfailures, List.append_assoc, List.singleton_append]⟩

/-- With `proceed`, `noteNew` takes down failures of those that it is given and no others. -/
private theorem noteNew_proceed (log : FailureLog) (fs : List RebindFailure) :
    ∃ log', noteNew .proceed log fs = .ok log' ∧
      ∃ gs, gs ⊆ fs ∧ log'.failures = log.failures ++ gs := by
  induction fs generalizing log with
  | nil => exact ⟨log, rfl, [], List.Subset.refl _, (List.append_nil _).symm⟩
  | cons f fs ih =>
    rw [noteNew]
    split
    · -- The object has failed before, so this one is passed over.
      obtain ⟨log', hlog', gs, hgs, hfailures⟩ := ih log
      exact ⟨log', hlog', gs, List.subset_cons_of_subset f hgs, hfailures⟩
    · obtain ⟨log', hlog', gs, hgs, hfailures⟩ :=
        ih ⟨log.failures ++ [f], log.failed.insert f.ref ()⟩
      refine ⟨log', hlog', f :: gs, List.cons_subset_cons f hgs, ?_⟩
      rw [hfailures, List.append_assoc, List.singleton_append]

end FailureLog

namespace Rebuilt

variable {registry : Registry} {shells : Shells} {y : Loaded} {t : Topology} {l : Lookup}
  {r q : ObjectRef} {o : ManagedObject} {text : String}

/-- With `proceed`, `populate` gives all shells their state and takes down all that is reported of
them. -/
private theorem populate_proceed (l : Lookup) (t : Topology) (es : List (ObjectRef × ManagedObject))
    (b : Rebuilt) : ∃ log,
      populate .proceed l t es b = .ok ⟨b.objects ++ es.filterMap (populated? l t), log⟩ ∧
      ∀ r text, .populate r text ∈ log.failures ↔
        .populate r text ∈ b.log.failures ++ es.flatMap (troubles l t) := by
  -- On the shells that are left; what was populated before them stands in `b`.
  induction es generalizing b with
  | nil =>
    refine ⟨b.log, ?_, fun r text => ?_⟩
    · rw [populate, List.filterMap_nil, List.append_nil]
    · rw [List.flatMap_nil, List.append_nil]
  | cons e es ih =>
    rw [populate, populateOne, List.flatMap_cons]
    cases hget : t.get? e.1 with
    | some m =>
      have hpopulated : populated? l t e = some (e.2.apply m l).1 := by simp [populated?, hget]
      have htroubles : troubles l t e = (e.2.apply m l).2 := troubles_of_get? hget
      obtain ⟨log, hlog, hfailures⟩ := b.log.noteAll_proceed (e.2.apply m l).2
      obtain ⟨log', hrest, hmem⟩ := ih ⟨b.objects ++ [(e.2.apply m l).1], log⟩
      rw [List.append_assoc] at hrest
      rw [List.filterMap_cons_some hpopulated, htroubles, ← List.append_assoc, ← hfailures]
      refine ⟨log', ?_, hmem⟩
      simp only [hlog, bind, Except.bind, pure, Except.pure]
      exact hrest
    | none =>
      have hpopulated : populated? l t e = none := by simp [populated?, hget]
      have htroubles : troubles l t e = [] := by simp [troubles, hget]
      obtain ⟨log, hlog, gs, hgs, hfailures⟩ := b.log.noteNew_proceed [.missingMemento e.1]
      obtain ⟨log', hrest, hmem⟩ := ih { b with log }
      rw [List.filterMap_cons_none hpopulated, htroubles, List.nil_append]
      refine ⟨log', ?_, fun r text => ?_⟩
      · simp only [hlog, bind, Except.bind, pure, Except.pure]
        exact hrest
      -- At most a missing memento has been noted.
      · have hne : RebindFailure.populate r text ∉ gs := fun h => by simpa using hgs h
        rw [hmem, hfailures, List.append_assoc, List.mem_append, List.mem_append, List.mem_append,
          or_iff_right (a := _ ∈ gs) hne]

/-- With `proceed`, `load` rebuilds from the manifest and the mementos that the store gives,
whatever else happens to it. Of what fails, the shells that keep their own state are told here. -/
theorem run_load_of_proceed_eq_ok {σ : Type} {S : ObjectStore σ} {p : MementoPersister}
    {b : Rebuilt} {s v : σ} (h : (load S p registry .proceed).run s = (.ok b, v)) :
    ∃ x y u, (p.loadManifest S).run s = (.ok x, u) ∧
      (p.loadLenient S (made registry x).lookup).run u = (.ok y, v) ∧
      b.objects = populated (made registry x) y ∧
      ∀ r text, .populate r text ∈ b.log.failures ↔ .populate r text ∈
        (made registry x).toList.flatMap (troubles (made registry x).lookup y.topology) := by
  obtain ⟨x, u, hmanifest, h⟩ := Action.run_bind_eq_ok.1 h
  obtain ⟨⟨shells, log⟩, u', hshells, h⟩ := Action.run_bind_eq_ok.1 h
  obtain ⟨y, v', hlenient, hloaded⟩ := Action.run_bind_eq_ok.1 h
  rw [Action.run_mapError_eq_ok] at hmanifest hlenient
  rw [Action.run_lift, Prod.mk.injEq, ofManifest_eq_ok] at hshells
  obtain ⟨⟨-, heq⟩, rfl⟩ := hshells
  obtain ⟨rfl, rfl⟩ := Prod.mk.inj heq
  -- The second phase notes what could not be loaded before it looks at the shells.
  obtain ⟨log₁, hlog₁, gs, hgs, hfailures⟩ :=
    (FailureLog.ofFailures (unmade registry x)).noteNew_proceed (y.failures.map .ofLoad)
  obtain ⟨log₂, hpopulate, hmem⟩ := populate_proceed (made registry x).lookup y.topology
    (made registry x).toList { log := log₁ }
  rw [Action.run_lift, ofLoaded, hlog₁] at hloaded
  simp only [bind, Except.bind, hpopulate, pure, Except.pure, List.nil_append] at hloaded
  cases hloaded
  refine ⟨x, y, u, hmanifest, hlenient, rfl, fun r text => ?_⟩
  have hunmade : RebindFailure.populate r text ∉ unmade registry x := fun hmem => by
    simpa [RebindFailure.IsOwn] using isOwn_of_mem_unmade hmem
  have hload : RebindFailure.populate r text ∉ gs := fun hmem => by
    simpa [RebindFailure.ofLoad] using hgs hmem
  rw [hmem, hfailures, List.mem_append, List.mem_append]
  exact or_iff_right fun h => h.elim hunmade hload

/-! ## The shells that are displaced -/

/-- The object `o` is the one that was rebuilt for `r`: the shell made for `r` is of this kind and
id, and has been given the memento that was loaded for `r`. -/
def IsRestored (shells : Shells) (t : Topology) (r : ObjectRef) (o : ManagedObject) : Prop :=
  ∃ shell m, shells.get? r = some shell ∧ shell.ref = r ∧ t.get? r = some m ∧
    o = (shell.withState m shells.lookup).completeRebind

/-- The shell made for `q` is of another kind or id, and there is a memento for `q`. -/
def IsDisplaced (shells : Shells) (t : Topology) (q : ObjectRef) (shell : ManagedObject) : Prop :=
  shells.get? q = some shell ∧ shell.ref ≠ q ∧ (t.get? q).isSome

/-- What is `populated` are the objects of `IsRestored`, and the displaced shells as they were made.
-/
theorem mem_populated_iff (hy : y.topology.IsFiled) : o ∈ populated shells y ↔
    IsRestored shells y.topology o.ref o ∨
      ∃ q shell, IsDisplaced shells y.topology q shell ∧ o = shell.completeRebind := by
  rw [mem_populated]
  constructor
  · rintro ⟨r, shell, m, hshell, hm, rfl⟩
    have href := hy r m hm
    -- The memento is for what the shell is, or it is for another object and is not applied.
    by_cases hr : m.ref = shell.ref
    · have hself : shell.ref = r := hr.symm.trans href
      rw [ManagedObject.ref_completeRebind, ManagedObject.ref_apply, hself,
        ManagedObject.fst_apply_of_ref_eq hr]
      exact .inl ⟨shell, m, hshell, hself, hm, rfl⟩
    · have hsome : (y.topology.get? r).isSome := by
        rw [hm]
        rfl
      rw [ManagedObject.apply_of_ref_ne hr]
      exact .inr ⟨r, shell, ⟨hshell, fun h => hr (href.trans h.symm), hsome⟩, rfl⟩
  · rintro (⟨shell, m, hshell, hself, hm, ho⟩ | ⟨q, shell, ⟨hshell, hne, hsome⟩, rfl⟩)
    · refine ⟨o.ref, shell, m, hshell, hm, ?_⟩
      rw [ManagedObject.fst_apply_of_ref_eq ((hy _ m hm).trans hself.symm), ← ho]
    · obtain ⟨m, hm⟩ := Option.isSome_iff_exists.1 hsome
      refine ⟨q, shell, m, hshell, hm, ?_⟩
      rw [ManagedObject.apply_of_ref_ne fun h => hne (h.symm.trans (hy q m hm))]

/-- The displaced shells are those that are reported, by `RebindFailure.populate`, to have a memento
of another object. -/
theorem mem_populates (hy : y.topology.IsFiled) : .populate r text ∈
      shells.toList.flatMap (troubles shells.lookup y.topology) ↔
    ∃ q shell, IsDisplaced shells y.topology q shell ∧ shell.ref = r ∧
      text = "memento is for " ++ q.text := by
  rw [List.mem_flatMap]
  constructor
  · rintro ⟨⟨q, shell⟩, he, hmem⟩
    cases hm : y.topology.get? q with
    | none => simp [troubles, hm] at hmem
    | some m =>
      obtain rfl := hy q m hm
      rw [troubles_of_get? hm] at hmem
      by_cases hr : m.ref = shell.ref
      -- A shell that has its own memento reports references only.
      · rw [ManagedObject.failures_apply hr] at hmem
        obtain ⟨target, -, heq⟩ := List.mem_map.1 hmem
        cases heq
      · rw [ManagedObject.apply_of_ref_ne hr, List.mem_singleton] at hmem
        cases hmem
        exact ⟨m.ref, shell, ⟨ByRef.mem_toList.1 he, Ne.symm hr, by rw [hm]; rfl⟩, rfl, rfl⟩
  · rintro ⟨q, shell, ⟨hshell, hne, hsome⟩, rfl, rfl⟩
    obtain ⟨m, hm⟩ := Option.isSome_iff_exists.1 hsome
    obtain rfl := hy q m hm
    refine ⟨(m.ref, shell), ByRef.mem_toList.2 hshell, ?_⟩
    rw [troubles_of_get? hm, ManagedObject.apply_of_ref_ne (Ne.symm hne)]
    exact List.mem_singleton_self _

/-- Among different objects, a shell that `IsDisplaced` is not of the kind and id of one that
`IsRestored`. -/
private theorem ref_ne_of_isDisplaced (hnodup : ((populated shells y).map (·.ref)).Nodup)
    {shell : ManagedObject} (hq : IsDisplaced shells y.topology q shell)
    (hr : IsRestored shells y.topology r o) : shell.ref ≠ r := by
  obtain ⟨hshell, hne, hsome⟩ := hq
  obtain ⟨shell', m', hshell', hself, hm', -⟩ := hr
  obtain ⟨m, hm⟩ := Option.isSome_iff_exists.1 hsome
  rintro rfl
  -- Else both would be made of one shell.
  rw [populated, List.map_map] at hnodup
  have hmade : populated? shells.lookup y.topology (q, shell) =
      some (shell.apply m shells.lookup).1 := by
    rw [populated?, hm]
    rfl
  have hmade' : populated? shells.lookup y.topology (shell.ref, shell') =
      some (shell'.apply m' shells.lookup).1 := by
    rw [populated?, hm']
    rfl
  have href : (shell.apply m shells.lookup).1.ref = (shell'.apply m' shells.lookup).1.ref := by
    rw [ManagedObject.ref_apply, ManagedObject.ref_apply, hself]
  have heq := eq_of_nodup_map_filterMap hnodup (ByRef.mem_toList.2 hshell)
    (ByRef.mem_toList.2 hshell') hmade hmade' href
  exact hne (Prod.mk.inj heq).1.symm

/-- All objects of the graph are restored, and as many as are counted, exactly if no shell
`IsDisplaced`. -/
theorem isRestored_iff (hy : y.topology.IsFiled) (readOnly : Bool) :
    ((∀ r o, (ManagedGraph.ofObjects (populated shells y) readOnly).get? r = some o →
        IsRestored shells y.topology r o) ∧
      (populated shells y).length =
        (ManagedGraph.ofObjects (populated shells y) readOnly).objects.size) ↔
      ∀ q shell, ¬IsDisplaced shells y.topology q shell := by
  constructor
  · rintro ⟨hrestored, hsize⟩ q shell hq
    have hnodup := ManagedGraph.size_ofObjects_eq_length.1 hsize.symm
    -- It is in the graph, or hidden by an object of the same kind and id that is.
    have hmem : shell.completeRebind ∈ populated shells y :=
      (mem_populated_iff hy).2 (.inr ⟨q, shell, hq, rfl⟩)
    have hsome : ((ManagedGraph.ofObjects (populated shells y) readOnly).get? shell.ref).isSome :=
      ManagedGraph.isSome_get?_ofObjects.2 ⟨_, hmem, rfl⟩
    obtain ⟨o, ho⟩ := Option.isSome_iff_exists.1 hsome
    exact ref_ne_of_isDisplaced hnodup hq (hrestored _ o ho) rfl
  · intro hnone
    have hnodup : ((populated shells y).map (·.ref)).Nodup :=
      nodup_refs_populated fun r shell hshell hsome => by
        by_contra hne
        exact hnone r shell ⟨hshell, hne, hsome⟩
    refine ⟨fun r o ho => ?_, (ManagedGraph.size_ofObjects_eq_length.2 hnodup).symm⟩
    obtain ⟨hmem, rfl⟩ := (ManagedGraph.get?_ofObjects hnodup).1 ho
    refine ((mem_populated_iff hy).1 hmem).resolve_right ?_
    rintro ⟨q, shell, hq, -⟩
    exact hnone q shell hq

end Rebuilt

/-! ## Rebinding -/

/-- The snapshot of the graph `g` shows the state of the memento of `r` in the topology `t`. -/
def ManagedGraph.ShowsState (g : ManagedGraph) (t : Topology) (r : ObjectRef) : Prop :=
  ∃ m m', t.get? r = some m ∧ g.snapshot.get? r = some m' ∧ m'.displayName = m.displayName ∧
    m'.config = m.config ∧ m'.attributes = m.attributes

/-- An object that `IsRestored` shows the state of its memento. -/
theorem Rebuilt.IsRestored.showsState {shells : Shells} {t : Topology} {r : ObjectRef}
    {o : ManagedObject} {g : ManagedGraph} (h : IsRestored shells t r o) (hg : g.IsFiled)
    (ho : g.get? r = some o) : g.ShowsState t r := by
  obtain ⟨shell, m, -, -, hm, rfl⟩ := h
  have hsnapshot : g.snapshot.get? r =
      some (shell.withState m shells.lookup).completeRebind.toMemento := by
    rw [ManagedGraph.get?_snapshot hg, ho]
    rfl
  exact ⟨m, _, hm, hsnapshot, rfl, rfl, rfl⟩

namespace Workspace

open Rebuilt (made IsRestored IsDisplaced)

variable {σ : Type} {S : ObjectStore σ} {w w' : Workspace σ} {registry : Registry}
  {readOnly : Bool} {report : RebindReport}

/-- A `rebind` that goes on restores all objects of the graph, as many as it counts, exactly if it
reports no shell with the memento of another object. Otherwise there is in the graph, beside the
objects for which `IsRestored` holds, a shell with the state that its constructor gave it, or it
hides one of them. -/
theorem isRestored_iff_of_rebind
    (h : (rebind (faulty S) registry .proceed readOnly).run w = (.ok report, w')) :
    ∃ x y u v, (w.mementos.loadManifest (faulty S)).run w = (.ok x, u) ∧
      (w.mementos.loadLenient (faulty S) (made registry x).lookup).run u = (.ok y, v) ∧
      ((∀ r o, w'.graph.get? r = some o → IsRestored (made registry x) y.topology r o) ∧
          report.size = w'.graph.objects.size ↔
        ∀ r text, .populate r text ∉ report.failures) ∧
      ∀ r o, w'.graph.get? r = some o →
        IsRestored (made registry x) y.topology r o ∧ w'.graph.ShowsState y.topology r ∨
        ∃ q shell, IsDisplaced (made registry x) y.topology q shell ∧ shell.ref = r ∧
          o = shell.completeRebind ∧ .populate r ("memento is for " ++ q.text) ∈ report.failures := by
  obtain ⟨-, b, v, hload, -, rfl, rfl⟩ := run_rebind_eq_ok.1 h
  obtain ⟨x, y, u, hmanifest, hlenient, hobjects, hpopulates⟩ :=
    Rebuilt.run_load_of_proceed_eq_ok hload
  have hy := MementoPersister.isFiled_of_loadLenient hlenient
  -- The failures of this sort are those that the displaced shells leave behind.
  have hmem {r : ObjectRef} {text : String} : .populate r text ∈ b.log.failures ↔
      ∃ q shell, IsDisplaced (made registry x) y.topology q shell ∧ shell.ref = r ∧
        text = "memento is for " ++ q.text := by
    rw [hpopulates, Rebuilt.mem_populates hy]
  refine ⟨x, y, u, v, hmanifest, hlenient, ?_, fun r o ho => ?_⟩
  · show (∀ r o, (ManagedGraph.ofObjects b.objects readOnly).get? r = some o → _) ∧
        (RebindReport.ofRebuilt b readOnly).size =
          (ManagedGraph.ofObjects b.objects readOnly).objects.size ↔
      ∀ r text, .populate r text ∉ b.log.failures
    rw [RebindReport.size_ofRebuilt, hobjects, Rebuilt.isRestored_iff hy]
    constructor
    · intro hnone r text hfailure
      obtain ⟨q, shell, hq, -⟩ := hmem.1 hfailure
      exact hnone q shell hq
    · intro hnone q shell hq
      exact hnone _ _ (hmem.2 ⟨q, shell, hq, rfl, rfl⟩)
  · obtain ⟨hobject, rfl⟩ := ManagedGraph.mem_of_get?_ofObjects ho
    rw [hobjects, Rebuilt.mem_populated_iff hy] at hobject
    -- What is installed has either had its state, or is a shell under an id of its own.
    obtain hrestored | ⟨q, shell, hq, rfl⟩ := hobject
    · exact .inl ⟨hrestored, hrestored.showsState (ManagedGraph.ofObjects_isFiled _ _) ho⟩
    · exact .inr ⟨q, shell, hq, rfl, rfl, hmem.2 ⟨q, shell, hq, rfl, rfl⟩⟩

/-- A `Workspace` over a store with one entity. -/
def misnamed : Workspace Memory where
  store := Memory.prepared.put "entities/a"
    "\x7b\"id\":\"a\",\"kind\":\"entity\",\"type\":\"bad\",\"display_name\":\"A\"\x7d"

/-- `isRestored_iff_of_rebind` for `misnamed`, where the constructor gives the shell another id: not
all of the graph is restored. -/
theorem isRestored_iff_of_rebind_misnamed : ∃ registry report w' x y u v,
    ({} : Registry).register .entity "bad" (fun i => .shell { i with id := i.id ++ "-other" }) =
        .ok registry ∧
      (rebind (faulty Memory.store) registry .proceed false).run misnamed = (.ok report, w') ∧
      report.failures = [.populate ⟨.entity, "a-other"⟩ "memento is for entity a"] ∧
      (misnamed.mementos.loadManifest (faulty Memory.store)).run misnamed = (.ok x, u) ∧
      (misnamed.mementos.loadLenient (faulty Memory.store) (made registry x).lookup).run u =
        (.ok y, v) ∧
      w'.graph.objects.refs = [⟨.entity, "a-other"⟩] ∧
      ¬((∀ r o, w'.graph.get? r = some o → IsRestored (made registry x) y.topology r o) ∧
        report.size = w'.graph.objects.size) := by
  let registry : Registry := ⟨ByRef.empty.insert ⟨.entity, "bad"⟩
    fun i => .shell { i with id := i.id ++ "-other" }⟩
  -- The run is only evaluated as far as is asked for.
  have heval : (match (rebind (faulty Memory.store) registry .proceed false).run misnamed with
      | (.ok report, w') =>
        report.failures = [.populate ⟨.entity, "a-other"⟩ "memento is for entity a"] &&
          w'.graph.objects.refs = [⟨.entity, "a-other"⟩]
      | (.error _, _) => false) = true := by
    decide +kernel
  cases hrun : (rebind (faulty Memory.store) registry .proceed false).run misnamed with
  | mk r w' =>
    rw [hrun] at heval
    cases r with
    | error e => cases heval
    | ok report =>
      obtain ⟨hfailures, hrefs⟩ := Bool.and_eq_true_iff.1 heval
      have hfailures := of_decide_eq_true hfailures
      obtain ⟨x, y, u, v, hmanifest, hlenient, hiff, -⟩ := isRestored_iff_of_rebind hrun
      have hmem : .populate ⟨.entity, "a-other"⟩ "memento is for entity a" ∈ report.failures := by
        rw [hfailures]
        exact List.mem_singleton_self _
      exact ⟨registry, report, w', x, y, u, v, rfl, hrun, hfailures, hmanifest, hlenient,
        of_decide_eq_true hrefs, fun h => hiff.1 h _ _ hmem⟩

end Workspace

end Failover
