import Failover.Proofs.Rebind.Moments
import Failover.Proofs.Rebind.Restore

/-!
# No change is lost

A node that persists goes on editing its graph, and now and then writes: a checkpoint of all of it
or a flush of what is pending. The calls of the store may fail, and edits may come in between them.
In every such run each difference between store and graph is pending, or in the delta that is being
written; so once a flush has succeeded and nothing has come in meanwhile, what is stored is the
graph. It loads as the snapshot, and another node rebuilds the same graph from it.

An object may also be changed in place. The graph has to be told of that at once, which a read-only
graph refuses.

## Key results

- `run_mark_editObject`: to change an object in place and report it is to put in the changed one
- `IsCovered.step`, `IsCovered.run`: what an event keeps, and so a whole run
- `loses_nothing`: no run loses a change
-/

namespace Failover

open Store (Fault)
open Store.Fault (Allows)

namespace ManagedObject

theorem identity_edit (o : ManagedObject) (x : Edit) : (o.edit x).identity = o.identity := by
  cases x <;> rfl

theorem ref_edit (o : ManagedObject) (x : Edit) : (o.edit x).ref = o.ref := by
  rw [ref, identity_edit, ref]

end ManagedObject

namespace Workspace

variable {σ : Type}

/-! ## Runs -/

/-- What happens to a `Workspace` that persists. -/
inductive Event where
  | edit (e : GraphEdit)
  /-- An object is changed in place by `editObject`, and the graph is told by `mark`. -/
  | change (r : ObjectRef) (x : ManagedObject.Edit)
  /-- It turns out otherwise what will go wrong with the calls of the store, and which edits come in
  between them. -/
  | plan (faults : List (Fault Meanwhile))
  | checkpoint
  | flush

namespace Event

/-- All objects that are put in have a place in a store, whether by the `Event` or meanwhile. -/
def IsPlaced : Event → Prop
  | .edit e => e.IsPlaced
  | .plan faults => Allows Meanwhile.IsPlaced faults
  | .change .. | .checkpoint | .flush => True

end Event

section Run

variable (T : ObjectStore (Workspace σ))

/-- The workspace `w` after an `Event`. -/
def step (w : Workspace σ) : Event → Workspace σ
  | .edit e => ((edit e).run w).2
  | .change r x => ((edit (.mark r)).run (w.editObject r x)).2
  | .plan faults => { w with faults }
  | .checkpoint => ((checkpointNow T).run w).2
  | .flush => ((flush T).run w).2

/-- The workspace `w` after a run of events. -/
def run (w : Workspace σ) (es : List Event) : Workspace σ := es.foldl (step T) w

/-- What the workspace is like before and after each call of the store during an `Event`. -/
def moments (w : Workspace σ) : Event → List (Workspace σ)
  | .checkpoint => w.checkpointMoments T
  | .flush => w.flushMoments T
  | .edit _ | .change .. | .plan _ => []

end Run

/-- The `Delta` that an event writes. -/
def inFlight (w : Workspace σ) : Event → Delta
  | .flush => w.persisting.pending.delta w.graph
  | .edit _ | .change .. | .plan _ | .checkpoint => {}

variable {S : ObjectStore σ} {held : σ → Memory} {w w' v : Workspace σ}

/-! ## What a run keeps -/

/-- `editObject` in place and then `mark` is to `manage` the changed object. So the edits that come
in between calls of the store may be changes in place as well. -/
theorem run_mark_editObject (hw : w.graph.IsPlaced) (hwritable : w.graph.isReadOnly = false)
    {r : ObjectRef} {o : ManagedObject} (ho : w.graph.get? r = some o) (x : ManagedObject.Edit) :
    (edit (.mark r)).run (w.editObject r x) = (edit (.manage (o.edit x))).run w := by
  have href : (o.edit x).ref = r := (o.ref_edit x).trans (hw.isFiled r o ho)
  have hgraph : w.editObject r x = { w with graph := w.graph.setObject (o.edit x) } := by
    rw [editObject, ManagedGraph.editObject, show w.graph.objects.get? r = some o from ho]
  -- The object is in the graph already as it is after the edit, and so marking it reports the same.
  have hmark : (w.graph.setObject (o.edit x)).edit (.mark r) =
      .ok (w.graph.setObject (o.edit x), .changed r) := by
    refine ManagedGraph.edit_eq_ok.2 ⟨hwritable, ?_, rfl, rfl⟩
    rw [ManagedGraph.setObject, ManagedGraph.get?, ByRef.get?_insert, if_pos href.symm]
    rfl
  have hmanage : w.graph.edit (.manage (o.edit x)) =
      .ok (w.graph.setObject (o.edit x), .changed r) :=
    ManagedGraph.edit_eq_ok.2 ⟨hwritable, rfl, by rw [href]⟩
  rw [edit, edit, Action.run_of, Action.run_of, hgraph]
  simp only [changed, hmark, hmanage]
  rfl

namespace IsCovered

/-- `IsCovered` is kept by an `edit`, whose report covers it. -/
theorem edit (hw : w.IsCovered held) {e : GraphEdit} (he : e.IsPlaced) :
    ((Workspace.edit e).run w).2.IsCovered held ∧
      ((Workspace.edit e).run w).2.graph.isReadOnly = w.graph.isReadOnly := by
  cases hedit : w.graph.edit e with
  | error cause =>
    rw [run_edit_of_error hedit]
    exact ⟨hw, rfl⟩
  | ok gc =>
    rw [run_edit_of_ok hw.toIsAttached hedit]
    have hamid := (Amid.start hw.toIsAttached).edited he hedit
    exact ⟨hamid.isCovered fun r hr => .inr (hw.covered r hr), hamid.isReadOnly⟩

/-- `IsCovered` is kept by every `step`; only a read-only graph may not be told of a change. -/
theorem step (hS : S.Mirrors held) (hw : w.IsCovered held) {e : Event} (he : e.IsPlaced)
    (hwritable : ∀ r x, e = .change r x → w.graph.isReadOnly = false) :
    (w.step (faulty S) e).IsCovered held ∧
      (w.step (faulty S) e).graph.isReadOnly = w.graph.isReadOnly := by
  cases e with
  | edit e => exact hw.edit he
  | plan faults => exact ⟨{ hw with allows := he }, rfl⟩
  | checkpoint => exact hw.checkpointNow hS
  | flush => exact hw.flush hS
  | change r x =>
    rw [Workspace.step]
    cases ho : w.graph.get? r with
    | some o =>
      rw [run_mark_editObject hw.isPlaced (hwritable r x rfl) ho]
      refine hw.edit ?_
      show Path.isSingle (o.edit x).identity.id = true
      rw [o.identity_edit, show o.identity.id = r.id from congrArg ObjectRef.id
        (hw.isPlaced.isFiled r o ho)]
      exact hw.isPlaced.isSingle r o ho
    | none =>
      -- There is no such object to change.
      rw [editObject, ManagedGraph.editObject, show w.graph.objects.get? r = none from ho]
      exact hw.edit trivial

/-- `IsCovered` is kept by every `run` of events. -/
theorem run (hS : S.Mirrors held) {es : List Event} (hw : w.IsCovered held)
    (hes : ∀ e ∈ es, e.IsPlaced)
    (hwritable : ∀ r x, .change r x ∈ es → w.graph.isReadOnly = false) :
    (w.run (faulty S) es).IsCovered held := by
  induction es generalizing w with
  | nil => exact hw
  | cons e es ih =>
    rw [List.forall_mem_cons] at hes
    -- Whether the graph may be told does not change either, so the rest may go on.
    obtain ⟨hstep, hsame⟩ := hw.step hS hes.1 fun r x h =>
      hwritable r x (h ▸ List.mem_cons_self)
    exact ih hstep hes.2 fun r x h => hsame.trans (hwritable r x (List.mem_cons_of_mem _ h))

/-- At all `moments` of an event each difference is pending or in the delta that is `inFlight`. -/
theorem mentions_or_lists_of_mem_moments (hS : S.Mirrors held) (hw : w.IsCovered held) {e : Event}
    (hv : v ∈ w.moments (faulty S) e) {r : ObjectRef}
    (hr : (held v.store).storedText? r ≠ v.graph.text? r) :
    v.persisting.pending.Mentions r ∨ (w.inFlight e).Lists r := by
  cases e with
  | checkpoint => exact .inl (hw.mentions_of_mem_checkpointMoments hS hv hr)
  | flush => exact hw.mentions_or_lists_of_mem_flushMoments hS hv hr
  | edit | change | plan => exact absurd hv List.not_mem_nil

end IsCovered

/-! ## No change is lost -/

/-- A node finds the graph `g` in the store: it loads the `snapshot`, and if it knows all types and
does not persist itself it rebuilds the graph. -/
structure Finds (S : ObjectStore σ) (g : ManagedGraph) (x : Workspace σ) : Prop where
  load : ∃ t : Topology, ((load (faulty S) .placeholders).run x).1 = .ok t ∧
    t.objects = g.snapshot.objects
  rebind : x.isPersisting = false → ∀ registry : Registry, registry.IsBasic → registry.Knows g →
    ∀ readOnly, ∃ report x',
      (rebind (faulty S) registry .proceed readOnly).run x = (.ok report, x') ∧
        x'.graph.snapshot = g.snapshot

/-- A node for which `startPersisting` has succeeded loses no change, whatever it does then and
however its calls of the store go wrong. At any time each difference between store and graph is
pending, or during a flush in the delta that is `inFlight`. So if a `flush` succeeds and nothing is
to happen during it, the node itself and any other `Finds` the graph in the store. An object may be
changed in place only if the graph does not refuse to be told. -/
theorem loses_nothing (hS : S.Mirrors held) (hprepared : (held w.store).isPrepared = true)
    (hp : w.isPersisting = false) (hgraph : w.graph.IsPlaced)
    (hfaults : Allows Meanwhile.IsPlaced w.faults)
    (hstart : (startPersisting (faulty S)).run w = (.ok (), w')) {es : List Event}
    (hes : ∀ e ∈ es, e.IsPlaced)
    (hwritable : ∀ r x, .change r x ∈ es → w.graph.isReadOnly = false) :
    let u := w'.run (faulty S) es
    (∀ r, (held u.store).storedText? r ≠ u.graph.text? r → u.persisting.pending.Mentions r) ∧
      (∀ e, ∀ v ∈ u.moments (faulty S) e, ∀ r, (held v.store).storedText? r ≠ v.graph.text? r →
        v.persisting.pending.Mentions r ∨ (u.inFlight e).Lists r) ∧
      ∀ n v, (flush (faulty S)).run u = (.ok n, v) →
        ((∀ f ∈ u.faults, f.meanwhile = []) →
          v.persisting.pending.isEmpty = true ∧ v.graph = u.graph) ∧
        (v.persisting.pending.isEmpty = true → v.graph.IsStorable →
          Finds S v.graph { v with faults := [] } ∧
            ∀ x : Workspace σ, held x.store = held v.store → x.faults = [] →
              x.mementos.isStopped = false → x.Finds S v.graph) := by
  intro u
  obtain ⟨hstarted, hsame⟩ := isCovered_of_startPersisting hS hprepared hp hgraph hfaults hstart
  -- What is not stored is pending at the start, and so it is after each event.
  have hu : u.IsCovered held :=
    hstarted.run hS hes fun r x h => hsame.trans (hwritable r x h)
  refine ⟨hu.covered, fun e v hv r => hu.mentions_or_lists_of_mem_moments hS hv, fun n v hflush =>
    ⟨fun hquiet => ?_, fun hpending hstorable => ?_⟩⟩
  · exact isEmpty_pending_of_flush hu.isRunning hu.isPlaced.isFiled hu.removed hquiet hflush
  · have hv : v.IsCovered held := by
      have h := (hu.flush hS).1
      rwa [hflush] at h
    have hfinds (x : Workspace σ) (hx : held x.store = held v.store) (hfaults : x.faults = [])
        (hstopped : x.mementos.isStopped = false) : x.Finds S v.graph :=
      { load := hv.exists_load hpending hstorable hS hx hfaults hstopped
        rebind := fun hp registry hreg hknows readOnly =>
          hv.exists_rebind hpending hstorable hS hx hfaults hstopped hp hreg hknows readOnly }
    exact ⟨hfinds _ rfl rfl hv.isStopped, hfinds⟩

/-- A `Workspace` with one entity. -/
def single (readOnly : Bool) : Workspace Memory where
  store := .prepared
  graph := .ofObjects [.shell ⟨.entity, "a", "web"⟩] readOnly

/-- The entity of `single` has a place in a store. -/
private theorem single_isPlaced (readOnly : Bool) : (single readOnly).graph.IsPlaced where
  isFiled := ManagedGraph.ofObjects_isFiled _ _
  isSingle r o ho := by
    obtain ⟨hmem, rfl⟩ := (ManagedGraph.get?_ofObjects (by simp)).1 ho
    obtain rfl := List.mem_singleton.1 hmem
    decide

/-- The workspace `single` once it has started to persist. -/
def started (readOnly : Bool) : Workspace Memory :=
  ((startPersisting (faulty Memory.store)).run (single readOnly)).2

/-- `startPersisting` succeeds for `single`. -/
private theorem run_startPersisting_single (readOnly : Bool) :
    (startPersisting (faulty Memory.store)).run (single readOnly) = (.ok (), started readOnly) := by
  obtain ⟨u, hu⟩ : ∃ u,
      (startPersisting (faulty Memory.store)).run (single readOnly) = (.ok (), u) :=
    Action.exists_run_eq_ok (by cases readOnly <;> decide +kernel)
  rw [started, hu]

/-- Events for `started`. Another entity comes in, and the flush that is to write it fails;
meanwhile the first one goes. Then the other one is changed in place. -/
def interrupted : List Event :=
  [.edit (.manage (.shell ⟨.entity, "b", "web"⟩)),
    .plan [{ call := .put, meanwhile := [.edit (.unmanage ⟨.entity, "a"⟩)] }],
    .flush, .plan [], .change ⟨.entity, "b"⟩ (.displayName "B")]

/-- The objects that come in by `interrupted` have a place in a store. -/
private theorem interrupted_isPlaced : ∀ e ∈ interrupted, e.IsPlaced := by
  simp only [interrupted, List.forall_mem_cons]
  refine ⟨?_, fun f hf x hx => ?_, trivial, List.forall_mem_nil _, trivial, List.forall_mem_nil _⟩
  · show Path.isSingle "b" = true
    decide
  · obtain rfl := List.mem_singleton.1 hf
    obtain rfl := List.mem_singleton.1 hx
    trivial

/-- `loses_nothing` for `interrupted`: the next flush writes both changes, and another node finds
them. -/
theorem loses_nothing_interrupted : ∃ w' v registry report x',
    (startPersisting (faulty Memory.store)).run (single false) = (.ok (), w') ∧
      ((flush (faulty Memory.store)).run
        (w'.run (faulty Memory.store) (interrupted.take 2))).1.toBool = false ∧
      (flush (faulty Memory.store)).run (w'.run (faulty Memory.store) interrupted) = (.ok 2, v) ∧
      v.persisting.pending.isEmpty = true ∧
      ({} : Registry).registerBasic .entity "web" = .ok registry ∧
      (rebind (faulty Memory.store) registry .proceed false).run { store := v.store } =
        (.ok report, x') ∧
      x'.graph.snapshot = v.graph.snapshot := by
  obtain ⟨-, -, hend⟩ := loses_nothing Memory.mirrors rfl rfl (single_isPlaced false)
    (List.forall_mem_nil _) (run_startPersisting_single false)
    interrupted_isPlaced fun _ _ _ => rfl
  obtain ⟨v, hflush⟩ : ∃ v, (flush (faulty Memory.store)).run
      ((started false).run (faulty Memory.store) interrupted) = (.ok 2, v) :=
    Action.exists_run_eq_ok (by decide +kernel)
  obtain ⟨hquiet, hfinds⟩ := hend 2 v hflush
  have hfaults : ((started false).run (faulty Memory.store) interrupted).faults.isEmpty = true := by
    decide +kernel
  obtain ⟨hpending, -⟩ := hquiet (by rw [List.isEmpty_iff.1 hfaults]; exact List.forall_mem_nil _)
  -- The other entity is all that is left.
  have hgraph : ((flush (faulty Memory.store)).run
      ((started false).run (faulty Memory.store) interrupted)).2.graph.objects.toList =
        [(⟨.entity, "b"⟩,
          { ManagedObject.shell ⟨.entity, "b", "web"⟩ with displayName := "B" })] := by
    decide +kernel
  rw [hflush] at hgraph
  have honly {r : ObjectRef} {o : ManagedObject} (ho : v.graph.get? r = some o) :
      r = ⟨.entity, "b"⟩ ∧
        o = { ManagedObject.shell ⟨.entity, "b", "web"⟩ with displayName := "B" } := by
    have hmem := ByRef.mem_toList.2 ho
    rw [hgraph] at hmem
    exact Prod.mk.inj (List.mem_singleton.1 hmem)
  have hstorable : v.graph.IsStorable := by
    intro r o ho
    obtain ⟨rfl, rfl⟩ := honly ho
    exact ⟨by decide +kernel, by decide +kernel⟩
  have hknows : Registry.web.Knows v.graph := by
    intro r o ho
    obtain ⟨rfl, rfl⟩ := honly ho
    decide +kernel
  obtain ⟨-, hothers⟩ := hfinds hpending hstorable
  obtain ⟨report, x', hrebind, hsnapshot⟩ := (hothers { store := v.store } rfl rfl rfl).rebind rfl
    .web Registry.isBasic_web hknows false
  exact ⟨started false, v, .web, report, x', run_startPersisting_single false,
    by decide +kernel, hflush, hpending, Registry.registerBasic_web, hrebind, hsnapshot⟩

/-- A graph that is read-only is not told of a change in place by `mark`, and so the change is lost.
-/
theorem not_all_pending_of_readOnly : ¬∀ (w w' : Workspace Memory) (es : List Event),
    w.store.isPrepared = true → w.isPersisting = false → w.graph.IsPlaced → w.faults = [] →
    (startPersisting (faulty Memory.store)).run w = (.ok (), w') → (∀ e ∈ es, e.IsPlaced) →
    ∀ r, (w'.run (faulty Memory.store) es).store.storedText? r ≠
        (w'.run (faulty Memory.store) es).graph.text? r →
      (w'.run (faulty Memory.store) es).persisting.pending.Mentions r := by
  intro h
  have hmentions := h (single true) (started true)
    [.change ⟨.entity, "a"⟩ (.displayName "A")] rfl rfl (single_isPlaced true) rfl
    (run_startPersisting_single true) (List.forall_mem_singleton.2 trivial) ⟨.entity, "a"⟩
    (by decide +kernel)
  exact Pending.not_mentions_of_isEmpty (by decide +kernel) _ hmentions

end Workspace

end Failover
