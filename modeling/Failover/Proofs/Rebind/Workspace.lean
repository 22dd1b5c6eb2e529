import Failover.Proofs.Rebind.Exact
import Failover.Proofs.Store.Faults
import Failover.Proofs.Store.InStep
import Failover.Rebind.Workspace

/-!
# Rebinding a workspace

A rebind reads the store and then puts what was rebuilt into the graph, in place of all that was
there. As long as no fault is planned, the workspace sees its store as it is. So over a store that
mirrors a memory the graph depends on what is stored, and on nothing else.

## Key results

- `Workspace.faulty_inStep`: without planned faults a workspace sees its store as it is
- `Workspace.rebind_keeps`, `Workspace.startPersisting_keeps`: what taking over keeps
- `Workspace.rebind_eq_ok`: what a rebind that succeeds leaves behind
- `Workspace.rebind_isExact`: with plain constructors a rebind that goes on is exact
-/

namespace Failover

variable {σ τ υ : Type}

section Rebuild

variable {S : ObjectStore σ} {T : ObjectStore τ} {R : σ → τ → Prop}

/-- `Rebuilt.load` makes only calls below the sub-paths of the kinds. -/
theorem ObjectStore.InStepBelow.rebuild {P : String → Prop} (h : S.InStepBelow T P R)
    (hP : ∀ k : Kind, P k.subPath) (p : MementoPersister) (registry : Registry)
    (mode : FailureMode) :
    Action.InStep R (Rebuilt.load S p registry mode) (Rebuilt.load T p registry mode) :=
  .bind (.mapError (h.loadManifest hP p) _) fun _ => .bind (.lift _) fun _ =>
    .bind (.mapError (h.loadLenient hP p _) _) fun _ => .lift _

/-- `Rebuilt.load` in stores that are `InStep`. -/
theorem ObjectStore.InStep.rebuild (h : S.InStep T R) (p : MementoPersister) (registry : Registry)
    (mode : FailureMode) :
    Action.InStep R (Rebuilt.load S p registry mode) (Rebuilt.load T p registry mode) :=
  h.below.rebuild (fun _ => trivial) p registry mode

end Rebuild

namespace Workspace

variable {S : ObjectStore σ} {held : σ → Memory} {w w' : Workspace σ} {registry : Registry}
  {mode : FailureMode} {readOnly : Bool}

/-! ## The store of a workspace -/

/-- What happens `Meanwhile` leaves the store and the persisters alone. -/
theorem persisters_happen (w : Workspace σ) (x : Meanwhile) : (w.happen x).store = w.store ∧
    (w.happen x).mementos = w.mementos ∧ (w.happen x).records = w.records := by
  -- A report only changes what is pending.
  have hnotify (u : Workspace σ) (c : Change) : (u.notify c).store = u.store ∧
      (u.notify c).mementos = u.mementos ∧ (u.notify c).records = u.records := by
    rw [notify]
    split
    · next role _ => cases role <;> exact ⟨rfl, rfl, rfl⟩
    · exact ⟨rfl, rfl, rfl⟩
    · exact ⟨rfl, rfl, rfl⟩
  cases x with
  | edit e =>
    rw [happen, edit, Action.run_of, changed]
    cases w.graph.edit e with
    | error _ => exact ⟨rfl, rfl, rfl⟩
    | ok gc => exact hnotify _ _
  | stopPersisting =>
    rw [happen, stopPersisting, stopWriter]
    split <;> exact ⟨rfl, rfl, rfl⟩

/-- A call of a `faulty` store keeps what the call keeps of the store. -/
theorem faulty_keeps_store {Q : σ → Prop} {c : Store.Call} (h : Action.Keeps Q (S.call c)) :
    Action.Keeps (fun w => Q w.store) ((faulty S).call c) := by
  have hseen : Action.Keeps (fun w => Q w.store) ((seen S).call c) := fun w hw => h w.store hw
  have hmay (w : Workspace σ) (_ : Q w.store) : Store.Fault.Allows (fun _ => True) w.faults :=
    fun _ _ _ _ => trivial
  refine ObjectStore.keeps_faulty hmay ?_ ?_ hseen
  · exact fun _ _ hw _ => hw
  · rintro w x hw -
    rwa [(persisters_happen w x).1]

/-- No call of a `faulty` store changes the persisters. -/
theorem faulty_keeps_persisters (S : ObjectStore σ) (p : MementoPersister) (q : RecordPersister)
    (c : Store.Call) :
    Action.Keeps (fun u => u.mementos = p ∧ u.records = q) ((faulty S).call c) := by
  have hseen : Action.Keeps (fun u => u.mementos = p ∧ u.records = q) ((seen S).call c) :=
    fun _ h => h
  have hmay (u : Workspace σ) (_ : u.mementos = p ∧ u.records = q) :
      Store.Fault.Allows (fun _ => True) u.faults := fun _ _ _ _ => trivial
  refine ObjectStore.keeps_faulty hmay ?_ ?_ hseen
  · exact fun _ _ h _ => h
  · rintro u x h -
    obtain ⟨-, hmementos, hrecords⟩ := persisters_happen u x
    rwa [hmementos, hrecords]

/-- Without planned faults a workspace sees its store as it is (`InStep`), and only the store
changes. -/
theorem faulty_inStep (hw : w.faults = []) :
    (faulty S).InStep S fun w' s => w' = { w with store := s } := by
  rintro c _ s rfl
  have hstep : (faulty S).step c { w with store := s } =
      ((S.step c s).1, { w with store := (S.step c s).2 }) := by
    obtain ⟨_, faults⟩ := w
    obtain rfl : faults = [] := hw
    rfl
  exact ⟨congrArg Prod.fst hstep, congrArg Prod.snd hstep⟩

/-- An action that is `InStep` with one on the store is that one. -/
theorem run_of_inStep {ε α : Type} {x : Action (Workspace σ) ε α} {y : Action σ ε α}
    (h : Action.InStep (fun w' s => w' = { w with store := s }) x y) :
    x.run w = ((y.run w.store).1, { w with store := (y.run w.store).2 }) :=
  Prod.ext (h w w.store rfl).1 (h w w.store rfl).2

/-- What is read over a store that `Mirrors` a memory is what is in the memory. -/
theorem run_fst_of_mirrors {ε α : Type} {x : Action (Workspace σ) ε α} {y : Action σ ε α}
    {z : Action Memory ε α} (h : Action.InStep (fun w' s => w' = { w with store := s }) x y)
    (h' : Action.InStep (fun s m => held s = m) y z) :
    (x.run w).1 = (z.run (held w.store)).1 :=
  (congrArg Prod.fst (run_of_inStep h)).trans (h' w.store (held w.store) rfl).1

/-! ## What stays -/

section Keeps

variable {T : ObjectStore (Workspace σ)} {P : Workspace σ → Prop}
  (h : ∀ k : Kind, ∀ c : Store.Call, c.IsBelow k.subPath → Action.Keeps P (T.call c))
include h

/-- What the calls about the sub-paths of mementos keep is `InStepBelow` with itself there. -/
theorem inStepBelow_kinds :
    T.InStepBelow T (fun t => ∃ k : Kind, t = k.subPath) fun u v => u = v ∧ P u :=
  ObjectStore.inStepBelow_of_keeps fun _ ⟨k, hk⟩ c hc => h k c (hk ▸ hc)

/-- What these calls keep, and what does not depend on the graph, is kept by a `rebind`. -/
theorem rebind_keeps (hgraph : ∀ w os readOnly, P w → P (w.replaceAll os readOnly))
    (registry : Registry) (mode : FailureMode) (readOnly : Bool) :
    Action.Keeps P (rebind T registry mode readOnly) := by
  have hend (x : Rebuilt) : Action.Keeps P (do
      modify fun w => w.replaceAll x.objects readOnly
      if mode = .failAtEnd ∧ x.log.failures ≠ [] then throw (.failAtEnd x.log.failures)
      return .ofRebuilt x readOnly : Action (Workspace σ) RebindError RebindReport) := by
    refine Action.Keeps.bind (Action.keeps_modify fun w => hgraph w _ _) fun _ => ?_
    split
    · exact Action.Keeps.bind (Action.keeps_throw _) fun _ => Action.keeps_pure _
    · exact Action.keeps_pure _
  -- It is refused, or it loads the objects and puts them into the graph.
  refine Action.keeps_get.bind fun w => ?_
  have hload :=
    ((inStepBelow_kinds h).rebuild (fun k => ⟨k, rfl⟩) w.mementos registry mode).keeps
  split
  · exact Action.Keeps.bind (Action.keeps_throw _) fun _ => hload.bind hend
  · exact hload.bind hend

/-- What these calls keep, and what does not depend on the persister, is kept by `checkpointNow`. -/
theorem checkpointNow_keeps (hmementos : ∀ w q, P w → P { w with mementos := q }) :
    Action.Keeps P (checkpointNow T) := by
  refine Action.keeps_get.bind fun w => Action.keeps_get.bind fun w' => ?_
  have hcheckpoint :=
    ((inStepBelow_kinds h).checkpoint (fun k => ⟨k, rfl⟩) w'.mementos w.graph.snapshot).keeps
  exact hcheckpoint.bind fun q => Action.keeps_modify fun w => hmementos w q

/-- What these calls keep is kept by `startPersisting`, if it does not depend on the writer either.
-/
theorem startPersisting_keeps (hmementos : ∀ w q, P w → P { w with mementos := q })
    (hstart : ∀ w, P w → P (w.startWriter .persisting)) (hstop : ∀ w, P w → P w.stopPersisting) :
    Action.Keeps P (startPersisting T) := by
  refine Action.keeps_get.bind fun w => ?_
  split
  · exact Action.keeps_pure _
  refine Action.Keeps.bind (Action.keeps_modify hstart) fun _ => ?_
  refine (checkpointNow_keeps h hmementos).attempt.bind fun r => ?_
  cases r with
  | ok => exact Action.keeps_pure _
  | error e => exact Action.Keeps.bind (Action.keeps_modify hstop) fun _ => Action.keeps_throw e

end Keeps

/-! ## Rebinding -/

/-- A `rebind` that succeeds has put the objects into the graph that were rebuilt. -/
theorem run_rebind_eq_ok {T : ObjectStore (Workspace σ)} {report : RebindReport} :
    (rebind T registry mode readOnly).run w = (.ok report, w') ↔
      w.isPersisting = false ∧ ∃ b u,
        (Rebuilt.load T w.mementos registry mode).run w = (.ok b, u) ∧
        (mode = .failAtEnd → b.log.failures = []) ∧ report = .ofRebuilt b readOnly ∧
        w' = u.replaceAll b.objects readOnly := by
  -- At the end the failures that were collected may still fail the rebind.
  have hend (b : Rebuilt) (u : Workspace σ) :
      (if mode = .failAtEnd ∧ b.log.failures ≠ [] then do
          throw (.failAtEnd b.log.failures)
          pure (.ofRebuilt b readOnly)
        else pure (.ofRebuilt b readOnly) : Action (Workspace σ) RebindError RebindReport).run u =
          (.ok report, w') ↔
        (mode = .failAtEnd → b.log.failures = []) ∧ report = .ofRebuilt b readOnly ∧ w' = u := by
    by_cases hmode : mode = .failAtEnd ∧ b.log.failures ≠ []
    · rw [if_pos hmode, Action.run_bind_of_error (Action.run_throw ..)]
      simp [hmode]
    · rw [if_neg hmode, Action.run_pure, Prod.mk.injEq, Except.ok.injEq, eq_comm, @eq_comm _ u]
      rw [not_and, not_not] at hmode
      exact (and_iff_right hmode).symm
  rw [rebind, Action.run_bind_of_ok (Action.run_get w)]
  cases hp : w.isPersisting with
  | true => simp
  | false =>
    simp only [Bool.false_eq_true, if_false, true_and]
    rw [Action.run_bind_eq_ok]
    simp only [Action.run_bind_of_ok (Action.run_modify ..), hend]

/-- A `rebind` without planned faults has read the store and has changed nothing but the graph. -/
theorem rebind_eq_ok (hw : w.faults = []) {report : RebindReport} :
    (rebind (faulty S) registry mode readOnly).run w = (.ok report, w') ↔
      w.isPersisting = false ∧ ∃ b s,
        (Rebuilt.load S w.mementos registry mode).run w.store = (.ok b, s) ∧
        (mode = .failAtEnd → b.log.failures = []) ∧ report = .ofRebuilt b readOnly ∧
        w' = { w with store := s, graph := .ofObjects b.objects readOnly } := by
  -- Without planned faults the rebuild sees the store as it is.
  have hload := run_of_inStep ((faulty_inStep (S := S) hw).rebuild w.mementos registry mode)
  rw [run_rebind_eq_ok, hload]
  cases (Rebuilt.load S w.mementos registry mode).run w.store with
  | mk r s =>
    simp only [Prod.mk.injEq]
    constructor
    · rintro ⟨hp, b, t, ⟨rfl, rfl⟩, h⟩
      exact ⟨hp, b, s, ⟨rfl, rfl⟩, h⟩
    · rintro ⟨hp, b, t, ⟨rfl, rfl⟩, h⟩
      exact ⟨hp, b, _, ⟨rfl, rfl⟩, h⟩

/-- Over a store that `Mirrors` a memory, the graph after a `rebind` is what `ofMemory` rebuilds. -/
theorem exists_of_rebind_ok (hS : S.Mirrors held) (hw : w.faults = []) {report : RebindReport}
    (h : (rebind (faulty S) registry mode readOnly).run w = (.ok report, w')) :
    w.isPersisting = false ∧ (∀ k : Kind, (held w.store).IsOpen k.subPath) ∧
      (mode ≠ .proceed → report.failures = []) ∧
      report = .ofRebuilt (.ofMemory registry (held w.store)) readOnly ∧
      ∃ s, held s = held w.store ∧ w' = { w with
        store := s
        graph := .ofObjects (Rebuilt.ofMemory registry (held w.store)).objects readOnly } := by
  obtain ⟨hp, b, s, hload, hmode, rfl, rfl⟩ := (rebind_eq_ok hw).1 h
  obtain ⟨hr, hs⟩ := hS.rebuild w.mementos registry mode w.store (held w.store) rfl
  rw [hload] at hr hs
  obtain ⟨⟨-, hopen⟩, hgoes, rfl, hheld⟩ := Rebuilt.run_load_eq_ok.1 (Prod.ext hr.symm rfl)
  refine ⟨hp, hopen, fun hne => ?_, rfl, s, hs.trans hheld, rfl⟩
  -- A mode that does not go on has met no failure.
  cases mode with
  | failFast => exact hgoes rfl
  | proceed => exact absurd rfl hne
  | failAtEnd => exact hmode rfl

/-- If a `rebind` that goes on in spite of failures does not fail for the store, the rebuild
succeeds. -/
private theorem load_of_store_ok (hS : S.Mirrors held) (hw : w.faults = [])
    (hp : w.isPersisting = false)
    (hstore : ∀ e, ((rebind (faulty S) registry .proceed readOnly).run w).1 ≠
      .error (.persistence e)) :
    (w.mementos.isStopped = false ∧ ∀ k : Kind, (held w.store).IsOpen k.subPath) ∧
      ∃ s, (Rebuilt.load S w.mementos registry .proceed).run w.store =
        (.ok (.ofMemory registry (held w.store)), s) := by
  have hload := run_of_inStep ((faulty_inStep (S := S) hw).rebuild w.mementos registry .proceed)
  obtain ⟨hsame, -⟩ := hS.rebuild w.mementos registry .proceed w.store (held w.store) rfl
  obtain hmemory | ⟨e, n, hmemory⟩ := Rebuilt.run_load_proceed w.mementos registry (held w.store)
  · rw [hmemory] at hsame
    exact ⟨(Rebuilt.run_load_eq_ok.1 hmemory).1, _, Prod.ext hsame rfl⟩
  · rw [hsame, hmemory] at hload
    -- Else the rebind would have failed with the same error.
    refine absurd ?_ (hstore e)
    rw [rebind, Action.run_bind_of_ok (Action.run_get w), hp]
    simp only [Bool.false_eq_true, if_false]
    rw [Action.run_bind_of_error hload]

/-- With plain constructors a `rebind` that goes on in spite of failures `IsExact`, if the store
does not fail. What it leaves behind does not depend on the graph that was there before. -/
theorem rebind_isExact (hS : S.Mirrors held) (hw : w.faults = []) (hp : w.isPersisting = false)
    (hreg : registry.IsBasic)
    (hstore : ∀ e, ((rebind (faulty S) registry .proceed readOnly).run w).1 ≠
      .error (.persistence e)) :
    ∃ listed x y report w',
      (∀ k : Kind, ((Stored.list (faulty S) k.subPath).run w).1 = .ok (listed k)) ∧
      ((loadManifest (faulty S)).run w).1 = .ok x ∧
      ((loadLenient (faulty S) .placeholders).run w).1 = .ok y ∧
      (∀ g, (rebind (faulty S) registry .proceed readOnly).run { w with graph := g } =
        (.ok report, w')) ∧
      IsExact registry listed x y w'.graph report.failures := by
  have hfaulty := faulty_inStep (S := S) hw
  -- That the store does not fail means that the persister runs and all sub-paths are open.
  obtain ⟨⟨hstopped, hopen⟩, s, hload⟩ := load_of_store_ok hS hw hp hstore
  refine ⟨_, _, _, .ofRebuilt (.ofMemory registry (held w.store)) readOnly,
    { w with
      store := s
      graph := .ofObjects (Rebuilt.ofMemory registry (held w.store)).objects readOnly },
    fun k => ?_, ?_, ?_, fun g => ?_, Rebuilt.ofMemory_isExact hreg (held w.store) readOnly⟩
  · have hlist := Memory.run_list_eq_ok.2 ⟨⟨(hopen k).isValid, (hopen k).isPrepared⟩, rfl, rfl⟩
    exact (run_fst_of_mirrors (hfaulty.list _) (hS.list _)).trans (congrArg Prod.fst hlist)
  · exact (run_fst_of_mirrors (hfaulty.loadManifest _) (hS.loadManifest _)).trans
      (congrArg Prod.fst (MementoPersister.run_loadManifest hstopped hopen))
  · exact (run_fst_of_mirrors (hfaulty.loadLenient _ _) (hS.loadLenient _ _)).trans
      (congrArg Prod.fst (MementoPersister.run_loadLenient hstopped hopen))
  · exact (rebind_eq_ok (w := { w with graph := g }) hw).2 ⟨hp, _, s, hload, nofun, rfl, rfl⟩

/-- An entity `a` at a location `x` that is not stored, and an entity `b` whose text is no memento.
-/
def dangling : Workspace Memory where
  store := (Memory.prepared.put "entities/a"
    ("\x7b\"id\":\"a\",\"kind\":\"entity\",\"type\":\"web\",\"display_name\":\"\","
      ++ "\"relations\":\x7b\"location_ids\":[\"x\"]\x7d\x7d")).put
    "entities/b" "not json"

/-- What is wrong with `dangling`: the text of `b` cannot be read, and the reference of `a` dangles.
-/
def danglingFailures : List RebindFailure :=
  [.load ⟨.entity, "b"⟩ "persistence format error at entities/b: json error: malformed",
    .unresolved ⟨.entity, "a"⟩ ⟨.location, "x"⟩]

/-- A `rebind` of `dangling` rebuilds `a`, leaves out `b`, and reports `danglingFailures`. -/
theorem rebind_isExact_dangling : ∃ registry listed x y report w',
    ({} : Registry).registerBasic .entity "web" = .ok registry ∧
      (rebind (faulty Memory.store) registry .proceed false).run dangling = (.ok report, w') ∧
      IsExact registry listed x y w'.graph report.failures ∧
      report.failures = danglingFailures ∧
      (w'.graph.get? ⟨.entity, "a"⟩).isSome ∧ w'.graph.get? ⟨.entity, "b"⟩ = none := by
  -- The run is only evaluated as far as is asked for.
  have hfailures : ((rebind (faulty Memory.store) .web .proceed false).run
      dangling).1.toOption.map (·.failures) = some danglingFailures := by
    decide +kernel
  have ha : (((rebind (faulty Memory.store) .web .proceed false).run dangling).2.graph.get?
      ⟨.entity, "a"⟩).isSome = true := by
    decide +kernel
  have hb : (((rebind (faulty Memory.store) .web .proceed false).run dangling).2.graph.get?
      ⟨.entity, "b"⟩).isNone = true := by
    decide +kernel
  obtain ⟨listed, x, y, report, w', -, -, -, hrebind, hexact⟩ :=
    rebind_isExact Memory.mirrors rfl rfl Registry.isBasic_web
      (w := dangling) fun e he => by
        rw [he] at hfailures
        cases hfailures
  have hrun :
      (rebind (faulty Memory.store) .web .proceed false).run dangling = (.ok report, w') :=
    hrebind dangling.graph
  rw [hrun] at hfailures ha hb
  exact ⟨.web, listed, x, y, report, w', Registry.registerBasic_web, hrun, hexact,
    Option.some.inj hfailures, ha, Option.isNone_iff_eq_none.1 hb⟩

end Workspace

end Failover
