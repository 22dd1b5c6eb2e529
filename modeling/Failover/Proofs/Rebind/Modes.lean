import Failover.Proofs.Rebind.Workspace
import Failover.Proofs.Store.Faults

/-!
# The failure modes compared

The mode of a rebind decides what becomes of its failures, and nothing else: in every mode the same
failures are met in the same order, up to the one at which it gives up. So the outcome in each mode
is told from that of a rebind that goes on. A phase that is like this `Tells` its failures, and
phases in turn tell the failures of both.

The graph is replaced when the objects have been rebuilt. A rebind that ends before leaves it alone.

## Key results

- `Tells.bind`: phases in turn tell the failures of both
- `Rebuilt.run_load_of_proceed`: what a rebuild comes to in each mode
- `Workspace.graph_of_rebind_error`: a rebind that ends early leaves the graph as it was
- `Workspace.rebind_modes`: what a rebind comes to in each mode, and when the graph changes
-/

namespace Failover

variable {σ α β : Type}

/-! ## Failures on the way -/

/-- What comes of the result `a` in a mode, if there were failures `fs` on the way to it. -/
def FailureMode.outcome (mode : FailureMode) (fs : List RebindFailure) (a : α) :
    Except RebindError α :=
  match mode, fs with
  | .failFast, f :: _ => .error (.failFast f)
  | _, _ => .ok a

namespace FailureMode

variable {mode : FailureMode} {fs gs : List RebindFailure} {a : α} {b : β}

@[simp] theorem outcome_nil : mode.outcome [] a = .ok a := by
  cases mode <;> rfl

/-- The `outcome` is the result, but for `failFast`. -/
theorem outcome_of_ne (h : mode ≠ .failFast) : mode.outcome fs a = .ok a := by
  cases mode with
  | failFast => exact absurd rfl h
  | proceed => rfl
  | failAtEnd => rfl

/-- The `outcome` of one part after another has the failures of both. -/
theorem outcome_bind {f : α → Except RebindError β} (h : f a = mode.outcome gs b) :
    mode.outcome fs a >>= f = mode.outcome (fs ++ gs) b := by
  cases fs with
  | nil =>
    rw [outcome_nil]
    exact h
  | cons g fs =>
    cases mode with
    | failFast => rfl
    | proceed => exact h
    | failAtEnd => exact h

/-- An action that goes on from an `outcome` has the failures of both as well, and is run only if it
is reached. -/
theorem run_outcome_bind {f : α → Action σ RebindError β} {s t : σ}
    (h : (f a).run s = (mode.outcome gs b, t)) :
    ((Action.lift (mode.outcome fs a) >>= f).run s).1 = mode.outcome (fs ++ gs) b ∧
      (mode ≠ .failFast → ((Action.lift (mode.outcome fs a) >>= f).run s).2 = t) := by
  have hgoes (hok : mode.outcome fs a = .ok a) :
      ((Action.lift (mode.outcome fs a) >>= f).run s) = (mode.outcome gs b, t) := by
    rw [hok, Action.run_bind_of_ok (Action.run_lift ..), h]
  -- Only in this mode do the first failures end the run before the others are met.
  by_cases hmode : mode = .failFast
  · subst hmode
    cases fs with
    | nil =>
      rw [hgoes rfl]
      exact ⟨rfl, fun _ => rfl⟩
    | cons g fs => exact ⟨rfl, fun hne => absurd rfl hne⟩
  · rw [hgoes (outcome_of_ne hmode), outcome_of_ne hmode, outcome_of_ne hmode]
    exact ⟨rfl, fun _ => rfl⟩

end FailureMode

namespace FailureLog

/-- The log with the failures `fs` as well. -/
def noting (log : FailureLog) (fs : List RebindFailure) : FailureLog :=
  ⟨log.failures ++ fs, log.failed.fileAll (fs.map fun f => (f.ref, ()))⟩

theorem noting_nil (log : FailureLog) : log.noting [] = log := by
  rw [noting, List.append_nil]
  rfl

/-- `noting` failures together is noting them one after the other. -/
theorem noting_noting (log : FailureLog) (fs gs : List RebindFailure) :
    (log.noting fs).noting gs = log.noting (fs ++ gs) := by
  simp only [noting, List.append_assoc, ByRef.fileAll, List.map_append, List.foldl_append]

end FailureLog

/-- A phase of a rebuild comes to the same in every mode: it tells the failures that it adds to a
log, and is given up at the first of them in the mode that gives up. -/
def Tells (log : FailureLog) (logOf : α → FailureLog) (x : FailureMode → Except RebindError α) :
    Prop :=
  ∃ fs a, logOf a = log.noting fs ∧ ∀ mode, x mode = mode.outcome fs a

namespace Tells

variable {log : FailureLog} {logOf : α → FailureLog} {logOf' : β → FailureLog}
  {x : FailureMode → Except RebindError α} {f : FailureMode → α → Except RebindError β}

/-- A result without failures `Tells` none. -/
theorem ok {a : α} (h : logOf a = log) : Tells log logOf fun _ => .ok a :=
  ⟨[], a, h.trans log.noting_nil.symm, fun _ => FailureMode.outcome_nil.symm⟩

/-- A phase that `Tells` its failures and then one that does tell the failures of both. -/
theorem bind (h : Tells log logOf x) (hf : ∀ a, Tells (logOf a) logOf' fun mode => f mode a) :
    Tells log logOf' fun mode => x mode >>= f mode := by
  obtain ⟨fs, a, hlog, hx⟩ := h
  obtain ⟨gs, b, hlog', hb⟩ := hf a
  refine ⟨fs ++ gs, b, ?_, fun mode => ?_⟩
  · rw [hlog', hlog, FailureLog.noting_noting]
  · show x mode >>= f mode = _
    rw [hx mode]
    exact FailureMode.outcome_bind (hb mode)

end Tells

/-! ## The log -/

namespace FailureLog

/-- `note` `Tells` the one failure. -/
theorem tells_note (log : FailureLog) (f : RebindFailure) :
    Tells log id fun mode => note mode log f :=
  ⟨[f], log.noting [f], rfl, fun mode => by cases mode <;> rfl⟩

/-- `noteAll` `Tells` all its failures. -/
theorem tells_noteAll (log : FailureLog) (fs : List RebindFailure) :
    Tells log id fun mode => noteAll mode log fs := by
  induction fs generalizing log with
  | nil => exact .ok rfl
  | cons f fs ih => exact (log.tells_note f).bind ih

/-- `noteNew` `Tells` those that are new. Which objects have failed before does not depend on the
mode, so neither does what is new. -/
theorem tells_noteNew (log : FailureLog) (fs : List RebindFailure) :
    Tells log id fun mode => noteNew mode log fs := by
  induction fs generalizing log with
  | nil => exact .ok rfl
  | cons f fs ih =>
    simp only [noteNew]
    split
    · exact ih log
    · exact (log.tells_note f).bind ih

end FailureLog

/-! ## The phases -/

namespace Rebuilt

/-- `shells` `Tells` the types that it does not know. -/
theorem tells_shells (registry : Registry) (es : List (ObjectRef × String)) (made : Shells)
    (log : FailureLog) : Tells log Prod.snd fun mode => shells registry mode es made log := by
  induction es generalizing made log with
  | nil => exact .ok rfl
  | cons e es ih =>
    simp only [shells]
    split
    · exact ih _ log
    · exact (log.tells_note _).bind (ih made)

/-- `ofManifest` `Tells` its failures. -/
theorem tells_ofManifest (registry : Registry) (x : Manifest) :
    Tells {} Prod.snd fun mode => ofManifest registry mode x :=
  (FailureLog.tells_noteAll {} _).bind (tells_shells registry _ .empty)

/-- `populateOne` `Tells` what is reported of its shell. -/
theorem tells_populateOne (l : Lookup) (t : Topology) (r : ObjectRef) (o : ManagedObject)
    (b : Rebuilt) : Tells b.log (·.log) fun mode => populateOne mode l t r o b := by
  simp only [populateOne]
  split
  · exact (b.log.tells_noteAll _).bind fun _ => .ok rfl
  · exact (b.log.tells_noteNew _).bind fun _ => .ok rfl

/-- `populate` `Tells` what is reported of its shells. -/
theorem tells_populate (l : Lookup) (t : Topology) (es : List (ObjectRef × ManagedObject))
    (b : Rebuilt) : Tells b.log (·.log) fun mode => populate mode l t es b := by
  induction es generalizing b with
  | nil => exact .ok rfl
  | cons e es ih => exact (tells_populateOne l t e.1 e.2 b).bind ih

/-- `ofLoaded` `Tells` its failures. -/
theorem tells_ofLoaded (made : Shells) (log : FailureLog) (x : Loaded) :
    Tells log (·.log) fun mode => ofLoaded mode made log x :=
  (log.tells_noteNew _).bind fun log =>
    (tells_populate made.lookup x.topology made.toList { log }).bind fun _ => .ok rfl

/-! ## Both phases -/

variable {S : ObjectStore σ} {p : MementoPersister} {registry : Registry} {b : Rebuilt} {s t : σ}

/-- What `load` comes to in each mode, told from one that goes on in spite of failures. The calls of
the store are the same, as far as they are made. -/
theorem run_load_of_proceed (h : (load S p registry .proceed).run s = (.ok b, t))
    (mode : FailureMode) :
    ((load S p registry mode).run s).1 = mode.outcome b.log.failures b ∧
      (mode ≠ .failFast → ((load S p registry mode).run s).2 = t) := by
  obtain ⟨x, s₁, hmanifest, hrest⟩ := Action.run_bind_eq_ok.1 h
  obtain ⟨⟨made, log⟩, s₂, hmade, hsecond⟩ := Action.run_bind_eq_ok.1 hrest
  obtain ⟨y, s₃, hlenient, hpopulated⟩ := Action.run_bind_eq_ok.1 hsecond
  obtain ⟨fs, a, hlog, hmanifestOf⟩ := tells_ofManifest registry x
  have hmanifestOf (mode : FailureMode) : ofManifest registry mode x = mode.outcome fs a :=
    hmanifestOf mode
  rw [Action.run_lift, hmanifestOf] at hmade
  obtain rfl : (made, log) = a := Except.ok.inj (Prod.mk.inj hmade).1.symm
  obtain rfl : s₁ = s₂ := (Prod.mk.inj hmade).2
  obtain ⟨gs, c, hlog', hloadedOf⟩ := tells_ofLoaded made log y
  have hloadedOf (mode : FailureMode) : ofLoaded mode made log y = mode.outcome gs c :=
    hloadedOf mode
  rw [Action.run_lift, hloadedOf] at hpopulated
  obtain rfl : b = c := Except.ok.inj (Prod.mk.inj hpopulated).1.symm
  obtain rfl : s₃ = t := (Prod.mk.inj hpopulated).2
  -- The failures are those of the first phase and then those of the second.
  have hfailures : b.log.failures = fs ++ gs := by
    rw [show b.log = log.noting gs from hlog', show log = FailureLog.noting {} fs from hlog]
    rfl
  rw [load, Action.run_bind_of_ok hmanifest, hmanifestOf, hfailures]
  refine FailureMode.run_outcome_bind ?_
  show ((p.loadLenient S made.lookup).mapError .persistence >>= fun loaded =>
    Action.lift (ofLoaded mode made log loaded)).run s₁ = _
  rw [Action.run_bind_of_ok hlenient, Action.run_lift, hloadedOf]

end Rebuilt

/-! ## Rebinding in each mode -/

namespace Workspace

open Store.Fault (Allows)

variable {S : ObjectStore σ} {registry : Registry} {mode : FailureMode} {readOnly : Bool}
  {report : RebindReport} {w w' : Workspace σ} {g : ManagedGraph} {b : Rebuilt}

/-- What a rebind makes of the objects that were rebuilt: in the mode `failAtEnd` an error if
anything has failed. -/
private def ending (mode : FailureMode) (b : Rebuilt) (readOnly : Bool) :
    Except RebindError RebindReport :=
  if mode = .failAtEnd ∧ b.log.failures ≠ [] then .error (.failAtEnd b.log.failures)
  else .ok (.ofRebuilt b readOnly)

/-- A `rebind` that has rebuilt the objects puts them into the graph before it ends. -/
private theorem run_rebind_of_ok (hp : w.isPersisting = false) {u : Workspace σ}
    (h : (Rebuilt.load (faulty S) w.mementos registry mode).run w = (.ok b, u)) :
    (rebind (faulty S) registry mode readOnly).run w =
      (ending mode b readOnly, u.replaceAll b.objects readOnly) := by
  rw [rebind, Action.run_bind_of_ok (Action.run_get w), hp]
  simp only [Bool.false_eq_true, if_false]
  rw [Action.run_bind_of_ok h, Action.run_bind_of_ok (Action.run_modify ..), ending]
  split <;> rfl

/-- A `rebind` that has not rebuilt the objects ends with the error. -/
private theorem run_rebind_of_error (hp : w.isPersisting = false) {u : Workspace σ}
    {e : RebindError}
    (h : (Rebuilt.load (faulty S) w.mementos registry mode).run w = (.error e, u)) :
    (rebind (faulty S) registry mode readOnly).run w = (.error e, u) := by
  rw [rebind, Action.run_bind_of_ok (Action.run_get w), hp]
  simp only [Bool.false_eq_true, if_false]
  rw [Action.run_bind_of_error h]

/-- A `rebind` of a node that is persisting is refused. -/
private theorem run_rebind_of_persisting (hp : w.isPersisting = true) :
    (rebind (faulty S) registry mode readOnly).run w = (.error .whilePersisting, w) := by
  rw [rebind, Action.run_bind_of_ok (Action.run_get w), hp]
  simp only [if_true]
  rw [Action.run_bind_of_error (Action.run_throw ..)]

/-- `load` leaves the graph alone, if nobody edits it meanwhile. -/
private theorem graph_of_load (hw : Allows (· = .stopPersisting) w.faults) (p : MementoPersister)
    (registry : Registry) (mode : FailureMode) :
    ((Rebuilt.load (faulty S) p registry mode).run w).2.graph = w.graph := by
  -- What happens meanwhile is that persisting stops, which concerns the writer only.
  have hcalls (c : Store.Call) :
      Action.Keeps (fun u => u.graph = w.graph ∧ Allows (· = .stopPersisting) u.faults)
        ((faulty S).call c) := by
    refine ObjectStore.keeps_faulty (fun _ h => h.2) (fun _ _ h hfs => ⟨h.1, hfs⟩) ?_ fun _ h => h
    rintro u _ ⟨hgraph, hfaults⟩ rfl
    rw [happen, stopPersisting, stopWriter]
    split
    · exact ⟨hgraph, hfaults⟩
    · exact ⟨hgraph, hfaults⟩
  exact (((ObjectStore.inStep_of_keeps hcalls).rebuild p registry mode).keeps w ⟨rfl, hw⟩).1

/-- A `rebind` that ends before it is done leaves the graph as it was, if nobody edits it meanwhile.
-/
theorem graph_of_rebind_error (hw : Allows (· = .stopPersisting) w.faults) {e : RebindError}
    (h : (rebind (faulty S) registry mode readOnly).run w = (.error e, w'))
    (he : ∀ fs, e ≠ .failAtEnd fs) : w'.graph = w.graph := by
  cases hp : w.isPersisting with
  | true =>
    rw [run_rebind_of_persisting hp] at h
    rw [(Prod.mk.inj h).2]
  | false =>
    have hgraph := graph_of_load (S := S) hw w.mementos registry mode
    cases hload : (Rebuilt.load (faulty S) w.mementos registry mode).run w with
    | mk r u =>
      rw [hload] at hgraph
      cases r with
      | error cause =>
        rw [run_rebind_of_error hp hload] at h
        rw [← (Prod.mk.inj h).2]
        exact hgraph
      | ok b =>
        -- Then only the failures that were collected can fail it.
        rw [run_rebind_of_ok hp hload, ending] at h
        obtain ⟨h, -⟩ := Prod.mk.inj h
        split at h
        · exact absurd (Except.error.inj h).symm (he _)
        · cases h

/-- With what a `rebind` that goes on comes to known, one that fails at the end carries all its
failures. -/
private theorem run_rebind_failAtEnd (hp : w.isPersisting = false) {u : Workspace σ}
    (h : (Rebuilt.load (faulty S) w.mementos registry .proceed).run w = (.ok b, u)) :
    (rebind (faulty S) registry .failAtEnd readOnly).run w =
      (if b.log.failures = [] then .ok (.ofRebuilt b readOnly)
        else .error (.failAtEnd b.log.failures), u.replaceAll b.objects readOnly) := by
  have hne : FailureMode.failAtEnd ≠ .failFast := nofun
  obtain ⟨hresult, hstate⟩ := Rebuilt.run_load_of_proceed h .failAtEnd
  rw [FailureMode.outcome_of_ne hne] at hresult
  rw [run_rebind_of_ok hp (Prod.ext hresult (hstate hne)), ending]
  simp only [true_and, ite_not]

/-- With what a `rebind` that goes on comes to known, one that fails fast carries the first of its
failures. -/
private theorem run_rebind_failFast (hp : w.isPersisting = false) {u : Workspace σ}
    (h : (Rebuilt.load (faulty S) w.mementos registry .proceed).run w = (.ok b, u)) :
    ((rebind (faulty S) registry .failFast readOnly).run w).1 =
      match b.log.failures with
      | [] => .ok (.ofRebuilt b readOnly)
      | f :: _ => .error (.failFast f) := by
  obtain ⟨hresult, -⟩ := Rebuilt.run_load_of_proceed h .failFast
  -- The rebuild gives up at the first failure, if there is one.
  cases hfailures : b.log.failures with
  | nil =>
    rw [hfailures, FailureMode.outcome_nil] at hresult
    rw [run_rebind_of_ok hp (Prod.ext hresult rfl), ending, if_neg (fun hc => nomatch hc.1)]
  | cons f fs =>
    rw [hfailures] at hresult
    rw [run_rebind_of_error hp (Prod.ext hresult rfl)]

/-- What a `rebind` comes to in each mode is told from one that goes on in spite of failures: with
failures, one that fails at the end leaves the same behind and carries them all, and one that fails
fast carries the first. The graph changes only when the objects have been rebuilt. -/
theorem rebind_modes (S : ObjectStore σ) (registry : Registry) (readOnly : Bool) (w : Workspace σ) :
    (∀ report w', (rebind (faulty S) registry .proceed readOnly).run w = (.ok report, w') →
      (rebind (faulty S) registry .failAtEnd readOnly).run w =
        (if report.failures = [] then .ok report else .error (.failAtEnd report.failures), w') ∧
      ((rebind (faulty S) registry .failFast readOnly).run w).1 =
        match report.failures with
        | [] => .ok report
        | f :: _ => .error (.failFast f)) ∧
    ∀ mode e w', Allows (· = .stopPersisting) w.faults →
      (rebind (faulty S) registry mode readOnly).run w = (.error e, w') →
      (∀ fs, e ≠ .failAtEnd fs) → w'.graph = w.graph := by
  refine ⟨fun report w' h => ?_, fun mode e w' hw h he => graph_of_rebind_error hw h he⟩
  cases hp : w.isPersisting with
  | true =>
    rw [run_rebind_of_persisting hp] at h
    cases h
  | false =>
    -- Only where the rebuild comes to its end is there anything to compare.
    cases hload : (Rebuilt.load (faulty S) w.mementos registry .proceed).run w with
    | mk r u =>
      cases r with
      | error cause =>
        rw [run_rebind_of_error hp hload] at h
        cases h
      | ok b =>
        rw [run_rebind_of_ok hp hload] at h
        obtain ⟨hend, rfl⟩ := Prod.mk.inj h
        obtain rfl : .ofRebuilt b readOnly = report := Except.ok.inj hend
        exact ⟨run_rebind_failAtEnd hp hload, run_rebind_failFast hp hload⟩

/-- The three modes on the store of `dangling`, with two failures: going on in spite of them and
failing at the end leave the same behind and tell of both, and failing fast tells of the first and
leaves the graph alone. -/
theorem rebind_modes_dangling : ∃ registry report w' w'' f,
    ({} : Registry).registerBasic .entity "web" = .ok registry ∧
      (rebind (faulty Memory.store) registry .proceed false).run dangling = (.ok report, w') ∧
      report.failures = danglingFailures ∧
      (rebind (faulty Memory.store) registry .failAtEnd false).run dangling =
        (.error (.failAtEnd danglingFailures), w') ∧
      (rebind (faulty Memory.store) registry .failFast false).run dangling =
        (.error (.failFast f), w'') ∧
      danglingFailures.head? = some f ∧ w''.graph = dangling.graph ∧ w'.graph ≠ dangling.graph := by
  obtain ⟨hstory, hgraph⟩ := rebind_modes Memory.store .web false dangling
  -- The run is only evaluated as far as is asked for.
  have hfailures : ((rebind (faulty Memory.store) .web .proceed false).run
      dangling).1.toOption.map (·.failures) = some danglingFailures := by
    decide +kernel
  have ha : (((rebind (faulty Memory.store) .web .proceed false).run dangling).2.graph.get?
      ⟨.entity, "a"⟩).isSome = true := by
    decide +kernel
  cases hrun : (rebind (faulty Memory.store) .web .proceed false).run dangling with
  | mk r w' =>
    rw [hrun] at hfailures ha
    cases r with
    | error e => cases hfailures
    | ok report =>
      have hreport : report.failures = danglingFailures := Option.some.inj hfailures
      obtain ⟨hatEnd, hfast⟩ := hstory report w' hrun
      rw [hreport] at hatEnd hfast
      cases hfastRun : (rebind (faulty Memory.store) .web .failFast false).run dangling with
      | mk r w'' =>
        rw [hfastRun] at hfast
        obtain rfl : r = .error (.failFast _) := hfast
        have hquiet : Allows (· = .stopPersisting) dangling.faults := List.forall_mem_nil _
        have hrest : w''.graph = dangling.graph := hgraph .failFast _ w'' hquiet hfastRun nofun
        have hne : w'.graph ≠ dangling.graph := by
          intro heq
          rw [heq] at ha
          cases ha
        exact ⟨.web, report, w', w'', _, rfl, hrun, hreport, hatEnd, hfastRun, rfl, hrest, hne⟩

end Workspace

end Failover
