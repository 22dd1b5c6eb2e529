import Failover.Proofs.Rebind.Workspace

/-!
# Taking over

A node takes over by rebinding and then starting to persist, which begins with a checkpoint of the
whole graph. The checkpoint removes every stored object that the graph does not have. So what
survives are the objects that were rebuilt, and these are all unless the rebind was told to go on in
spite of failures.

## Key results

- `Workspace.storedText?_of_startPersisting`: starting to persist leaves the texts of the snapshot
- `Workspace.listed_of_takeOver`: which objects are still listed after a node has taken over
-/

namespace Failover

variable {σ : Type}

namespace Workspace

variable {S : ObjectStore σ} {held : σ → Memory} {w w' w'' : Workspace σ} {registry : Registry}
  {mode : FailureMode} {readOnly : Bool}

/-! ## Starting to persist -/

/-- A `checkpoint` of a topology that succeeds leaves its texts. -/
private theorem storedText?_of_checkpoint (hS : S.Mirrors held) (hw : w.faults = []) {t : Topology}
    (ht : t.IsFiled) (h : (checkpoint (faulty S) t).run w = (.ok (), w')) :
    w'.faults = [] ∧ (held w'.store).isPrepared = true ∧ ∀ r, '/' ∉ r.id.toList →
      (held w'.store).storedText? r = (t.get? r).map Memento.codec.toText := by
  rw [checkpoint, Action.run_bind_of_ok (Action.run_get w)] at h
  obtain ⟨q, u, hcheckpoint, hmodify⟩ := Action.run_bind_eq_ok.1 h
  rw [run_of_inStep ((faulty_inStep (S := S) hw).checkpoint w.mementos t)] at hcheckpoint
  obtain ⟨hr, rfl⟩ := Prod.mk.inj hcheckpoint
  cases hmodify
  -- The memory that is held goes through the same checkpoint.
  obtain ⟨hsame, hheld⟩ := hS.checkpoint w.mementos t w.store (held w.store) rfl
  have hmemory : (w.mementos.checkpoint Memory.store t).run (held w.store) =
      (.ok q, held ((w.mementos.checkpoint S t).run w.store).2) :=
    Prod.ext (hsame.symm.trans hr) hheld.symm
  exact ⟨hw, (MementoPersister.storedText?_of_checkpoint ht hmemory).2.2⟩

/-- `startPersisting` succeeds if the checkpoint does with which it begins. -/
theorem startPersisting_eq_ok {T : ObjectStore (Workspace σ)} (hp : w.isPersisting = false) :
    (startPersisting T).run w = (.ok (), w') ↔
      (checkpointNow T).run { w with
        persisting := .started
        listener := some (.writer .persisting)
        lastStarted := .persisting } = (.ok (), w') := by
  -- The writer is not running yet, so it is started anew.
  have hstart : w.startWriter .persisting = { w with
      persisting := .started
      listener := some (.writer .persisting)
      lastStarted := .persisting } := by
    rw [startWriter, show (w.writer .persisting).isRunning = false from hp]
    rfl
  rw [startPersisting, Action.run_bind_of_ok (Action.run_get w), hp]
  simp only [Bool.false_eq_true, if_false]
  rw [Action.run_bind_of_ok (Action.run_modify ..),
    Action.run_bind_of_ok (Action.run_attempt ..), hstart]
  generalize (checkpointNow T).run _ = result
  obtain ⟨r, u⟩ := result
  cases r with
  | error e =>
    constructor
    · intro h
      cases h
    · intro h
      cases h
  | ok => exact Iff.rfl

/-- Once `startPersisting` has succeeded, the texts in the store are those of the snapshot. -/
theorem storedText?_of_startPersisting (hS : S.Mirrors held) (hw : w.faults = [])
    (hp : w.isPersisting = false) (h : (startPersisting (faulty S)).run w = (.ok (), w')) :
    w'.faults = [] ∧ (held w'.store).isPrepared = true ∧ ∀ r, '/' ∉ r.id.toList →
      (held w'.store).storedText? r = (w.graph.snapshot.get? r).map Memento.codec.toText := by
  have hrun := (startPersisting_eq_ok hp).1 h
  rw [checkpointNow, Action.run_bind_of_ok (Action.run_get _)] at hrun
  exact storedText?_of_checkpoint hS (by exact hw) (Topology.ofMementos_isFiled _ _) hrun

/-! ## What survives -/

/-- After `rebind` and `startPersisting` have succeeded, an object that was listed is still listed
exactly if it has been rebuilt. Unless the rebind was to go on in spite of failures, and even then
if only references have failed, every object is still listed. -/
theorem listed_of_takeOver (hS : S.Mirrors held) (hw : w.faults = []) {report : RebindReport}
    (hrebind : (rebind (faulty S) registry mode false).run w = (.ok report, w'))
    (hstart : (startPersisting (faulty S)).run w' = (.ok (), w'')) (k : Kind) :
    ∃ before after, ((Stored.list (faulty S) k.subPath).run w).1 = .ok before ∧
      ((Stored.list (faulty S) k.subPath).run w'').1 = .ok after ∧
      ∀ name ∈ before, (name ∈ after ↔ (w'.graph.get? ⟨k, name⟩).isSome) ∧
        (mode ≠ .proceed → name ∈ after) ∧
        ((∀ f ∈ report.failures, ∃ r target, f = .unresolved r target) → name ∈ after) := by
  obtain ⟨hp, hopen, hmode, rfl, s, hheld, rfl⟩ := exists_of_rebind_ok hS hw hrebind
  obtain ⟨hw'', hprepared, htext⟩ :=
    storedText?_of_startPersisting hS (by exact hw) (by exact hp) hstart
  have hafter := Memory.run_list_eq_ok.2 ⟨⟨(hopen k).isValid, hprepared⟩, rfl, rfl⟩
  have hbefore := Memory.run_list_eq_ok.2 ⟨⟨(hopen k).isValid, (hopen k).isPrepared⟩, rfl, rfl⟩
  refine ⟨_, _, (run_fst_of_mirrors ((faulty_inStep hw).list _) (hS.list _)).trans
      (congrArg Prod.fst hbefore),
    (run_fst_of_mirrors ((faulty_inStep hw'').list _) (hS.list _)).trans
      (congrArg Prod.fst hafter), fun name hname => ?_⟩
  have hstored : ((held w.store).storedText? ⟨k, name⟩).isSome := Memory.mem_namesUnder.1 hname
  -- Names in a listing have no slash, so the texts after the checkpoint are known.
  have hslash : '/' ∉ name.toList := by
    obtain ⟨text, htext⟩ := Option.isSome_iff_exists.1 hstored
    exact (Memory.text?_eq_some.1 htext).1
  -- The snapshot has the objects of the graph, and their texts are all that is left.
  have hiff : name ∈ (held w''.store).namesUnder k.subPath ↔
      ((ManagedGraph.ofObjects (Rebuilt.ofMemory registry (held w.store)).objects false).get?
        ⟨k, name⟩).isSome := by
    have hget := htext ⟨k, name⟩ hslash
    rw [ManagedGraph.get?_snapshot (ManagedGraph.ofObjects_isFiled _ _), Memory.storedText?] at hget
    rw [Memory.mem_namesUnder, hget, Option.isSome_map, Option.isSome_map]
  have hclean (h : ∀ f ∈ Rebuilt.failures registry (held w.store), ∃ r target,
      f = .unresolved r target) : name ∈ (held w''.store).namesUnder k.subPath :=
    hiff.2 (ManagedGraph.isSome_get?_ofObjects.2 (Rebuilt.exists_ref_of_unresolved h hstored))
  refine ⟨hiff, fun hne => hclean ?_, hclean⟩
  have hnil : Rebuilt.failures registry (held w.store) = [] := hmode hne
  rw [hnil]
  exact List.forall_mem_nil _

/-- A `Workspace` with an entity `a`, and an entity `x` whose text no node can read. -/
def unreadable : Workspace Memory where
  store := (Memory.prepared.put "entities/a"
    "\x7b\"id\":\"a\",\"kind\":\"entity\",\"type\":\"web\",\"display_name\":\"\"\x7d").put
    "entities/x" "not json"

/-- Taking over from `unreadable` succeeds. The graph has `a` alone then, and so has the store. -/
private theorem exists_takeOver_unreadable : ∃ report w' w'',
    (rebind (faulty Memory.store) .web .proceed false).run unreadable = (.ok report, w') ∧
      (startPersisting (faulty Memory.store)).run w' = (.ok (), w'') ∧
      (w'.graph.get? ⟨.entity, "a"⟩).isSome = true ∧
      (w'.graph.get? ⟨.entity, "x"⟩).isSome = false ∧
      w''.store.namesUnder "entities" = ["a"] := by
  -- The runs are only evaluated as far as is asked for.
  have hruns : (match (rebind (faulty Memory.store) .web .proceed false).run unreadable with
      | (.error _, _) => false
      | (.ok _, w') =>
        match (startPersisting (faulty Memory.store)).run w' with
        | (.error _, _) => false
        | (.ok _, w'') =>
          (w'.graph.get? ⟨.entity, "a"⟩).isSome && !(w'.graph.get? ⟨.entity, "x"⟩).isSome &&
            w''.store.namesUnder "entities" = ["a"]) = true := by
    decide +kernel
  cases hrebind : (rebind (faulty Memory.store) .web .proceed false).run unreadable with
  | mk r w' =>
    rw [hrebind] at hruns
    cases r with
    | error e => cases hruns
    | ok report =>
      dsimp only at hruns
      cases hstart : (startPersisting (faulty Memory.store)).run w' with
      | mk r w'' =>
        rw [hstart] at hruns
        cases r with
        | error e => cases hruns
        | ok =>
          simp only [Bool.and_eq_true, Bool.not_eq_true', decide_eq_true_eq] at hruns
          obtain ⟨⟨ha, hx⟩, hnames⟩ := hruns
          exact ⟨report, w', w'', rfl, hstart, ha, hx, hnames⟩

/-- `listed_of_takeOver` for `unreadable`: `a` is still listed and `x` is not. -/
theorem listed_of_takeOver_unreadable : ∃ report w' w'' before after,
    (rebind (faulty Memory.store) .web .proceed false).run unreadable = (.ok report, w') ∧
      (startPersisting (faulty Memory.store)).run w' = (.ok (), w'') ∧
      ((Stored.list (faulty Memory.store) "entities").run unreadable).1 = .ok before ∧
      ((Stored.list (faulty Memory.store) "entities").run w'').1 = .ok after ∧
      before = ["a", "x"] ∧ "a" ∈ after ∧ "x" ∉ after := by
  obtain ⟨report, w', w'', hrebind, hstart, ha, hx, -⟩ := exists_takeOver_unreadable
  obtain ⟨before, after, hbefore, hafter, hiff⟩ :=
    listed_of_takeOver Memory.mirrors rfl hrebind hstart .entity
  have hlist : ((Stored.list (faulty Memory.store) "entities").run unreadable).1 =
      .ok ["a", "x"] := rfl
  obtain rfl : before = ["a", "x"] := Except.ok.inj (hbefore.symm.trans hlist)
  have hmem : "x" ∈ ["a", "x"] := List.mem_cons_of_mem _ (List.mem_singleton_self _)
  refine ⟨report, w', w'', _, after, hrebind, hstart, hbefore, hafter, rfl,
    (hiff "a" List.mem_cons_self).1.2 ha, fun hlisted => ?_⟩
  cases hx.symm.trans ((hiff "x" hmem).1.1 hlisted)

/-- A node whose `rebind` goes on in spite of failures removes what it could not read. -/
theorem not_all_listed_of_takeOver : ¬ ∀ (w w' w'' : Workspace Memory) (registry : Registry)
    (mode : FailureMode) (report : RebindReport) (k : Kind) (name : String), w.faults = [] →
    (rebind (faulty Memory.store) registry mode false).run w = (.ok report, w') →
    (startPersisting (faulty Memory.store)).run w' = (.ok (), w'') →
    name ∈ w.store.namesUnder k.subPath → name ∈ w''.store.namesUnder k.subPath := by
  intro h
  obtain ⟨report, w', w'', hrebind, hstart, -, -, hnames⟩ := exists_takeOver_unreadable
  have hbefore : "x" ∈ unreadable.store.namesUnder "entities" := by decide +kernel
  -- By the hypothesis the unreadable object would still be listed.
  have hlisted : "x" ∈ w''.store.namesUnder "entities" :=
    h unreadable w' w'' .web .proceed report .entity "x" rfl hrebind hstart hbefore
  rw [hnames] at hlisted
  revert hlisted
  decide

end Workspace

end Failover
