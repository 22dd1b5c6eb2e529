import Failover.Proofs.Rebind.Workspace

/-!
# The handles of rebuilt objects

An object holds its relations as handles, which resolve against the shells that the manifest gave.
The graph has those of the shells whose mementos were loaded too. So where the manifest shows a type
and the text is no memento, the handle to the object is live although the graph does not have it,
and no reference to it is reported.

## Key results

- `ManagedObject.handles_withState`: the handles are those of the relations of the memento
- `Rebuilt.isLive_iff_isKnown`: a handle is live if the manifest shows a known type for its target
- `Workspace.isLive_iff_of_rebind`: when a handle of the graph is live, and when it is reported
-/

namespace Failover

/-- The object that the handle `h` stands for. -/
def Handle.ref (h : Handle) : ObjectRef := ⟨h.kind, h.id⟩

/-- What the `relations` of the memento `m` point at. -/
def Memento.related (m : Memento) : List ObjectRef :=
  m.relations.parent.toList.map (ObjectRef.mk m.kind.parentKind)
    ++ m.relations.children.map (ObjectRef.mk m.kind)
    ++ m.relations.locations.map (ObjectRef.mk .location)
    ++ m.relations.policies.map (ObjectRef.mk .policy)

/-- What is `related` is among the `references`. -/
theorem Memento.mem_references_of_related {m : Memento} {r : ObjectRef} (h : r ∈ m.related) :
    r ∈ m.references :=
  List.mem_append_left _ h

namespace ManagedObject

variable {o : ManagedObject} {m : Memento} {l : Lookup}

/-- The handles by which the object `o` holds its relations. -/
def handles (o : ManagedObject) : List Handle :=
  o.parent.toList ++ o.children ++ o.locations ++ o.policies

/-- `handles` after `withState` are those of the relations of the memento. -/
theorem handles_withState (href : m.ref = o.ref) :
    (o.withState m l).handles = m.related.map (handleFor l) := by
  have hkind : o.identity.kind = m.kind := congrArg ObjectRef.kind href.symm
  have hparent (k : Kind) (id? : Option String) :
      (id?.map fun id => handleFor l ⟨k, id⟩).toList =
        (id?.toList.map (ObjectRef.mk k)).map (handleFor l) := by
    cases id? <;> rfl
  simp only [handles, withState, Memento.related, hparent, handlesFor, hkind, List.map_append,
    List.map_map]
  rfl

/-- `handleFor` a reference stands for it. -/
theorem ref_handleFor (hl : l.IsFaithful) (r : ObjectRef) : (handleFor l r).ref = r := by
  rw [Handle.ref, kind_handleFor hl, id_handleFor hl.keepsIds]

end ManagedObject

namespace Rebuilt

open MementoPersister (manifest loaded)

variable {registry : Registry} {m : Memory} {readOnly : Bool} {r : ObjectRef} {o : ManagedObject}
  {h : Handle}

/-- One of the `handles` of a rebuilt object comes from a relation of its memento, which was
resolved against the shells. -/
theorem exists_of_mem_handles (hreg : registry.IsBasic)
    (ho : (ManagedGraph.ofObjects (ofMemory registry m).objects readOnly).get? r = some o)
    (hh : h ∈ o.handles) :
    ∃ x q, (state registry m).topology.get? r = some x ∧ q ∈ x.related ∧
      h = ManagedObject.handleFor (shelled registry m).lookup q := by
  obtain ⟨shell, x, hshell, hx, rfl⟩ := (get?_ofObjects_ofMemory hreg).1 ho
  have href : x.ref = shell.ref :=
    (ref_of_get?_state hx).trans (ref_of_get?_shelled hreg hshell).symm
  -- The memento is that of the object, so it has given the object all of its handles.
  rw [ManagedObject.apply, if_neg (not_not_intro href)] at hh
  have hhandles : h ∈ (shell.withState x (shelled registry m).lookup).handles := hh
  rw [ManagedObject.handles_withState href, List.mem_map] at hhandles
  obtain ⟨q, hq, rfl⟩ := hhandles
  exact ⟨x, q, hx, hq, rfl⟩

/-- One of the `handles` of a rebuilt object is live if the manifest shows a known type for its
target. -/
theorem isLive_iff_isKnown (hreg : registry.IsBasic)
    (ho : (ManagedGraph.ofObjects (ofMemory registry m).objects readOnly).get? r = some o)
    (hh : h ∈ o.handles) : h.isLive = (manifest m).isKnown registry h.ref := by
  obtain ⟨x, q, -, -, rfl⟩ := exists_of_mem_handles hreg ho hh
  rw [ManagedObject.ref_handleFor (lookup_shelled_isFaithful hreg), Shells.isLive_handleFor,
    isSome_get?_shelled]

/-- The `failures` have an `unresolved` reference for one of the `handles` exactly if it is a
placeholder. -/
theorem unresolved_mem_failures (hreg : registry.IsBasic)
    (ho : (ManagedGraph.ofObjects (ofMemory registry m).objects readOnly).get? r = some o)
    (hh : h ∈ o.handles) : .unresolved r h.ref ∈ failures registry m ↔ h.isLive = false := by
  have hexact := ofMemory_isExact hreg m readOnly
  obtain ⟨x, q, hx, hq, hh'⟩ := exists_of_mem_handles hreg ho hh
  have hsnapshot : (ManagedGraph.ofObjects (ofMemory registry m).objects readOnly).snapshot.get? r =
      some x := by
    rw [get?_snapshot_ofMemory hreg, ho, hx]
    rfl
  have href : h.ref = q := by
    rw [hh', ManagedObject.ref_handleFor (lookup_shelled_isFaithful hreg)]
  -- Among the failures of the object are those of its references, and all of them.
  have hmem : .unresolved r h.ref ∈ failures registry m ↔
      .unresolved r h.ref ∈ (failures registry m).filter (·.ref = r) := by
    rw [List.mem_filter]
    exact (and_iff_left (decide_eq_true rfl)).symm
  rw [hmem, hexact.rebuilt r x hsnapshot, isLive_iff_isKnown hreg ho hh, List.mem_map]
  constructor
  · rintro ⟨q', hq', heq⟩
    cases heq
    simpa using (List.mem_filter.1 hq').2
  · intro hunknown
    have hreferences := Memento.mem_references_of_related (href.symm ▸ hq)
    exact ⟨h.ref, List.mem_filter.2 ⟨hreferences, by rw [hunknown]; rfl⟩, rfl⟩

end Rebuilt

namespace Workspace

variable {σ : Type} {S : ObjectStore σ} {held : σ → Memory} {w w' : Workspace σ}
  {registry : Registry} {readOnly : Bool} {report : RebindReport}

/-- After a `rebind` that goes on, one of the `handles` of an object of the graph is live if the
graph has the object that it stands for, or if the manifest shows a known type for that object and
no memento can be loaded. All other handles are placeholders, and these are reported. -/
theorem isLive_iff_of_rebind (hS : S.Mirrors held) (hw : w.faults = []) (hreg : registry.IsBasic)
    (hrebind : (rebind (faulty S) registry .proceed readOnly).run w = (.ok report, w')) :
    ∃ x y, ((loadManifest (faulty S)).run w).1 = .ok x ∧
      ((loadLenient (faulty S) .placeholders).run w).1 = .ok y ∧
      ∀ r o, w'.graph.get? r = some o → ∀ h ∈ o.handles,
        (h.isLive = true ↔ (w'.graph.get? h.ref).isSome ∨
          x.isKnown registry h.ref = true ∧ y.topology.get? h.ref = none) ∧
        (.unresolved r h.ref ∈ report.failures ↔ h.isLive = false) := by
  have hfaulty := faulty_inStep (S := S) hw
  -- A rebind that succeeds has read the store, so the persister runs.
  have hstopped : w.mementos.isStopped = false := by
    obtain ⟨-, b, s, hload, -⟩ := (rebind_eq_ok hw).1 hrebind
    obtain ⟨hsame, -⟩ := hS.rebuild w.mementos registry .proceed w.store (held w.store) rfl
    rw [hload] at hsame
    exact (Rebuilt.run_load_eq_ok.1 (Prod.ext hsame.symm rfl)).1.1
  obtain ⟨-, hopen, -, rfl, s, hs, rfl⟩ := exists_of_rebind_ok hS hw hrebind
  refine ⟨MementoPersister.manifest (held w.store),
    MementoPersister.loaded .placeholders (held w.store), ?_, ?_,
    fun r o ho h hh => ⟨?_, Rebuilt.unresolved_mem_failures hreg ho hh⟩⟩
  · exact (run_fst_of_mirrors (hfaulty.loadManifest _) (hS.loadManifest _)).trans
      (congrArg Prod.fst (MementoPersister.run_loadManifest hstopped hopen))
  · exact (run_fst_of_mirrors (hfaulty.loadLenient _ _) (hS.loadLenient _ _)).trans
      (congrArg Prod.fst (MementoPersister.run_loadLenient hstopped hopen))
  · have hexact := Rebuilt.ofMemory_isExact hreg (held w.store) readOnly
    rw [Rebuilt.isLive_iff_isKnown hreg ho hh, hexact.isSome_get?, ← and_or_left,
      ← Option.not_isSome_iff_eq_none, and_iff_left (Classical.em _)]

/-- A `Workspace` with an entity whose child has a text that shows its type and is no memento. -/
def parted : Workspace Memory where
  store := (Memory.prepared.put "entities/a"
    ("\x7b\"id\":\"a\",\"kind\":\"entity\",\"type\":\"web\",\"display_name\":\"\","
      ++ "\"relations\":\x7b\"child_ids\":[\"b\"]\x7d\x7d")).put
    "entities/b" "\x7b\"id\":\"b\",\"type\":\"web\"\x7d"

/-- `isLive_iff_of_rebind` for `parted`: the handle to the child is live and not reported, and the
child is not in the graph. -/
theorem isLive_iff_of_rebind_parted : ∃ registry report w' o h,
    ({} : Registry).registerBasic .entity "web" = .ok registry ∧
      (rebind (faulty Memory.store) registry .proceed false).run parted = (.ok report, w') ∧
      w'.graph.get? ⟨.entity, "a"⟩ = some o ∧ h ∈ o.handles ∧ h.ref = ⟨.entity, "b"⟩ ∧
      h.isLive = true ∧ w'.graph.get? ⟨.entity, "b"⟩ = none ∧
      .unresolved ⟨.entity, "a"⟩ ⟨.entity, "b"⟩ ∉ report.failures := by
  -- The run is only evaluated as far as is asked for.
  have heval : (match (rebind (faulty Memory.store) .web .proceed false).run parted with
      | (.ok _, w') =>
        (w'.graph.get? ⟨.entity, "a"⟩).any (fun o => o.handles =
          [.live ⟨.entity, "b", "web"⟩]) && (w'.graph.get? ⟨.entity, "b"⟩).isNone
      | (.error _, _) => false) = true := by
    decide +kernel
  cases hrun : (rebind (faulty Memory.store) .web .proceed false).run parted with
  | mk r w' =>
    rw [hrun] at heval
    cases r with
    | error e => cases heval
    | ok report =>
      obtain ⟨ha, hb⟩ := Bool.and_eq_true_iff.1 heval
      obtain ⟨o, ho, hhandles⟩ := (Option.any_eq_true ..).1 ha
      have hhandles : o.handles = [.live ⟨.entity, "b", "web"⟩] := of_decide_eq_true hhandles
      have hmem : Handle.live ⟨.entity, "b", "web"⟩ ∈ o.handles :=
        hhandles ▸ List.mem_singleton_self _
      obtain ⟨x, y, -, -, hlaw⟩ := isLive_iff_of_rebind Memory.mirrors rfl
        Registry.isBasic_web hrun
      obtain ⟨-, hreported⟩ := hlaw _ o ho _ hmem
      exact ⟨.web, report, w', o, _, Registry.registerBasic_web, hrun, ho, hmem, rfl, rfl,
        Option.isNone_iff_eq_none.1 hb, fun h => nomatch hreported.1 h⟩

end Workspace

end Failover
