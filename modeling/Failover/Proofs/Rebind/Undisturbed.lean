import Failover.Proofs.Persistence.Planes
import Failover.Proofs.Rebind.Repair
import Failover.Proofs.Store.Branches

/-!
# Two persisters on one store

A workspace has a persister for mementos and one for node records, on one store. Each writes below
its own sub-paths, whatever the ids are that it is given, and whether or not its calls succeed. So
neither sees anything of what the other one does.

## Key results

- `Workspace.persist_mementos_keeps`, `Workspace.persist_records_keeps`: what the calls of a
  persister keep
- `Workspace.undisturbed_of_keepsApart`: where sub-paths are kept apart the persisters do not
  disturb each other
- `Workspace.persisters_undisturbed`: so it is in a memory and in files
-/

namespace Failover

open Failover.Action (Keeps)

/-- The sub-paths that the two persisters use: `RecordPersister.subPath` and `Kind.subPath`. -/
def Stored.subPaths : List String := RecordPersister.subPath :: Kind.all.map Kind.subPath

/-- None of the `subPaths` has a slash. -/
theorem Stored.slash_not_mem_subPaths {s : String} (hs : s ∈ Stored.subPaths) : '/' ∉ s.toList := by
  rcases List.mem_cons.1 hs with rfl | hs
  · decide
  · obtain ⟨k, -, rfl⟩ := List.mem_map.1 hs
    exact k.slash_not_mem_subPath

/-- `RecordPersister.subPath` has no slash. -/
theorem RecordPersister.slash_not_mem_subPath : '/' ∉ subPath.toList := by
  decide

/-- No `Kind.subPath` is `RecordPersister.subPath`. -/
theorem Kind.subPath_ne_plane (k : Kind) : k.subPath ≠ RecordPersister.subPath := by
  cases k <;> decide

namespace Workspace

variable {σ : Type}

/-! ## Calls of the persisters -/

/-- What the persisters of a `Workspace` are asked to write. -/
inductive PersisterCall where
  | mementos (x : MementoPersister.Mutation)
  | records (x : RecordPersister.Mutation)

section Calls

variable (T : ObjectStore (Workspace σ))

/-- Writes a checkpoint or a delta of node records: a `RecordPersister.Mutation` by the workspace.
-/
def mutatePlane : RecordPersister.Mutation → Action (Workspace σ) PersistenceError Unit
  | .checkpoint plane => checkpointPlane T plane
  | .delta d => planeDelta T d

/-- The workspace `w` after a `PersisterCall`, whether or not it has succeeded. -/
def persist (w : Workspace σ) : PersisterCall → Workspace σ
  | .mementos x => ((mutate T x).run w).2
  | .records x => ((mutatePlane T x).run w).2

/-- The workspace `w` after some calls of `persist`. -/
def persistAll (w : Workspace σ) (cs : List PersisterCall) : Workspace σ := cs.foldl (persist T) w

end Calls

/-- Neither persister disturbs the other one, in whatever order they are called and whatever goes
wrong with the calls of the store: to `persist` mementos changes nothing of the plane that is
loaded, and to `persist` node records nothing of the mementos and of the manifest. -/
def Undisturbed (S : ObjectStore σ) (ready : σ → Prop) : Prop :=
  ∀ (w : Workspace σ) (cs : List PersisterCall), ready w.store →
    let u := persistAll (faulty S) w cs
    (∀ x, ∀ p : RecordPersister,
      ((p.load S).run (persist (faulty S) u (.mementos x)).store).1 = ((p.load S).run u.store).1) ∧
    ∀ x, ∀ p : MementoPersister,
      (∀ l, ((p.loadLenient S l).run (persist (faulty S) u (.records x)).store).1 =
        ((p.loadLenient S l).run u.store).1) ∧
      ((p.loadManifest S).run (persist (faulty S) u (.records x)).store).1 =
        ((p.loadManifest S).run u.store).1

/-! ## Whole calls -/

section Whole

variable {T : ObjectStore (Workspace σ)} {P : Workspace σ → Prop}

/-- What calls about the sub-paths of mementos keep is kept when `persist` writes mementos. -/
theorem persist_mementos_keeps
    (h : ∀ k : Kind, ∀ c : Store.Call, c.IsBelow k.subPath → Keeps P (T.call c))
    (hkeep : ∀ w q, P w → P { w with mementos := q }) (x : MementoPersister.Mutation)
    {w : Workspace σ} (hw : P w) : P (w.persist T (.mementos x)) := by
  have hstep := inStepBelow_kinds h
  have hperform : Keeps P (w.mementos.perform T x) := by
    cases x with
    | checkpoint t => exact (hstep.checkpoint (fun k => ⟨k, rfl⟩) w.mementos t).keeps
    | delta d => exact (hstep.delta (fun k => ⟨k, rfl⟩) w.mementos d).keeps
  rw [persist, run_mutate]
  exact hperform.bind (fun q => Action.keeps_modify fun u => hkeep u q) w hw

/-- What calls about the sub-path of node records keep is kept when `persist` writes these. -/
theorem persist_records_keeps
    (h : ∀ c : Store.Call, c.IsBelow RecordPersister.subPath → Keeps P (T.call c))
    (x : RecordPersister.Mutation) {w : Workspace σ} (hw : P w) : P (w.persist T (.records x)) := by
  have hstep : T.InStepBelow T (· = RecordPersister.subPath) fun u v => u = v ∧ P u :=
    ObjectStore.inStepBelow_of_keeps fun _ ht c hc => h c (ht ▸ hc)
  cases x with
  | checkpoint plane =>
    exact Action.keeps_get.bind
      (fun u => (hstep.planeCheckpoint rfl u.records plane).keeps) w hw
  | delta d =>
    exact Action.keeps_get.bind (fun u => (hstep.planeDelta rfl u.records d).keeps) w hw

end Whole

/-! ## Apart -/

section Apart

variable {S : ObjectStore σ} {Same : String → σ → σ → Prop} (hS : S.KeepsApart Same)
include hS

/-- A call that `IsBelow` another sub-path leaves what shows at this one. -/
private theorem keeps_same {s t : String} (hs : '/' ∉ s.toList) (ht : '/' ∉ t.toList) (hst : s ≠ t)
    (a : σ) {c : Store.Call} (hc : c.IsBelow t) :
    Keeps (fun w => Same s a w.store) ((faulty S).call c) :=
  faulty_keeps_store fun _ hb =>
    hS.trans hb (hS.elsewhere hs ht hst hc (hS.trans (hS.symm hb) hb))

/-- A call that `IsBelow` any sub-path keeps what is in order. -/
private theorem keeps_order {s t : String} (hs : '/' ∉ s.toList) (ht : '/' ∉ t.toList)
    {c : Store.Call} (hc : c.IsBelow t) :
    Keeps (fun w => Same s w.store w.store) ((faulty S).call c) := by
  refine faulty_keeps_store (Q := fun b => Same s b b) fun b hb => ?_
  by_cases hst : s = t
  · subst hst
    exact (hS.inStep hs s rfl c hc b b hb).2
  · have hnext := hS.elsewhere hs ht hst hc hb
    exact hS.trans (hS.symm hnext) hnext

/-- All of the `subPaths` stay in order through `persistAll`. -/
private theorem order_of_persistAll {w : Workspace σ}
    (hw : ∀ s ∈ Stored.subPaths, Same s w.store w.store) (cs : List PersisterCall) :
    ∀ s ∈ Stored.subPaths, Same s (w.persistAll (faulty S) cs).store
      (w.persistAll (faulty S) cs).store := by
  induction cs generalizing w with
  | nil => exact hw
  | cons c cs ih =>
    refine ih fun s hs => ?_
    have hslash := Stored.slash_not_mem_subPaths hs
    -- A persister calls the store below its own sub-paths, and whatever is in order there stays so.
    cases c with
    | mementos x =>
      exact persist_mementos_keeps (fun k _ hc => keeps_order hS hslash k.slash_not_mem_subPath hc)
        (fun _ _ h => h) x (hw s hs)
    | records x =>
      exact persist_records_keeps
        (fun _ hc => keeps_order hS hslash RecordPersister.slash_not_mem_subPath hc) x (hw s hs)

/-- Where it looks the same from the sub-paths of all kinds, a call that `IsBelow` one of them is
answered alike and leaves it so. -/
private theorem inStep_kinds :
    S.InStepBelow S (fun t => ∃ k : Kind, t = k.subPath)
      fun a b => ∀ k : Kind, Same k.subPath a b := by
  rintro _ ⟨k, rfl⟩ c hc a b hab
  obtain ⟨hanswer, hown⟩ := hS.inStep k.slash_not_mem_subPath _ rfl c hc a b (hab k)
  refine ⟨hanswer, fun l => ?_⟩
  -- The call may change its own sub-path, alike on both sides; from the others nothing shows.
  by_cases hlk : l.subPath = k.subPath
  · rw [hlk]
    exact hown
  · have helse {u : σ} (hu : Same l.subPath u u) : Same l.subPath u (S.step c u).2 :=
      hS.elsewhere l.slash_not_mem_subPath k.slash_not_mem_subPath hlk hc hu
    have ha := helse (hS.trans (hab l) (hS.symm (hab l)))
    have hb := helse (hS.trans (hS.symm (hab l)) (hab l))
    exact hS.trans (hS.symm ha) (hS.trans (hab l) hb)

/-- The persisters are `Undisturbed` where sub-paths are kept apart and in order. -/
theorem undisturbed_of_keepsApart {ready : σ → Prop}
    (hready : ∀ a, ready a → ∀ s ∈ Stored.subPaths, Same s a a) : Undisturbed S ready := by
  intro w cs hw u
  -- Both persisters have been at work before, and have left everything in order.
  have horder := order_of_persistAll hS (hready w.store hw) cs
  constructor
  · intro x p
    have hsame := persist_mementos_keeps (w := u)
      (fun k _ hc => keeps_same hS RecordPersister.slash_not_mem_subPath k.slash_not_mem_subPath
        k.subPath_ne_plane.symm u.store hc) (fun _ _ h => h) x
      (horder _ List.mem_cons_self)
    exact ((hS.inStep RecordPersister.slash_not_mem_subPath).loadPlane rfl p u.store _ hsame).1.symm
  · intro x p
    have hsame (k : Kind) : Same k.subPath u.store (u.persist (faulty S) (.records x)).store :=
      persist_records_keeps (fun _ hc => keeps_same hS k.slash_not_mem_subPath
        RecordPersister.slash_not_mem_subPath k.subPath_ne_plane u.store hc) x
        (horder _ (List.mem_cons_of_mem _ (List.mem_map_of_mem k.mem_all)))
    exact ⟨fun l => ((inStep_kinds hS).loadLenient (fun k => ⟨k, rfl⟩) p l _ _ hsame).1.symm,
      ((inStep_kinds hS).loadManifest (fun k => ⟨k, rfl⟩) p _ _ hsame).1.symm⟩

end Apart

/-- Over a memory or over files, whatever they hold, the two persisters are `Undisturbed`. For the
path of an `object` tells its sub-path and its id apart, and one that may be opened stays below its
sub-path: no segment of it is empty or leads elsewhere. -/
theorem persisters_undisturbed :
    (∀ (σ : Type) (S : ObjectStore σ) (held : σ → Memory), S.Mirrors held →
      Undisturbed S fun _ => True) ∧
    (∀ handle, Undisturbed (Files.store handle) fun f => (f.tree.entries.get? []).isSome) ∧
    (∀ s ∈ Stored.subPaths, ∀ t ∈ Stored.subPaths, ∀ a b,
      Path.object s a = Path.object t b → s = t ∧ a = b) ∧
    ∀ s ∈ Stored.subPaths, ∀ id, Path.isValid (Path.object s id) = true →
      (Path.segments (Path.object s id)).head? = some s ∧
        ∀ seg ∈ Path.segments (Path.object s id), seg ≠ "" ∧ seg ≠ "." ∧ seg ≠ ".." := by
  -- Over a memory nothing is asked of what it holds; over files the root has to be there.
  refine ⟨fun σ S held hS => ?_, fun handle => ?_, fun s hs t ht a b => ?_, fun s hs id => ?_⟩
  · exact undisturbed_of_keepsApart hS.keepsApart fun _ _ _ _ => ⟨rfl, fun _ => rfl⟩
  · exact undisturbed_of_keepsApart (Files.keepsApart handle) fun _ hroot _ _ =>
      ⟨rfl, hroot, rfl, fun _ => rfl⟩
  · exact (Path.object_eq_object (Stored.slash_not_mem_subPaths hs)
      (Stored.slash_not_mem_subPaths ht)).1
  · exact Path.segments_of_isValid_object (Stored.slash_not_mem_subPaths hs)

/-- A `Workspace` over a store with an entity, and with a node's record. -/
def crossing : Workspace Memory where
  store := (Memory.prepared.put "entities/a" "not json").put "plane/n"
    (NodeRecord.codec.toText ⟨"n", .master, 3, "1", none, some 3⟩)

/-- Calls with ids that would lead from the sub-path of the one to that of the other, for
`crossing`. -/
def crossingCalls : List PersisterCall :=
  [.mementos (.delta ⟨⟨[.new .entity "../plane/n" "web"], [], []⟩, ⟨["../plane/n"], [], []⟩⟩),
    .records (.delta ⟨[], ["../entities/a"]⟩)]

/-- `persisters_undisturbed` for `crossing`: a checkpoint of nothing removes the entity and leaves
the record. -/
theorem persisters_undisturbed_crossing :
    let u := crossing.persistAll (faulty Memory.store) crossingCalls
    let v := u.persist (faulty Memory.store) (.mementos (.checkpoint {}))
    u.store.files.keys = ["entities/a", "plane/n"] ∧ v.store.files.keys = ["plane/n"] ∧
      ((RecordPersister.load Memory.store {}).run v.store).1 =
        ((RecordPersister.load Memory.store {}).run u.store).1 := by
  have hapart := persisters_undisturbed.1 Memory Memory.store id Memory.mirrors
  have hloads := (hapart crossing crossingCalls trivial).1 (.checkpoint {}) {}
  exact ⟨by decide +kernel, by decide +kernel, hloads⟩

end Workspace

end Failover
