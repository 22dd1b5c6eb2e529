import Failover.Proofs.Persistence.Retry
import Failover.Proofs.Rebind.Workspace

/-!
# Repeating what has failed

A workspace makes a checkpoint or writes a delta, and a call of its store fails. Then its persister
is as before, and what is stored differs from what was stored by a part of the checkpoint or delta.
If the same is done again and succeeds, it comes to the same as if the first attempt had succeeded.

## Key results

- `Workspace.mutate_tries`: what a checkpoint or a delta of a workspace does to what is stored
- `Workspace.mutate_isRepairable`: one that fails is contained, and to repeat it makes good for it
-/

namespace Failover

open MementoPersister (Mutation)

namespace Workspace

variable {σ : Type} {S : ObjectStore σ} {held : σ → Memory} {w w' : Workspace σ} {x : Mutation}

/-- Makes a checkpoint or writes a delta: a `Mutation` by the workspace. -/
def mutate (T : ObjectStore (Workspace σ)) : Mutation → Action (Workspace σ) PersistenceError Unit
  | .checkpoint t => checkpoint T t
  | .delta d => delta T d

/-- `mutate` is up to the persister of the workspace, which is then kept. -/
theorem run_mutate (T : ObjectStore (Workspace σ)) (x : Mutation) (w : Workspace σ) :
    (mutate T x).run w =
      (w.mementos.perform T x >>= fun q => modify fun u => { u with mementos := q }).run w := by
  cases x with
  | checkpoint t => exact Action.run_bind_of_ok (Action.run_get w) _
  | delta d => exact Action.run_bind_of_ok (Action.run_get w) _

/-- The calls of a `faulty` store are attempts (`Tries`): each does to what is stored what it does
to a memory, or nothing. -/
theorem faulty_tries (hS : S.Mirrors held) : (faulty S).Tries fun w => held w.store := by
  have hseen : (seen S).Mirrors fun w => held w.store := hS.focus fun _ _ => rfl
  refine hseen.tries.faulty ?_ fun u x => ?_
  · exact fun _ _ => rfl
  · rw [(persisters_happen u x).1]

/-- `perform` leaves the persister of the workspace as it is while it is under way. -/
private theorem mementos_perform (w : Workspace σ) (x : Mutation) :
    ((w.mementos.perform (faulty S) x).run w).2.mementos = w.mementos := by
  have hstep := ObjectStore.inStep_of_keeps (faulty_keeps_persisters S w.mementos w.records)
  exact ((MementoPersister.perform_inStep hstep w.mementos x).keeps w ⟨rfl, rfl⟩).1

/-- A `mutate` that succeeds does to what is stored what `perform` does to a memory. -/
theorem run_perform_of_mutate (hS : S.Mirrors held)
    (h : (mutate (faulty S) x).run w = (.ok (), w')) :
    (w.mementos.perform Memory.store x).run (held w.store) = (.ok w'.mementos, held w'.store) := by
  rw [run_mutate, Action.run_bind_eq_ok] at h
  obtain ⟨q, u, hperform, hkeep⟩ := h
  obtain rfl : { u with mementos := q } = w' := congrArg Prod.snd hkeep
  have htries := MementoPersister.perform_tries (p := w.mementos) (faulty_tries hS) x
  exact ((htries (held w.store)).run_eq_ok (.refl x _) hperform).1

/-- A `mutate` that fails keeps the persister and has done a part of what it was to do (`PartDone`).
-/
theorem partDone_of_mutate (hS : S.Mirrors held) {e : PersistenceError}
    (h : (mutate (faulty S) x).run w = (.error e, w')) :
    w'.mementos = w.mementos ∧ x.PartDone (held w.store) (held w'.store) := by
  -- The persister that a workspace keeps is replaced only once all has succeeded.
  have hkept := mementos_perform (S := S) w x
  have htries := MementoPersister.perform_tries (p := w.mementos) (faulty_tries hS) x
  rw [run_mutate] at h
  cases hperform : (w.mementos.perform (faulty S) x).run w with
  | mk r u =>
    rw [hperform] at hkept
    cases r with
    | ok q =>
      rw [Action.run_bind_of_ok hperform] at h
      cases congrArg Prod.fst h
    | error cause =>
      rw [Action.run_bind_of_error hperform] at h
      obtain rfl : u = w' := congrArg Prod.snd h
      exact ⟨hkept, (htries (held w.store)).of_run_eq_error (.refl x _) hperform⟩

/-- Without faults `mutate` succeeds if `perform` does on a memory, and does the same. -/
theorem exists_run_mutate (hS : S.Mirrors held) (hw : w.faults = []) {q : MementoPersister}
    {m : Memory} (h : (w.mementos.perform Memory.store x).run (held w.store) = (.ok q, m)) :
    ∃ u, (mutate (faulty S) x).run w = (.ok (), u) ∧ u.mementos = q ∧ held u.store = m := by
  have hseen := run_of_inStep
    (MementoPersister.perform_inStep (faulty_inStep (S := S) hw) w.mementos x)
  obtain ⟨hanswer, hheld⟩ := MementoPersister.perform_inStep hS w.mementos x w.store _ rfl
  rw [h] at hanswer hheld
  rw [hanswer] at hseen
  exact ⟨_, (run_mutate (faulty S) x w).trans (Action.run_bind_of_ok hseen _), rfl, hheld⟩

/-- A `mutate` that fails leaves the persister alone and has done a part of what it was to do
(`PartDone`). If it is then repeated and succeeds, the persister and what is stored are as they
would have been if the first attempt had met no fault and had succeeded. -/
theorem mutate_isRepairable (hS : S.Mirrors held) {e : PersistenceError}
    (h : (mutate (faulty S) x).run w = (.error e, w')) :
    w'.mementos = w.mementos ∧ x.PartDone (held w.store) (held w'.store) ∧
      (x.IsFiled → ∀ u u' : Workspace σ, u.store = w'.store → u.mementos = w'.mementos →
        (mutate (faulty S) x).run u = (.ok (), u') →
        ∃ v, (mutate (faulty S) x).run { w with faults := [] } = (.ok (), v) ∧
          v.mementos = u'.mementos ∧ held v.store = held u'.store) := by
  obtain ⟨hmementos, hpart⟩ := partDone_of_mutate hS h
  refine ⟨hmementos, hpart, fun hx u u' hstore hsame hrepeat => ?_⟩
  have hagain := run_perform_of_mutate hS hrepeat
  rw [hstore, hsame, hmementos] at hagain
  exact exists_run_mutate hS rfl (hpart.run_perform hx hagain)

/-- A `Mutation` with two mementos of one entity that is also removed, and another entity to remove.
-/
def overlapping : Mutation :=
  .delta ⟨⟨[.new .entity "a" "web", .new .entity "a" "db"], [], []⟩, ⟨["a", "b"], [], []⟩⟩

/-- A `Workspace` over a store with the other entity in it, which fails the second time that it is
to be written. -/
def halfWritten : Workspace Memory where
  store := Memory.prepared.put "entities/b" "not json"
  faults := [{ call := .put, skip := 1, times := some 1 }]

/-- `mutate_isRepairable` for `overlapping` in `halfWritten`: one memento has been written when the
delta fails; when it is repeated, both entities go. -/
theorem mutate_isRepairable_halfWritten : ∃ e w' u v,
    (mutate (faulty Memory.store) overlapping).run halfWritten = (.error e, w') ∧
      w'.mementos = halfWritten.mementos ∧
      overlapping.PartDone halfWritten.store w'.store ∧
      w'.store.files.get? "entities/a" =
        some (Memento.codec.toText (.new .entity "a" "web")) ∧
      (mutate (faulty Memory.store) overlapping).run w' = (.ok (), u) ∧
      u.store.files.isEmpty = true ∧
      (mutate (faulty Memory.store) overlapping).run { halfWritten with faults := [] } =
        (.ok (), v) ∧
      v.mementos = u.mementos ∧ v.store = u.store := by
  have hfiled : overlapping.IsFiled := by
    intro k
    cases k <;> simp [PerKind.get, Memento.new]
  have hfails : ((mutate (faulty Memory.store) overlapping).run halfWritten).1.toBool = false := by
    decide +kernel
  have ha : ((mutate (faulty Memory.store) overlapping).run halfWritten).2.store.files.get?
      "entities/a" = some (Memento.codec.toText (.new .entity "a" "web")) := by
    decide +kernel
  cases hrun : (mutate (faulty Memory.store) overlapping).run halfWritten with
  | mk r w' =>
    cases r with
    | ok =>
      rw [hrun] at hfails
      cases hfails
    | error e =>
      obtain ⟨hmementos, hpart, hrepair⟩ := mutate_isRepairable Memory.mirrors hrun
      obtain rfl : ((mutate (faulty Memory.store) overlapping).run halfWritten).2 = w' :=
        congrArg Prod.snd hrun
      obtain ⟨u, hu⟩ : ∃ u, (mutate (faulty Memory.store) overlapping).run
          ((mutate (faulty Memory.store) overlapping).run halfWritten).2 = (.ok (), u) :=
        Action.exists_run_eq_ok (by decide +kernel)
      -- The repeated attempt is evaluated on its own, and the theorem says that it ends as the
      -- first would have.
      have hempty : ((mutate (faulty Memory.store) overlapping).run
          ((mutate (faulty Memory.store) overlapping).run halfWritten).2).2.store.files.isEmpty =
            true := by
        decide +kernel
      rw [hu] at hempty
      obtain ⟨v, hv, hsame, hstore⟩ := hrepair hfiled _ u rfl rfl hu
      exact ⟨e, _, u, v, rfl, hmementos, hpart, ha, hu, hempty, hv, hsame, hstore⟩

end Workspace

end Failover
