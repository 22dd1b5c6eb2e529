import Failover.Proofs.Store.Action
import Failover.Store.Faults

/-!
# What faults leave alone

A fault may answer a call in place of the store and let things happen before. What holds before and
after each of these, and before and after the call of the store, holds of the faulty store too.

## Key results

- `ObjectStore.meets_faulty`: a call of a faulty store does what the call of the store does, or
  fails
- `ObjectStore.keeps_faulty`: it keeps what the call of the store keeps
-/

namespace Failover

open Failover.Action (Keeps Meets)

namespace Store.Fault

variable {ι : Type} {may : ι → Prop} {c : Call} {fs : List (Fault ι)}

/-- All that is planned to happen `meanwhile` may happen. -/
def Allows (may : ι → Prop) (fs : List (Fault ι)) : Prop := ∀ f ∈ fs, ∀ x ∈ f.meanwhile, may x

/-- Faults during which nothing happens are allowed by `Allows` whatever may. -/
theorem allows_of_quiet (h : ∀ f ∈ fs, f.meanwhile = []) : Allows may fs := by
  intro f hf x hx
  rw [h f hf] at hx
  exact absurd hx List.not_mem_nil

/-- A `hit` changes only how often faults will still go wrong, not what happens then. -/
theorem allows_of_hit (h : Allows may fs) : Allows may (hit c fs).2 ∧
    ∀ f p, (hit c fs).1 = some (f, p) → ∀ x ∈ f.meanwhile, may x := by
  induction fs with
  | nil =>
    refine ⟨h, fun f p hnone => ?_⟩
    cases hnone
  | cons f fs ih =>
    obtain ⟨hf, hfs⟩ := List.forall_mem_cons.1 h
    obtain ⟨hleft, hdecides⟩ := ih hfs
    rw [hit]
    split
    · exact ⟨List.forall_mem_cons.2 ⟨hf, hleft⟩, hdecides⟩
    · -- The first fault that the call matches is hit; the others are left as they are.
      split
      · refine ⟨List.forall_mem_cons.2 ⟨hf, hfs⟩, ?_⟩
        rintro _ _ ⟨⟩
        exact hf
      · exact ⟨List.forall_mem_cons.2 ⟨hf, hleft⟩, hdecides⟩

end Store.Fault

namespace ObjectStore

open Store

variable {σ ι : Type} {S : ObjectStore σ} {plans : σ → List (Fault ι)}
  {setPlans : σ → List (Fault ι) → σ} {happen : σ → ι → σ} {may : ι → Prop} {I : σ → Prop}

/-- What may happen keeps `I`, one thing after the other. -/
private theorem foldl_happen (hhappen : ∀ s x, I s → may x → I (happen s x)) {xs : List ι}
    (hxs : ∀ x ∈ xs, may x) {s : σ} (hs : I s) : I (xs.foldl happen s) := by
  induction xs generalizing s with
  | nil => exact hs
  | cons x xs ih =>
    rw [List.forall_mem_cons] at hxs
    exact ih hxs.2 (hhappen s x hs hxs.1)

/-- A call of a `faulty` store is a call of the store once things have happened, or a fault answers
it. -/
private theorem run_call_faulty (hmay : ∀ s, I s → Fault.Allows may (plans s))
    (hplans : ∀ s fs, I s → Fault.Allows may fs → I (setPlans s fs))
    (hhappen : ∀ s x, I s → may x → I (happen s x)) (c : Call) {s : σ} (hs : I s) :
    ∃ t, I t ∧ (((S.faulty plans setPlans happen).call c).run s = (S.call c).run t ∨
      ∃ (o : FaultOutcome) (path : String) (r : Except StoreError c.Answer),
        o.answer? c path = some r ∧ ((S.faulty plans setPlans happen).call c).run s = (r, t)) := by
  obtain ⟨hleft, hdecides⟩ := Fault.allows_of_hit (c := c) (hmay s hs)
  have hrun : ((S.faulty plans setPlans happen).call c).run s =
      (S.faulty plans setPlans happen).step c s := rfl
  rw [hrun, faulty]
  cases hhit : Fault.hit c (plans s) with
  | mk d left =>
    rw [hhit] at hleft hdecides
    have hset := hplans s left hs hleft
    simp only [hhit]
    cases d with
    -- No fault is hit: the store is called at once.
    | none => exact ⟨_, hset, .inl rfl⟩
    | some d =>
      obtain ⟨f, path⟩ := d
      have hdone := foldl_happen hhappen (hdecides f path rfl) hset
      refine ⟨_, hdone, ?_⟩
      cases hanswer : f.outcome.answer? c path with
      | none =>
        refine .inl ?_
        simp only [hanswer]
        rfl
      | some r =>
        refine .inr ⟨f.outcome, path, r, hanswer, ?_⟩
        simp only [hanswer]

/-- Only a `get` may be answered by a fault with anything but an error. -/
private theorem answer?_of_not_get {c : Call} (hc : ∀ path, c ≠ .get path) {o : FaultOutcome}
    {path : String} {r : Except StoreError c.Answer} (h : o.answer? c path = some r) :
    ∃ e, r = .error e := by
  cases o with
  | missing =>
    cases c with
    | get p => exact absurd rfl (hc p)
    | _ => cases h
  | pass => cases h
  | _ => exact ⟨_, (Option.some.inj h).symm⟩

/-- A call of a `faulty` store meets what the call of the store meets, or fails, if nothing that
happens meanwhile matters. Only a `get` may be answered in another way. -/
theorem meets_faulty (hmay : ∀ s, I s → Fault.Allows may (plans s))
    (hplans : ∀ s fs, I s → Fault.Allows may fs → I (setPlans s fs))
    (hhappen : ∀ s x, I s → may x → I (happen s x)) {c : Call} (hc : ∀ path, c ≠ .get path)
    {Q : c.Answer → σ → Prop} (hcall : Meets I Q I (S.call c)) :
    Meets I Q I ((S.faulty plans setPlans happen).call c) := by
  intro s hs
  obtain ⟨t, ht, hrun | ⟨o, path, r, hr, hrun⟩⟩ := run_call_faulty hmay hplans hhappen c hs
  · rw [hrun]
    exact hcall t ht
  · obtain ⟨e, rfl⟩ := answer?_of_not_get hc hr
    rw [hrun]
    exact ht

/-- A call of a `faulty` store keeps what the call of the store keeps. -/
theorem keeps_faulty (hmay : ∀ s, I s → Fault.Allows may (plans s))
    (hplans : ∀ s fs, I s → Fault.Allows may fs → I (setPlans s fs))
    (hhappen : ∀ s x, I s → may x → I (happen s x)) {c : Call} (hcall : Keeps I (S.call c)) :
    Keeps I ((S.faulty plans setPlans happen).call c) := by
  intro s hs
  obtain ⟨t, ht, hrun | ⟨o, path, r, hr, hrun⟩⟩ := run_call_faulty hmay hplans hhappen c hs
  · rw [hrun]
    exact hcall t ht
  · rw [hrun]
    exact ht

end ObjectStore

end Failover
