import Failover.Proofs.Store.Faults
import Failover.Proofs.Store.Memory

/-!
# Stores whose calls may fail

Whatever goes wrong with the calls of a store, each of them does to the memory that the store holds
what the memory's own call does, or it fails and does nothing. So an action that succeeds has done
what it does to a memory, and one that fails has done a part of it. That what is seen stays within
some bounds `C` is shown along the way: each write and each removal has to stay within them.

## Key results

- `Action.Tries.bind`, `Action.Tries.each`: attempts one after the other
- `ObjectStore.Mirrors.tries`, `ObjectStore.Tries.faulty`: stores whose calls are attempts
- `ObjectStore.Tries.write`, `ObjectStore.Tries.remove`: writing and removing an object
-/

namespace Failover

open Failover.Action (Meets)
open Memory (store)
open Store (Fault)

variable {σ τ ε δ α β : Type}

/-! ## Attempts -/

namespace Action

/-- The action `x` does what `y` does to the part of its states that `view` shows, or it fails on
the way. In the end what is seen is of `C` either way. -/
def Tries (view : σ → τ) (C : τ → Prop) (x : Action σ ε α) (y : Action τ ε α) : Prop :=
  ∀ t, C t → Meets (fun s => view s = t) (fun a s => y.run t = (.ok a, view s) ∧ C (view s))
    (fun s => C (view s)) x

namespace Tries

variable {view : σ → τ} {C : τ → Prop} {x : Action σ ε α} {y : Action τ ε α}

/-- `Pure.pure` tries itself, since neither action changes anything. -/
theorem pure (a : α) :
    Tries view C (Pure.pure a : Action σ ε α) (Pure.pure a : Action τ ε α) := by
  rintro t ht s rfl
  exact ⟨rfl, ht⟩

/-- `Action.lift` of the same outcome gives the same answer on both sides. -/
theorem lift (r : Except ε α) : Tries view C (Action.lift r) (Action.lift r) := by
  rintro t ht s rfl
  cases r with
  | error e => exact ht
  | ok a => exact ⟨rfl, ht⟩

/-- `Tries` says nothing of which error there is, so `mapError` does not disturb it. -/
theorem mapError (h : Tries view C x y) (f : ε → δ) :
    Tries view C (x.mapError f) (y.mapError f) := fun t ht =>
  ((h t ht).mapError f).imp (fun _ => id) (fun _ _ => And.imp_left run_mapError_eq_ok.2) fun _ => id

/-- `Tries` of one action after another. What follows only has to be tried after answers that the
other action gives. -/
theorem bind {f : α → Action σ ε β} {g : α → Action τ ε β} (h : Tries view C x y)
    (hf : ∀ a t u, y.run t = (.ok a, u) → Tries view C (f a) (g a)) :
    Tries view C (x >>= f) (y >>= g) := by
  intro t ht
  refine (h t ht).bind fun a => ?_
  rintro s ⟨hy, hs⟩
  rw [run_bind_of_ok hy]
  exact hf a t _ hy (view s) hs s rfl

/-- `Stored.each` tries what each of its parts tries. -/
theorem each {act : β → Action σ PersistenceError Unit} {act' : β → Action τ PersistenceError Unit}
    {bs : List β} (h : ∀ b ∈ bs, Tries view C (act b) (act' b)) :
    Tries view C (Stored.each act bs) (Stored.each act' bs) := by
  -- After a part that fails nothing follows, so the rest starts from what the first has done.
  induction bs with
  | nil => exact .pure ()
  | cons b bs ih =>
    rw [List.forall_mem_cons] at h
    exact h.1.bind fun _ _ _ _ => ih h.2

/-- An action that `Tries` another one and succeeds has done what the other does. -/
theorem run_eq_ok (h : Tries view C x y) {s s' : σ} {a : α} (hs : C (view s))
    (hx : x.run s = (.ok a, s')) : y.run (view s) = (.ok a, view s') ∧ C (view s') := by
  have hend := h (view s) hs s rfl
  rwa [hx] at hend

/-- An action that `Tries` another one and fails has left what is seen in `C`. -/
theorem of_run_eq_error (h : Tries view C x y) {s s' : σ} {e : ε} (hs : C (view s))
    (hx : x.run s = (.error e, s')) : C (view s') := by
  have hend := h (view s) hs s rfl
  rwa [hx] at hend

end Tries

end Action

namespace ObjectStore

/-- `view` sees a memory in the states of the store `S`. A call does to it what the memory's own
call does, or fails and does nothing. How a `get` is answered is left open. -/
def Tries (S : ObjectStore σ) (view : σ → Memory) : Prop :=
  ∀ c, (∀ path, c ≠ .get path) → ∀ m, Meets (fun s => view s = m)
    (fun a s => (store.call c).run m = (.ok a, view s)) (fun s => view s = m) (S.call c)

end ObjectStore

/-- A call of a `Memory` that fails does nothing. -/
theorem Memory.step_snd_of_error {c : Store.Call} {m : Memory} {e : StoreError}
    (h : (Memory.step c m).1 = .error e) : (Memory.step c m).2 = m := by
  cases c with
  | prepare mode =>
    cases mode with
    | disabled => rfl
    | rebind =>
      rw [Memory.step, Memory.prepare] at h ⊢
      split
      · rfl
      · next hfull =>
        rw [if_neg hfull] at h
        cases h
    | auto => cases h
    | clean => cases h
  -- These calls of a memory cannot fail; the rest do not change it.
  | put | append | delete | deleteAll => cases h
  | _ => rfl

/-- A store that `Mirrors` a memory does what the memory does, so its calls are attempts. -/
theorem ObjectStore.Mirrors.tries {S : ObjectStore σ} {held : σ → Memory} (hS : S.Mirrors held) :
    S.Tries held := by
  intro c _ m
  have hmemory : Meets (fun n => n = m) (fun a n => (store.call c).run m = (.ok a, n))
      (fun n => n = m) (store.call c) := by
    rintro n rfl
    cases hrun : (store.call c).run n with
    | mk r u =>
      cases r with
      | ok a => exact rfl
      | error e =>
        -- In a memory a call that fails leaves no trace.
        have hsame := Memory.step_snd_of_error (congrArg Prod.fst hrun)
        exact (congrArg Prod.snd hrun).symm.trans hsame
  exact (hS c).meets hmemory

namespace ObjectStore.Tries

/-- The calls of a `faulty` store are attempts too, as long as nothing else changes the memory
meanwhile. -/
theorem faulty {S : ObjectStore σ} {view : σ → Memory} (hS : S.Tries view) {ι : Type}
    {plans : σ → List (Fault ι)} {setPlans : σ → List (Fault ι) → σ} {happen : σ → ι → σ}
    (hplans : ∀ s fs, view (setPlans s fs) = view s) (hhappen : ∀ s x, view (happen s x) = view s) :
    (S.faulty plans setPlans happen).Tries view := by
  intro c hc m
  have hmay (s : σ) (_ : view s = m) : Fault.Allows (fun _ => True) (plans s) :=
    fun _ _ _ _ => trivial
  exact ObjectStore.meets_faulty hmay (fun s fs hs _ => (hplans s fs).trans hs)
    (fun s x hs _ => (hhappen s x).trans hs) hc (hS c hc m)

variable {T : ObjectStore σ} {view : σ → Memory} (hT : T.Tries view) {C : Memory → Prop}
include hT

/-- A call but a `get` tries the memory's own, if this keeps to `C`. -/
theorem call {c : Store.Call} (hc : ∀ path, c ≠ .get path)
    (hC : ∀ m, C m → C (Memory.step c m).2) :
    Action.Tries view C (T.call c) (store.call c) := by
  refine fun m hm => (hT c hc m).imp (fun _ => id) (fun a s hrun => ⟨hrun, ?_⟩) ?_
  · have hview : (Memory.step c m).2 = view s := congrArg Prod.snd hrun
    exact hview ▸ hC m hm
  · rintro s rfl
    exact hm

/-- `Stored.list` only looks, so nothing has to be shown of `C`. -/
theorem list (subPath : String) :
    Action.Tries view C (Stored.list T subPath) (Stored.list store subPath) :=
  (hT.call (c := .list subPath) (by simp) fun _ => id).mapError _

/-- `Stored.create` leaves the memory as it is. -/
theorem create (subPath : String) :
    Action.Tries view C (Stored.create T subPath) (Stored.create store subPath) :=
  (hT.call (by simp) fun _ => id).mapError _

/-- A call that follows an `openObject` has to keep to `C` only if the path is valid. -/
private theorem opened {path : String} {c : Store.Call} (hc : ∀ path, c ≠ .get path)
    (hC : Path.isValid path = true → ∀ m, C m → C (Memory.step c m).2) :
    Action.Tries view C (T.call (.openObject path) >>= fun _ => T.call c)
      (store.call (.openObject path) >>= fun _ => store.call c) := by
  refine (hT.call (by simp) fun _ => id).bind fun _ m n hopen => ?_
  have hcheck : m.check path = .ok () := congrArg Prod.fst hopen
  exact hT.call hc (hC (Memory.check_eq_ok.1 hcheck).1)

/-- `Stored.write` tries to put an object into the memory. -/
theorem write {path text : String} (hC : ∀ m, C m → C (m.put path text)) :
    Action.Tries view C (Stored.write T path text) (Stored.write store path text) :=
  (hT.opened (by simp) fun _ => hC).mapError _

/-- `Stored.remove` tries to drop an object of the memory. -/
theorem remove {path : String} (hC : Path.isValid path = true → ∀ m, C m → C (m.drop path)) :
    Action.Tries view C (Stored.remove T path) (Stored.remove store path) :=
  (hT.opened (by simp) hC).mapError _

end ObjectStore.Tries

end Failover
