import Failover.Store.Basic

/-!
# Actions step by step

How each way of building an `Action` runs, and when two actions run in step: from related states
they have one outcome, and the states that they leave are related again. Stores of different kinds
are compared in this way, so that what is shown of programs over one store holds over the other.

## Key results

- `Action.run_bind`: an action goes on only where its first part succeeds
- `Action.InStep.bind`: sequencing keeps two actions in step
- `Action.Meets.bind`: what holds after the first part holds before the second
-/

namespace Failover.Action

variable {σ τ ε δ α β : Type}

/-! ## Running -/

@[simp] theorem run_pure (a : α) (s : σ) : (pure a : Action σ ε α).run s = (.ok a, s) := rfl

@[simp] theorem run_throw (e : ε) (s : σ) : (throw e : Action σ ε α).run s = (.error e, s) := rfl

@[simp] theorem run_lift (r : Except ε α) (s : σ) : (lift r : Action σ ε α).run s = (r, s) := rfl

@[simp] theorem run_get (s : σ) : (get : Action σ ε σ).run s = (.ok s, s) := rfl

@[simp] theorem run_set (s t : σ) : (set t : Action σ ε PUnit).run s = (.ok (), t) := rfl

@[simp] theorem run_modify (f : σ → σ) (s : σ) :
    (modify f : Action σ ε PUnit).run s = (.ok (), f s) := rfl

@[simp] theorem run_of (f : σ → Except ε α × σ) (s : σ) : (of f).run s = f s := rfl

@[simp] theorem run_attempt (x : Action σ ε α) (s : σ) :
    (x.attempt : Action σ δ (Except ε α)).run s = (.ok (x.run s).1, (x.run s).2) := rfl

@[simp] theorem run_mapError (f : ε → δ) (x : Action σ ε α) (s : σ) :
    (x.mapError f).run s = ((x.run s).1.mapError f, (x.run s).2) := rfl

/-- A sequence of actions goes on only where its first part succeeds. -/
theorem run_bind (x : Action σ ε α) (f : α → Action σ ε β) (s : σ) :
    (x >>= f).run s =
      match x.run s with
      | (.ok a, s) => (f a).run s
      | (.error e, s) => (.error e, s) := by
  simp only [run, bind, ExceptT.bind, ExceptT.mk, StateT.bind]
  cases h : x s with
  | mk r t => cases r <;> rfl

/-- After a first part that succeeds, a sequence goes on with its result. -/
theorem run_bind_of_ok {x : Action σ ε α} {s t : σ} {a : α} (h : x.run s = (.ok a, t))
    (f : α → Action σ ε β) : (x >>= f).run s = (f a).run t := by
  rw [run_bind, h]

/-- A first part that fails ends a sequence. -/
theorem run_bind_of_error {x : Action σ ε α} {s t : σ} {e : ε} (h : x.run s = (.error e, t))
    (f : α → Action σ ε β) : (x >>= f).run s = (.error e, t) := by
  rw [run_bind, h]

/-- A sequence of actions succeeds exactly if its parts do, one after the other. -/
theorem run_bind_eq_ok {x : Action σ ε α} {f : α → Action σ ε β} {s u : σ} {b : β} :
    (x >>= f).run s = (.ok b, u) ↔ ∃ a t, x.run s = (.ok a, t) ∧ (f a).run t = (.ok b, u) := by
  rw [run_bind]
  cases h : x.run s with
  | mk r t =>
    cases r with
    | error e => simp
    | ok a =>
      constructor
      · exact fun hf => ⟨a, t, rfl, hf⟩
      · rintro ⟨a', t', heq, hf⟩
        cases heq
        exact hf

/-- A sequence whose first part answers nothing succeeds exactly if its parts do (`run_bind_eq_ok`).
-/
theorem run_then_eq_ok {x : Action σ ε Unit} {y : Action σ ε β} {s u : σ} {b : β} :
    (x >>= fun _ => y).run s = (.ok b, u) ↔ ∃ t, x.run s = (.ok (), t) ∧ y.run t = (.ok b, u) := by
  rw [run_bind_eq_ok]
  constructor
  · rintro ⟨⟨⟩, t, h⟩
    exact ⟨t, h⟩
  · rintro ⟨t, h⟩
    exact ⟨(), t, h⟩

/-- `mapError` changes nothing where an action succeeds. -/
theorem run_mapError_eq_ok {f : ε → δ} {x : Action σ ε α} {s t : σ} {a : α} :
    (x.mapError f).run s = (.ok a, t) ↔ x.run s = (.ok a, t) := by
  rw [run_mapError]
  cases x.run s with
  | mk r u =>
    cases r with
    | error e =>
      show (Except.error (f e), u) = _ ↔ _
      simp
    | ok a' =>
      show (Except.ok a', u) = _ ↔ _
      simp

/-- An action whose result is known to be `a` ends in some state. -/
theorem exists_run_eq_ok {x : Action σ ε α} {s : σ} {a : α}
    (h : (x.run s).1.toOption = some a) : ∃ t, x.run s = (.ok a, t) := by
  cases hrun : x.run s with
  | mk r t =>
    rw [hrun] at h
    cases r with
    | error e => cases h
    | ok a' =>
      obtain rfl := Option.some.inj h
      exact ⟨t, rfl⟩

/-! ## In step -/

/-- `InStep R x y` says that `x` and `y` run in step under the relation `R` between their states:
from related states they have one outcome, and leave related states. -/
def InStep (R : σ → τ → Prop) (x : Action σ ε α) (y : Action τ ε α) : Prop :=
  ∀ s t, R s t → (x.run s).1 = (y.run t).1 ∧ R (x.run s).2 (y.run t).2

namespace InStep

variable {R : σ → τ → Prop}

theorem pure (a : α) : InStep R (Pure.pure a : Action σ ε α) (Pure.pure a) := fun _ _ h => ⟨rfl, h⟩

theorem lift (r : Except ε α) : InStep R (Action.lift r) (Action.lift r) := fun _ _ h => ⟨rfl, h⟩

/-- `mapError` keeps two actions in step. -/
theorem mapError {x : Action σ ε α} {y : Action τ ε α} (h : InStep R x y) (f : ε → δ) :
    InStep R (x.mapError f) (y.mapError f) := by
  intro s t hst
  obtain ⟨hr, hs⟩ := h s t hst
  exact ⟨by rw [run_mapError, run_mapError, hr], hs⟩

/-- Sequencing keeps two actions in step. -/
theorem bind {x : Action σ ε α} {y : Action τ ε α} {f : α → Action σ ε β} {g : α → Action τ ε β}
    (h : InStep R x y) (hf : ∀ a, InStep R (f a) (g a)) : InStep R (x >>= f) (y >>= g) := by
  intro s t hst
  obtain ⟨hr, hs⟩ := h s t hst
  rw [run_bind, run_bind]
  cases hx : x.run s with
  | mk r s' =>
    cases hy : y.run t with
    | mk r' t' =>
      rw [hx, hy] at hr hs
      -- The first parts answer alike, so both go on or both stop.
      cases hr
      cases r with
      | error e => exact ⟨rfl, hs⟩
      | ok a => exact hf a s' t' hs

end InStep

/-! ## What stays -/

/-- `Keeps P x` says that `x` keeps what `P` says of a state, however it comes out. -/
def Keeps (P : σ → Prop) (x : Action σ ε α) : Prop := ∀ s, P s → P (x.run s).2

theorem keeps_get {P : σ → Prop} : Keeps P (get : Action σ ε σ) := fun _ h => h

theorem keeps_throw {P : σ → Prop} (e : ε) : Keeps P (throw e : Action σ ε α) := fun _ h => h

theorem keeps_lift {P : σ → Prop} (r : Except ε α) : Keeps P (Action.lift r : Action σ ε α) :=
  fun _ h => h

theorem keeps_pure {P : σ → Prop} (a : α) : Keeps P (pure a : Action σ ε α) := fun _ h => h

theorem keeps_modify {P : σ → Prop} {f : σ → σ} (hf : ∀ s, P s → P (f s)) :
    Keeps P (modify f : Action σ ε PUnit) := hf

/-- A sequence keeps what all of its parts do. -/
theorem Keeps.bind {P : σ → Prop} {x : Action σ ε α} {f : α → Action σ ε β} (hx : Keeps P x)
    (hf : ∀ a, Keeps P (f a)) : Keeps P (x >>= f) := by
  intro s hs
  have hrest := hx s hs
  rw [run_bind]
  cases hrun : x.run s with
  | mk r t =>
    rw [hrun] at hrest
    cases r with
    | error e => exact hrest
    | ok a => exact hf a t hrest

/-- `mapError` keeps what the action does. -/
theorem Keeps.mapError {P : σ → Prop} {x : Action σ ε α} (hx : Keeps P x) {f : ε → δ} :
    Keeps P (x.mapError f) := by
  intro s hs
  rw [run_mapError]
  exact hx s hs

/-- `attempt` keeps what the action does. -/
theorem Keeps.attempt {P : σ → Prop} {x : Action σ ε α} (hx : Keeps P x) :
    Keeps P (x.attempt : Action σ δ (Except ε α)) := hx

/-! ## What holds in the end -/

/-- `Meets P Q E x` says that from states of `P` the action `x` ends in states of `Q` if it
succeeds, and else in states of `E`. -/
def Meets (P : σ → Prop) (Q : α → σ → Prop) (E : σ → Prop) (x : Action σ ε α) : Prop :=
  ∀ s, P s →
    match x.run s with
    | (.ok a, t) => Q a t
    | (.error _, t) => E t

namespace Meets

variable {P P' E E' : σ → Prop} {Q Q' : α → σ → Prop} {x : Action σ ε α}

/-- An action that `Meets` its conditions ends in one of two ways. -/
theorem run_cases (h : Meets P Q E x) {s : σ} (hs : P s) :
    (∃ a t, x.run s = (.ok a, t) ∧ Q a t) ∨ ∃ e t, x.run s = (.error e, t) ∧ E t := by
  have hend := h s hs
  cases hrun : x.run s with
  | mk r t =>
    rw [hrun] at hend
    cases r with
    | error e => exact .inr ⟨e, t, rfl, hend⟩
    | ok a => exact .inl ⟨a, t, rfl, hend⟩

/-- The conditions of `Meets` can be weakened. -/
theorem imp (h : Meets P Q E x) (hP : ∀ s, P' s → P s) (hQ : ∀ a s, Q a s → Q' a s)
    (hE : ∀ s, E s → E' s) : Meets P' Q' E' x := by
  intro s hs
  obtain ⟨a, t, hrun, ht⟩ | ⟨e, t, hrun, ht⟩ := h.run_cases (hP s hs)
  · rw [hrun]
    exact hQ a t ht
  · rw [hrun]
    exact hE t ht

theorem pure {a : α} (h : ∀ s, P s → Q a s) : Meets P Q E (Pure.pure a : Action σ ε α) := h

theorem lift {r : Except ε α} (hok : ∀ a s, r = .ok a → P s → Q a s) (herror : ∀ s, P s → E s) :
    Meets P Q E (Action.lift r) := by
  intro s hs
  cases r with
  | error e => exact herror s hs
  | ok a => exact hok a s rfl hs

theorem mapError (h : Meets P Q E x) (f : ε → δ) : Meets P Q E (x.mapError f) := by
  intro s hs
  rw [run_mapError]
  obtain ⟨a, t, hrun, ht⟩ | ⟨e, t, hrun, ht⟩ := h.run_cases hs
  · rw [hrun]
    exact ht
  · rw [hrun]
    exact ht

/-- What holds after the first part of a sequence holds before the second. -/
theorem bind {R : β → σ → Prop} {f : α → Action σ ε β} (h : Meets P Q E x)
    (hf : ∀ a, Meets (Q a) R E (f a)) : Meets P R E (x >>= f) := by
  intro s hs
  obtain ⟨a, t, hrun, ht⟩ | ⟨e, t, hrun, ht⟩ := h.run_cases hs
  · rw [run_bind_of_ok hrun]
    exact hf a t ht
  · rw [run_bind_of_error hrun]
    exact ht

/-- An action on a part of a state ends there as it does by itself (`Action.focus`). -/
theorem focus {τ : Type} {P E : τ → Prop} {Q : α → τ → Prop} {x : Action τ ε α} (h : Meets P Q E x)
    (get : σ → τ) (set : σ → τ → σ) (hset : ∀ s t, get (set s t) = t) :
    Meets (fun s => P (get s)) (fun a s => Q a (get s)) (fun s => E (get s)) (x.focus get set) := by
  intro s hs
  have hrun : (x.focus get set).run s = ((x.run (get s)).1, set s (x.run (get s)).2) := rfl
  obtain ⟨a, t, ht, hQ⟩ | ⟨e, t, ht, hE⟩ := h.run_cases hs
  · rw [hrun, ht]
    show Q a (get (set s t))
    rwa [hset]
  · rw [hrun, ht]
    show E (get (set s t))
    rwa [hset]

end Meets

/-- What an action `Keeps` holds in the end, however it comes out. -/
theorem Keeps.meets {P : σ → Prop} {x : Action σ ε α} (h : Keeps P x) :
    Meets P (fun _ => P) P x := by
  intro s hs
  have hend := h s hs
  cases hrun : x.run s with
  | mk r t =>
    rw [hrun] at hend
    cases r with
    | ok a => exact hend
    | error e => exact hend

/-- What an action `Keeps` beside its conditions holds in the end too. -/
theorem Meets.frame {P E F : σ → Prop} {Q : α → σ → Prop} {x : Action σ ε α} (h : Meets P Q E x)
    (hx : Keeps F x) :
    Meets (fun s => F s ∧ P s) (fun a s => F s ∧ Q a s) (fun s => F s ∧ E s) x := by
  rintro s ⟨hF, hP⟩
  have hkept := hx s hF
  obtain ⟨a, t, hrun, ht⟩ | ⟨e, t, hrun, ht⟩ := h.run_cases hP
  · rw [hrun] at hkept ⊢
    exact ⟨hkept, ht⟩
  · rw [hrun] at hkept ⊢
    exact ⟨hkept, ht⟩

/-- An action `InStep` with another ends as the other does, as far as the other's states are seen in
its own. -/
theorem InStep.meets {view : σ → τ} {P E : τ → Prop} {Q : α → τ → Prop} {x : Action σ ε α}
    {y : Action τ ε α} (h : InStep (fun s t => view s = t) x y) (hy : Meets P Q E y) :
    Meets (fun s => P (view s)) (fun a s => Q a (view s)) (fun s => E (view s)) x := by
  intro s hs
  obtain ⟨hresult, hview⟩ := h s _ rfl
  cases hx : x.run s with
  | mk r s' =>
    rw [hx] at hresult hview
    -- Both actions come out alike, so the states that `y` can end in are the views of those of `x`.
    obtain ⟨a, t, hrun, ht⟩ | ⟨e, t, hrun, ht⟩ := hy.run_cases hs
    · rw [hrun] at hresult hview
      obtain rfl : r = .ok a := hresult
      obtain rfl : view s' = t := hview
      exact ht
    · rw [hrun] at hresult hview
      obtain rfl : r = .error e := hresult
      obtain rfl : view s' = t := hview
      exact ht

/-! ## In step with itself -/

/-- An action that is `InStep` with itself, from states of `P` to states of `P`, keeps `P`. -/
theorem InStep.keeps {P : σ → Prop} {x : Action σ ε α} (h : InStep (fun s t => s = t ∧ P s) x x) :
    Keeps P x :=
  fun s hs => (h s s ⟨rfl, hs⟩).2.2

end Failover.Action
