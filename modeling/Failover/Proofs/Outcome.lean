/-!
# Outcomes step by step

What is returned in several steps that may fail was returned by each of them.
-/

namespace Failover

variable {ε α β : Type}

/-- If `x >>= f` returns a result, so did `x`, and so did `f` on it. -/
theorem exists_of_bind_eq_ok {x : Except ε α} {f : α → Except ε β} {b : β}
    (h : (x >>= f) = .ok b) : ∃ a, x = .ok a ∧ f a = .ok b := by
  cases x with
  | error e => cases h
  | ok a => exact ⟨a, rfl, h⟩

/-- If `x.map f` returns a result, it is the image under `f` of one that `x` returned. -/
theorem exists_of_map_eq_ok {x : Except ε α} {f : α → β} {b : β} (h : x.map f = .ok b) :
    ∃ a, x = .ok a ∧ f a = b := by
  cases x with
  | error e => cases h
  | ok a => exact ⟨a, rfl, Except.ok.inj h⟩

/-- What `if c then x else throw e` returns was returned by `x`, and `c` holds. -/
theorem of_ite_eq_ok {c : Prop} [Decidable c] {x : Except ε α} {e : ε} {a : α}
    (h : (if c then x else throw e) = .ok a) : c ∧ x = .ok a := by
  split at h
  · next hc => exact ⟨hc, h⟩
  · cases h

end Failover
