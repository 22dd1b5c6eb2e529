import Failover.Node.Cluster
import Failover.Proofs.Node.Consistent
import Failover.Store.Memory

/-!
# Starting again

A start that fails leaves the node as it was, so that it may be started again, as long as the node
had not come to take over its objects. From then on it counts as started: a start that fails there
is not followed by polls, and no other start is let through.

## Key results

- `Node.isUnstarted_iff`: a node is unstarted exactly if it has no mode
- `Node.isUnstarted_iff_of_start`: after which failures a node is unstarted
-/

namespace Failover

variable {ω : Type} {env : Surroundings ω} {n n' : Node} {mode : StartMode} {w w' : ω}
  {e : NodeError}

/-- `takeOver` never fails because of an earlier start. -/
private theorem ne_of_takeOver (h : (env.takeOver w).1 = .error e) : e ≠ .alreadyStarted := by
  rintro rfl
  revert h
  rw [Surroundings.takeOver]
  cases env.rebinder with
  | none => simp
  | some rebinder =>
    dsimp only
    -- It fails for the rebuild or for the store, and for nothing else.
    cases (rebinder.rebind false).run w with
    | mk r w₁ =>
      cases r with
      | error e => simp
      | ok =>
        dsimp only
        cases rebinder.startPersisting.run w₁ with
        | mk r w₂ => cases r <;> simp

namespace Node

/-- A `promote` that fails does so because the objects could not be taken over. -/
theorem promote_eq_error {now : Timestamp} (h : n.promote env now w = (.error e, n', w')) :
    (env.takeOver w).1 = .error e ∧ n.Continues n' := by
  have hcontinues : n.Continues (n.promote env now w).2.1 := promote_continues now
  rw [h] at hcontinues
  refine ⟨?_, hcontinues⟩
  rw [promote] at h
  cases htake : env.takeOver w with
  | mk r w₁ =>
    rw [htake] at h
    cases r with
    | ok => cases h
    | error e' =>
      dsimp only at h
      -- Final or not, the failure is that of taking over.
      split at h
      · exact congrArg Prod.fst h
      · exact congrArg Prod.fst h

/-! ## Starts that fail -/

/-- A start in this mode comes to take over the objects: without an election it does so at once, and
as master if `otherMaster?` finds none. -/
def TakesOver (env : Surroundings ω) (n : Node) (mode : StartMode) (w : ω) : Prop :=
  match mode with
  | .disabled => True
  | .master => ∃ plane w₁,
      env.loadPlane.run w = (.ok plane, w₁) ∧ n.otherMaster? plane (env.now w₁) = none
  | .auto | .standby | .hotStandby => False

/-- A `startDisabled` that fails does so because the objects could not be taken over. -/
private theorem startDisabled_eq_error (h : n.startDisabled env w = (.error e, n', w')) :
    (env.takeOver w).1 = .error e ∧ n'.mode = n.mode := by
  rw [startDisabled] at h
  cases htake : env.takeOver w with
  | mk r w₁ =>
    rw [htake] at h
    cases r with
    | ok => cases h
    | error e =>
      dsimp only at h
      split at h <;> cases h <;> exact ⟨rfl, rfl⟩

/-- A start that is refused with its mode never `TakesOver` the objects. -/
private theorem not_takesOver (hmode : mode ≠ .disabled ∧ mode ≠ .auto)
    (hother : mode = .master → ∀ plane w₁, env.loadPlane.run w = (.ok plane, w₁) →
      n.otherMaster? plane (env.now w₁) ≠ none) : ¬ n.TakesOver env mode w := by
  cases mode with
  | disabled => exact absurd rfl hmode.1
  | master => exact fun ⟨plane, w₁, hload, hnone⟩ => hother rfl plane w₁ hload hnone
  | auto | standby | hotStandby => exact not_false

/-- What a `start` comes to that fails, on a node that has not started: the node is what it was, or
the start `TakesOver` the objects and the node keeps its mode. -/
theorem start_eq_error (hn : n.mode = none) (h : n.start env mode w = (.error e, n', w')) :
    e ≠ .alreadyStarted ∧
      ((¬ n.TakesOver env mode w ∧ n' = n) ∨ n.TakesOver env mode w ∧ n'.mode = some mode) := by
  have hcases := accept_cases env n mode w
  -- A start fails where `accept` does or where it is outside the election; a join never fails.
  rcases start_cases env n mode w with ⟨e', m, v, hx, -, heq⟩ | ⟨rfl, -, -, heq⟩ |
    ⟨m, v, -, -, -, heq⟩
  · cases heq.symm.trans h
    rw [hx] at hcases
    cases hcases with
    | started hsome => exact absurd hn hsome
    | refused _ hmode hother he => exact ⟨he, .inl ⟨not_takesOver hmode hother, rfl⟩⟩
    | fails _ hload hother hpromote =>
      obtain ⟨htake, hcontinues⟩ := promote_eq_error hpromote
      exact ⟨ne_of_takeOver htake, .inr ⟨⟨_, _, hload, hother⟩, hcontinues.mode_eq⟩⟩
  · obtain ⟨htake, hmode⟩ := startDisabled_eq_error (heq.symm.trans h)
    exact ⟨ne_of_takeOver htake, .inr ⟨trivial, hmode⟩⟩
  · cases heq.symm.trans h

/-! ## Nodes that have not started -/

/-- A node is unstarted if a `poll` says so and no `start` is refused because of an earlier one. -/
def IsUnstarted (env : Surroundings ω) (n : Node) : Prop :=
  (∀ w, n.poll env w = (.error .notStarted, n, w)) ∧
    ∀ mode w, (n.start env mode w).1 ≠ .error .alreadyStarted

/-- A node that has started lets no other `start` through. -/
theorem start_eq_alreadyStarted (hn : n.mode ≠ none) (mode : StartMode) (w : ω) :
    n.start env mode w = (.error .alreadyStarted, n, w) := by
  rw [start, accept_of_mode_ne_none hn]

/-- A node `IsUnstarted` exactly if it has no mode. -/
theorem isUnstarted_iff [Nonempty ω] : n.IsUnstarted env ↔ n.mode = none := by
  constructor
  · rintro ⟨-, hstart⟩
    obtain ⟨w⟩ := ‹Nonempty ω›
    cases hn : n.mode with
    | none => rfl
    | some mode =>
      -- One start is enough to tell that the node has started.
      have hrefused : n.start env .auto w = (.error .alreadyStarted, n, w) :=
        start_eq_alreadyStarted (by simp [hn]) .auto w
      exact absurd (congrArg Prod.fst hrefused) (hstart .auto w)
  · intro hn
    refine ⟨fun w => by rw [poll, hn], fun mode w hrefused => ?_⟩
    obtain ⟨⟨n', w'⟩, h⟩ : ∃ s, n.start env mode w = (.error .alreadyStarted, s) :=
      ⟨_, Prod.ext hrefused rfl⟩
    exact (start_eq_error hn h).1 rfl

/-- After a start that fails, a node that had not started `IsUnstarted`, and is what it was, exactly
if the start never `TakesOver` the objects. If it did, every later start is refused. -/
theorem isUnstarted_iff_of_start (hn : n.mode = none)
    (h : n.start env mode w = (.error e, n', w')) :
    (n'.IsUnstarted env ↔ ¬ n.TakesOver env mode w) ∧
      (n'.IsUnstarted env → n' = n) ∧
      (n.TakesOver env mode w →
        ∀ mode' v, n'.start env mode' v = (.error .alreadyStarted, n', v)) := by
  have : Nonempty ω := ⟨w⟩
  -- The mode that the start has left is what all later calls ask for.
  obtain ⟨hnot, rfl⟩ | ⟨htakes, hmode⟩ := (start_eq_error hn h).2
  · rw [isUnstarted_iff]
    exact ⟨iff_of_true hn hnot, fun _ => rfl, fun htakes => absurd htakes hnot⟩
  · have hsome : n'.mode ≠ none := by simp [hmode]
    rw [isUnstarted_iff]
    exact ⟨iff_of_false hsome (not_not_intro htakes), fun hnone => absurd hnone hsome,
      fun _ => start_eq_alreadyStarted hsome⟩

/-- A member whose objects cannot be reached once. -/
def unreachable : Site Memory where
  workspace := { store := .prepared }
  clock := ⟨0⟩
  plan := { unreachable := 1 }

/-- The start of an `unreachable` member without an election fails in a way that may pass, and yet
the member cannot be started again. -/
theorem isUnstarted_iff_of_start_unreachable :
    let env := Site.surroundings (Workspace.faulty Memory.store) (Workspace.faulty Memory.store)
      .pretended
    ∃ n' s', ({ id := "a" } : Node).start env .disabled unreachable =
        (.error (.rebind (.persistence (.timeout ⟨0⟩))), n', s') ∧
      ¬ n'.IsUnstarted env ∧
      ∀ mode s, n'.start env mode s = (.error .alreadyStarted, n', s) := by
  intro env
  obtain ⟨n', s', h⟩ : ∃ n' s', ({ id := "a" } : Node).start env .disabled unreachable =
      (.error (.rebind (.persistence (.timeout ⟨0⟩))), n', s') := ⟨_, _, rfl⟩
  obtain ⟨hiff, -, hrefused⟩ := isUnstarted_iff_of_start rfl h
  exact ⟨n', s', h, fun hn' => hiff.1 hn' trivial, hrefused trivial⟩

end Node

end Failover
