import Failover.Node.Mastership

/-!
# The calls of a node

A node is asked to start, to poll and to stop, call after call, and in between things happen that it
has no part in (`Node.Call`). A call comes to one `Node.round` at most: a poll is one, and a start
ends with one if `Node.accept` lets the node in (`Node.Call.round?`).

## Key results

- `Node.accept_cases`: what `Node.accept` can come to
- `Node.start_cases`: a start is one of its three endings
- `Node.poll_cases`: a poll is a round, or leaves everything as it was
- `Node.Call.act_of_round?`: what a call with a round does is what its round does
-/

namespace Failover.Node

variable {ω : Type}

/-- What a node is asked to do; or something happens that it has no part in. -/
inductive Call (ω : Type) where
  | start (mode : StartMode)
  | poll
  | stop
  | meanwhile (f : ω → ω)

namespace Call

variable (env : Surroundings ω)

/-- What a call does, over the surroundings `env`: it calls `start`, `poll` or `stop` of the node.
-/
def act (n : Node) (w : ω) : Call ω → Node × ω
  | .start mode => (n.start env mode w).2
  | .poll => (n.poll env w).2
  | .stop => n.stop env w
  | .meanwhile f => (n, f w)

/-- What a run of calls does, one `act` after the other. -/
def run (n : Node) (w : ω) (cs : List (Call ω)) : Node × ω :=
  cs.foldl (fun s c => c.act env s.1 s.2) (n, w)

/-- The `round` that a call comes to, if it does: the node that begins it, and what is around the
node then. A poll is one if it is answered and the node takes part in elections, and a start ends
with one if `accept` lets the node in. -/
def round? (n : Node) (w : ω) : Call ω → Option (Node × ω)
  | .start mode =>
    match n.accept env mode w with
    | (.error _, _) => none
    | (.ok (), n, w) => if mode = .disabled then none else some (n, w)
  | .poll => if (n.poll env w).1.isOk ∧ n.mode ≠ some .disabled then some (n, w) else none
  | .stop | .meanwhile _ => none

end Call

/-! ## Being let in -/

/-- What `accept` can come to, on a node `n` that is to start in some mode: its result, with the
node and what is around it afterwards. -/
inductive Admission (env : Surroundings ω) (n : Node) (w : ω) :
    StartMode → Except NodeError Unit × Node × ω → Prop where
  /-- The node has started before. -/
  | started {mode : StartMode} (h : n.mode ≠ none) :
    Admission env n w mode (.error .alreadyStarted, n, w)
  /-- The node is let in without a look at the others. -/
  | atOnce {mode : StartMode} (hn : n.mode = none) (hmode : mode = .disabled ∨ mode = .auto) :
    Admission env n w mode (.ok (), { n with mode := some mode }, w)
  /-- The plane cannot be read, or is not as the mode wants it. -/
  | refused {mode : StartMode} (hn : n.mode = none) (hmode : mode ≠ .disabled ∧ mode ≠ .auto)
    (hother : mode = .master → ∀ plane w₁, env.loadPlane.run w = (.ok plane, w₁) →
      n.otherMaster? plane (env.now w₁) ≠ none)
    {e : NodeError} (he : e ≠ .alreadyStarted) :
    Admission env n w mode (.error e, n, (env.loadPlane.run w).2)
  /-- There is a master to wait for. -/
  | waits {mode : StartMode} (hn : n.mode = none) (hmode : mode = .standby ∨ mode = .hotStandby)
    {plane : Plane} {w₁ : ω} (hload : env.loadPlane.run w = (.ok plane, w₁))
    (hother : n.otherMaster? plane (env.now w₁) ≠ none) :
    Admission env n w mode (.ok (), { n with mode := some mode }, w₁)
  /-- There is no other master, and the promotion fails. -/
  | fails (hn : n.mode = none) {plane : Plane} {w₁ : ω}
    (hload : env.loadPlane.run w = (.ok plane, w₁))
    (hother : n.otherMaster? plane (env.now w₁) = none) {e : NodeError} {n' : Node} {w' : ω}
    (hpromote : { n with mode := some .master }.promote env (env.now w₁) w₁ = (.error e, n', w')) :
    Admission env n w .master (.error e, n', w')
  /-- There is no other master, and the promotion succeeds. -/
  | leads (hn : n.mode = none) {plane : Plane} {w₁ : ω}
    (hload : env.loadPlane.run w = (.ok plane, w₁))
    (hother : n.otherMaster? plane (env.now w₁) = none) {n' : Node} {w' : ω}
    (hpromote : { n with mode := some .master }.promote env (env.now w₁) w₁ = (.ok (), n', w')) :
    Admission env n w .master (.ok (), n'.observe (env.now w₁) (some plane), w')

variable {env : Surroundings ω} {n : Node} {w : ω}

/-- The cases of `Admission` for a start as master: the plane cannot be read, another master is
found there, or the node is promoted, which may fail. -/
private theorem acceptMaster_cases (hn : n.mode = none) :
    Admission env n w .master (n.acceptMaster env w) := by
  have hrefused {e : NodeError} (he : e ≠ .alreadyStarted)
      (hother : ∀ plane w₁, env.loadPlane.run w = (.ok plane, w₁) →
        n.otherMaster? plane (env.now w₁) ≠ none) :
      Admission env n w .master (.error e, n, (env.loadPlane.run w).2) :=
    .refused hn (by decide) (fun _ => hother) he
  rw [acceptMaster]
  -- The plane, the master that is found there and the promotion are settled one after the other.
  cases hload : env.loadPlane.run w with
  | mk loaded w₁ =>
    rw [hload] at hrefused
    cases loaded with
    | error e => exact hrefused (by simp) nofun
    | ok plane =>
      dsimp only
      cases hother : n.otherMaster? plane (env.now w₁) with
      | some id =>
        refine hrefused (by simp) fun plane' w' heq => ?_
        cases heq
        simp [hother]
      | none =>
        dsimp only
        cases hpromote : { n with mode := some .master }.promote env (env.now w₁) w₁ with
        | mk r s =>
          obtain ⟨n', w'⟩ := s
          cases r with
          | error e => exact .fails hn hload hother hpromote
          | ok => exact .leads hn hload hother hpromote

/-- The cases of `Admission` for a standby of either sort: the plane cannot be read, no master is
found there, or one is. -/
private theorem acceptStandby_cases (hn : n.mode = none) {mode : StartMode}
    (hmode : mode = .standby ∨ mode = .hotStandby) :
    Admission env n w mode (n.acceptStandby env mode w) := by
  have hrefused {e : NodeError} (he : e ≠ .alreadyStarted) :
      Admission env n w mode (.error e, n, (env.loadPlane.run w).2) := by
    rcases hmode with rfl | rfl <;> exact .refused hn (by decide) nofun he
  rw [acceptStandby]
  -- Only the plane and the master that is found there are looked at.
  cases hload : env.loadPlane.run w with
  | mk loaded w₁ =>
    rw [hload] at hrefused
    cases loaded with
    | error e => exact hrefused (by simp)
    | ok plane =>
      dsimp only
      cases hother : n.otherMaster? plane (env.now w₁) with
      | none => exact hrefused (by simp)
      | some id => exact .waits hn hmode hload (by simp [hother])

/-- `accept` comes to one of the cases of `Admission`. -/
theorem accept_cases (env : Surroundings ω) (n : Node) (mode : StartMode) (w : ω) :
    Admission env n w mode (n.accept env mode w) := by
  rw [accept.eq_def]
  split
  · next h => exact .started (Option.isSome_iff_ne_none.1 h)
  · next h =>
    have hn : n.mode = none := by simpa using h
    -- Two modes look at nothing, and the others at the plane first.
    cases mode with
    | disabled => exact .atOnce hn (.inl rfl)
    | auto => exact .atOnce hn (.inr rfl)
    | master => exact acceptMaster_cases hn
    | standby => exact acceptStandby_cases hn (.inl rfl)
    | hotStandby => exact acceptStandby_cases hn (.inr rfl)

/-- `accept` refuses a node that has started before. -/
theorem accept_of_mode_ne_none (h : n.mode ≠ none) (mode : StartMode) :
    n.accept env mode w = (.error .alreadyStarted, n, w) := by
  rw [accept.eq_def, if_pos (Option.isSome_iff_ne_none.2 h)]

/-! ## Calls with a round -/

/-- A `start` fails as `accept` does, or makes the node master without an election, or ends with the
`join` of the node that `accept` lets in. -/
theorem start_cases (env : Surroundings ω) (n : Node) (mode : StartMode) (w : ω) :
    (∃ e m v, n.accept env mode w = (.error e, m, v) ∧
        Call.round? env n w (.start mode) = none ∧ n.start env mode w = (.error e, m, v)) ∨
      (mode = .disabled ∧ n.accept env mode w = (.ok (), { n with mode := some .disabled }, w) ∧
        Call.round? env n w (.start mode) = none ∧
        n.start env mode w = { n with mode := some .disabled }.startDisabled env w) ∨
      ∃ m v, mode ≠ .disabled ∧ n.accept env mode w = (.ok (), m, v) ∧
        Call.round? env n w (.start mode) = some (m, v) ∧
        n.start env mode w = m.join env v := by
  have hcases := accept_cases env n mode w
  cases haccept : n.accept env mode w with
  | mk r x =>
    obtain ⟨m, v⟩ := x
    cases r with
    | error e => exact .inl ⟨e, m, v, rfl, by simp [Call.round?, haccept], by simp [start, haccept]⟩
    | ok =>
      -- Once let in, a node joins the election unless it starts outside of it.
      by_cases hmode : mode = .disabled
      · subst hmode
        rw [haccept] at hcases
        cases hcases with
        | atOnce =>
          exact .inr (.inl ⟨rfl, rfl, by simp [Call.round?, haccept], by simp [start, haccept]⟩)
        | waits _ hmode => simp at hmode
      · exact .inr (.inr ⟨m, v, hmode, rfl, by simp [Call.round?, haccept, hmode],
          by simp [start, haccept, hmode]⟩)

/-- A `poll` is a `round` of a node that has started and takes part in elections, or it does
nothing. -/
theorem poll_cases (env : Surroundings ω) (n : Node) (w : ω) :
    (Call.round? env n w .poll = none ∧ (n.poll env w).2 = (n, w)) ∨
      Call.round? env n w .poll = some (n, w) ∧ n.mode ≠ none ∧
        n.poll env w = (.ok (n.round env w).1.state, n.round env w) := by
  cases hmode : n.mode with
  | none => exact .inl (by simp [Call.round?, poll, hmode, Except.isOk, Except.toBool])
  | some mode =>
    -- A poll is refused on a node that has left, and is a formality on one outside the election.
    by_cases hs : n.state = .terminated
    · exact .inl (by simp [Call.round?, poll, hmode, hs, Except.isOk, Except.toBool])
    · by_cases hm : mode = .disabled
      · exact .inl (by simp [Call.round?, poll, hmode, hs, hm])
      · exact .inr (by simp [Call.round?, poll, hmode, hs, hm, Except.isOk, Except.toBool])

/-- A `poll` leaves everything as it was, or is a `round` of a node that has started. -/
theorem poll_eq (n : Node) (w : ω) : (n.poll env w).2 = (n, w) ∨
    n.mode ≠ none ∧ (n.poll env w).2 = n.round env w :=
  (poll_cases env n w).imp And.right fun ⟨_, hmode, heq⟩ => ⟨hmode, congrArg Prod.snd heq⟩

/-- A `poll` of a node that has joined by election and has not left is a `round`. -/
theorem poll_eq_round {mode : StartMode} (hmode : n.mode = some mode) (hne : mode ≠ .disabled)
    (hs : n.state ≠ .terminated) :
    n.poll env w = (.ok (n.round env w).1.state, n.round env w) := by
  simp [poll, hmode, hne, hs]

/-- What a call with a `round?` does is what `round` does, but that a node that starts polls from
then on. -/
theorem Call.act_of_round? {c : Call ω} {m : Node} {v : ω}
    (h : c.round? env n w = some (m, v)) :
    (c.act env n w).2 = (m.round env v).2 ∧
      ∃ isPolling, (c.act env n w).1 = { (m.round env v).1 with isPolling } := by
  cases c with
  | start mode =>
    show (n.start env mode w).2.2 = _ ∧ ∃ isPolling, (n.start env mode w).2.1 = _
    rcases start_cases env n mode w with ⟨_, _, _, -, hnone, -⟩ | ⟨-, -, hnone, -⟩ |
      ⟨m', v', -, -, hsome, heq⟩
    · cases hnone.symm.trans h
    · cases hnone.symm.trans h
    · obtain ⟨rfl, rfl⟩ : m' = m ∧ v' = v := by simpa using hsome.symm.trans h
      rw [heq]
      exact ⟨rfl, _, rfl⟩
  | poll =>
    obtain ⟨hnone, -⟩ | ⟨hsome, -, heq⟩ := poll_cases env n w
    · cases hnone.symm.trans h
    · obtain ⟨rfl, rfl⟩ : n = m ∧ w = v := by simpa using hsome.symm.trans h
      rw [act, heq]
      exact ⟨rfl, _, rfl⟩
  | stop | meanwhile f => cases h

end Failover.Node
