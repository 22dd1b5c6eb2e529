import Failover.Proofs.Node.Calls

/-!
# The turns that a node takes

Between the beginning and the end of a call a node may change its state more than once: one that
starts as master takes over, and may lose the election of its first round. Its `turns` are all the
states that it takes on in a call, each with what is around the node at that moment. They are listed
function by function, as the state is set there. The last of them is the state in which the call
leaves the node, which is part of `Node.Call.orderly`.

## Key results

- `Node.Call.turns`, `Node.Call.entries`: the turns of a call, and where a run of calls enters
  mastership
- `Node.state_settle_eq`: the state of a node after an election
- `Node.lastState_append`, `Node.entered_append`: turns are taken part by part
-/

namespace Failover

/-- A state that a node takes on, and what is around it then. -/
abbrev Turn (ω : Type) := NodeState × ω

namespace Node

variable {ω : Type}

/-! ## Lists of turns -/

/-- The state after some turns, from the state `s`. -/
def lastState (s : NodeState) (ts : List (Turn ω)) : NodeState :=
  ts.foldl (fun _ t => t.1) s

/-- What is around a node each time that a turn makes it master and it was not before. -/
def entered (s : NodeState) : List (Turn ω) → List ω
  | [] => []
  | (s', w) :: ts =>
    if s' = .master ∧ s ≠ .master then w :: entered s' ts else entered s' ts

theorem lastState_append (s : NodeState) (ts us : List (Turn ω)) :
    lastState s (ts ++ us) = lastState (lastState s ts) us := List.foldl_append

/-- What is `entered` in two lists of turns. -/
theorem entered_append (s : NodeState) (ts us : List (Turn ω)) :
    entered s (ts ++ us) = entered s ts ++ entered (lastState s ts) us := by
  induction ts generalizing s with
  | nil => rfl
  | cons t ts ih =>
    have hrest := ih t.1
    by_cases ht : t.1 = .master ∧ s ≠ .master
    · simp only [List.cons_append, entered, if_pos ht, hrest, lastState, List.foldl_cons]
    · simp only [List.cons_append, entered, if_neg ht, hrest, lastState, List.foldl_cons]

/-- A turn to another state than that of the master has `entered` nothing. -/
theorem entered_singleton_of_ne {s s' : NodeState} (h : s' ≠ .master) (w : ω) :
    entered s [(s', w)] = [] := by
  simp [entered, h]

/-! ## Turns of a call -/

section Turns

variable (env : Surroundings ω) (n : Node) (w : ω)

/-- The turns of `stayStandby`. -/
def stayStandbyTurns : List (Turn ω) := if n.state = .initializing then [(.standby, w)] else []

/-- The turns of `promote`. -/
def promoteTurns : List (Turn ω) :=
  match env.takeOver w with
  | (.ok (), w) => [(.master, w)]
  | (.error e, w) => if e.isFinal then [(.failed, w)] else n.stayStandbyTurns w

/-- The turn of `demote`, a master that steps down. -/
def demoteTurns : List (Turn ω) := [(.standby, env.stopPersisting w)]

/-- The turns of `checkSync`, on a node that could not sync. -/
def checkSyncTurns (now : Timestamp) : List (Turn ω) :=
  if n.state = .master && n.hasLostSync now then [(.standby, env.stopPersisting w)] else []

/-- The turns of `settle`, by the outcome of the election. -/
def settleTurns (isElected : Bool) : List (Turn ω) :=
  match n.state with
  | .master => if isElected then [] else demoteTurns env w
  | .failed | .terminated => []
  | .initializing | .standby => if isElected then n.promoteTurns env w else n.stayStandbyTurns w

/-- The turns of one `round`. -/
def roundTurns : List (Turn ω) :=
  let now := env.now w
  let own := n.record now
  let (published, w) := (env.publish own).run w
  let (loaded, w) := env.loadPlane.run w
  match published, loaded with
  | .ok (), .ok plane =>
    let plane := plane.apply (.node own)
    let isElected : Bool := (plane.elect now n.timeout).master = some n.id
    { n with lastSync := some now }.settleTurns env w isElected
  | _, _ => n.checkSyncTurns env w now

/-- The turns of `startDisabled`. -/
def startDisabledTurns (env : Surroundings ω) (w : ω) : List (Turn ω) :=
  match env.takeOver w with
  | (.ok (), w) => [(.master, w)]
  | (.error e, w) => if e.isFinal then [(.failed, w)] else []

/-- The turns of `accept`: only a node that is to take over at once has any. -/
def acceptTurns (mode : StartMode) : List (Turn ω) :=
  if n.mode.isNone ∧ mode = .master then
    match env.loadPlane.run w with
    | (.error _, _) => []
    | (.ok plane, w) =>
      match n.otherMaster? plane (env.now w) with
      | some _ => []
      | none => n.promoteTurns env w
  else []

/-- The turns of `stop`. -/
def stopTurns : List (Turn ω) :=
  if n.mode.isNone || n.state = .terminated then [] else [(.terminated, env.stopPersisting w)]

variable {env n w}

/-- A node takes no turns in `accept` if it is not a new one that finds no other master and is to
take over. -/
theorem acceptTurns_eq_nil {mode : StartMode}
    (h : n.mode = none → mode = .master → ∀ plane w₁, env.loadPlane.run w = (.ok plane, w₁) →
      n.otherMaster? plane (env.now w₁) ≠ none) : n.acceptTurns env w mode = [] := by
  rw [acceptTurns]
  split
  · next hmaster =>
    -- The plane cannot be loaded, or there is another master on it.
    cases hrun : env.loadPlane.run w with
    | mk loaded w₁ =>
      cases loaded with
      | error e => rfl
      | ok plane =>
        have hother : n.otherMaster? plane (env.now w₁) ≠ none :=
          h (Option.isNone_iff_eq_none.1 hmaster.1) hmaster.2 plane w₁ hrun
        dsimp only
        split
        · rfl
        · next hnone => exact absurd hnone hother
  · rfl

/-- The turns in `accept` of a new node that finds no other master and is to take over are its
`promoteTurns`. -/
theorem acceptTurns_eq_promoteTurns (hn : n.mode = none) {plane : Plane} {w₁ : ω}
    (hrun : env.loadPlane.run w = (.ok plane, w₁))
    (hother : n.otherMaster? plane (env.now w₁) = none) :
    n.acceptTurns env w .master = n.promoteTurns env w₁ := by
  rw [acceptTurns, if_pos ⟨Option.isNone_iff_eq_none.2 hn, rfl⟩, hrun]
  dsimp only
  rw [hother]

end Turns

namespace Call

variable (env : Surroundings ω)

/-- The turns that a call takes besides those of its `round?`. -/
def turnsApart (n : Node) (w : ω) : Call ω → List (Turn ω)
  | .start mode =>
    n.acceptTurns env w mode ++
      match n.accept env mode w with
      | (.error _, _) => []
      | (.ok (), _, w) => if mode = .disabled then startDisabledTurns env w else []
  | .stop => n.stopTurns env w
  | .poll | .meanwhile _ => []

/-- The turns of a call: those apart from its round, and then `roundTurns`. -/
def turns (n : Node) (w : ω) (c : Call ω) : List (Turn ω) :=
  c.turnsApart env n w ++ (c.round? env n w).elim [] fun r => r.1.roundTurns env r.2

/-- What is around a node each time that it has `entered` mastership in a run of calls, with what
was around it at the beginning of that call. -/
def entries (n : Node) (w : ω) : List (Call ω) → List (ω × ω)
  | [] => []
  | c :: cs =>
    (entered n.state (c.turns env n w)).map (w, ·) ++
      entries (c.act env n w).1 (c.act env n w).2 cs

end Call

end Node

/-! ## The state after an election -/

variable {ω : Type} {env : Surroundings ω} {n : Node} {now : Timestamp} {w : ω}

/-- What becomes of a node that is elected. It is master if its objects are rebuilt and their
changes are written back from then on; it has failed if there is no use in trying that again. -/
def Surroundings.promoted (env : Surroundings ω) (w : ω) : NodeState :=
  match env.rebinder with
  | none => .master
  | some rebinder =>
    match (rebinder.rebind false).run w with
    | (.error e, _) => if e.isTransient then .standby else .failed
    | (.ok (), w) =>
      match (rebinder.startPersisting.run w).1 with
      | .error _ => .standby
      | .ok () => .master

/-- What a node is `promoted` to, told by the result of `takeOver`. -/
theorem Surroundings.promoted_eq (env : Surroundings ω) (w : ω) :
    env.promoted w = match (env.takeOver w).1 with
      | .ok () => .master
      | .error e => if e.isFinal then .failed else .standby := by
  rw [promoted, takeOver]
  cases env.rebinder with
  | none => rfl
  | some rebinder =>
    dsimp only
    cases (rebinder.rebind false).run w with
    | mk r w₁ =>
      cases r with
      -- A failed rebuild is final exactly if it is no passing one; a failed start of writing never
      -- is.
      | error e => cases he : e.isTransient <;> simp [NodeError.isFinal, he]
      | ok =>
        dsimp only
        cases rebinder.startPersisting.run w₁ with
        | mk r w₂ => cases r <;> rfl

namespace Node

private theorem state_stayStandby_eq (hs : n.state = .initializing ∨ n.state = .standby) :
    (n.stayStandby env now w).1.state = .standby := by
  rw [stayStandby]
  split
  · rfl
  · next hne => exact hs.resolve_left hne

private theorem state_promote_eq (hs : n.state = .initializing ∨ n.state = .standby) :
    (n.promote env now w).2.1.state = env.promoted w := by
  rw [promote, Surroundings.promoted_eq]
  cases env.takeOver w with
  | mk r w₁ =>
    cases r with
    | ok => rfl
    | error e =>
      dsimp only
      split
      · rfl
      · exact state_stayStandby_eq hs

/-- The state that `settle` leaves. -/
theorem state_settle_eq (n : Node) (now : Timestamp) (isElected : Bool) (w : ω) :
    (n.settle env now isElected w).1.state = match n.state with
      | .master => if isElected then .master else .standby
      | .initializing | .standby => if isElected then env.promoted w else .standby
      | .failed => .failed
      | .terminated => .terminated := by
  rw [settle]
  cases hs : n.state <;> dsimp only
  case master =>
    cases isElected
    · rfl
    · exact hs
  case failed | terminated => exact hs
  case initializing | standby =>
    -- Both states of a node that waits have one ending for each outcome.
    have hwaits : n.state = .initializing ∨ n.state = .standby := by simp [hs]
    cases isElected
    · exact state_stayStandby_eq hwaits
    · exact state_promote_eq hwaits

end Node

end Failover
