import Failover.Proofs.Node.Turns
import Failover.Proofs.Store.Action

/-!
# What a node leaves as it was

All that a node does to its surroundings is made of a few things: it hands over records of its own
id, loads the plane, takes over objects, stops writing them back, refreshes its warm copy, and
announces a promotion right after it has handed over its record as the new master. What none of
these spoils is there after any run of calls.

A node that starts without an election hands over no record and is left out here.

## Key results

- `Surroundings.takeOver_keeps`, `Surroundings.stopPersisting_keeps`, `Surroundings.refresh_keeps`:
  what a rebinder keeps is kept by all that is done with it
- `Surroundings.Keeps.act`, `Surroundings.Keeps.run`: a call, and a run of calls, keeps what nothing
  spoils that a node does
-/

namespace Failover

variable {ω : Type}

/-! ## Rebinders -/

/-- Nothing that a rebinder does spoils what holds of its surroundings by `P`. -/
structure Rebinder.Keeps (rebinder : Rebinder ω) (P : ω → Prop) : Prop where
  rebind : ∀ readOnly, Action.Keeps P (rebinder.rebind readOnly)
  startPersisting : Action.Keeps P rebinder.startPersisting
  stopPersisting : ∀ w, P w → P (rebinder.stopPersisting w)

namespace Surroundings

variable {env : Surroundings ω} {P : ω → Prop}
  (h : ∀ rebinder, env.rebinder = some rebinder → rebinder.Keeps P) {w : ω}
include h

/-- What every rebinder of the surroundings keeps is kept by `takeOver`. -/
theorem takeOver_keeps (hw : P w) : P (env.takeOver w).2 := by
  rw [takeOver]
  cases hr : env.rebinder with
  | none => exact hw
  | some rebinder =>
    have hrebound := (h rebinder hr).rebind false w hw
    dsimp only
    -- The rebinder works twice at most: it rebuilds, and if it could it starts writing back.
    cases hrun : (rebinder.rebind false).run w with
    | mk r w₁ =>
      rw [hrun] at hrebound
      cases r with
      | error e => exact hrebound
      | ok =>
        have hstarted := (h rebinder hr).startPersisting w₁ hrebound
        dsimp only
        cases hrun : rebinder.startPersisting.run w₁ with
        | mk r w₂ =>
          rw [hrun] at hstarted
          cases r <;> exact hstarted

/-- What every rebinder of the surroundings keeps is kept by `stopPersisting`. -/
theorem stopPersisting_keeps (hw : P w) : P (env.stopPersisting w) := by
  rw [stopPersisting]
  split
  · exact hw
  · next rebinder hr => exact (h rebinder hr).stopPersisting w hw

/-- What every rebinder of the surroundings keeps is kept by `refresh`. -/
theorem refresh_keeps (hw : P w) : P (env.refresh w) := by
  rw [refresh]
  split
  · exact hw
  · next rebinder hr => exact (h rebinder hr).rebind true w hw

end Surroundings

/-! ## Nodes -/

/-- Nothing that a node of this id does spoils what holds of its surroundings by `P`. -/
structure Surroundings.Keeps (env : Surroundings ω) (id : String) (P : ω → Prop) : Prop where
  publish : ∀ r, r.nodeId = id → Action.Keeps P (env.publish r)
  loadPlane : Action.Keeps P env.loadPlane
  takeOver : ∀ w, P w → P (env.takeOver w).2
  stopPersisting : ∀ w, P w → P (env.stopPersisting w)
  refresh : ∀ w, P w → P (env.refresh w)
  /-- A promotion is announced right after the record of the new master was handed over. -/
  announce : ∀ r, r.nodeId = id → r.state = .master → r.masterSince = some r.timestamp →
    ∀ w, P w → P (env.announce (env.tell r w))

namespace Node

/-- A call in which a node starts with an election, polls or stops, or in which what happens
elsewhere leaves `P` as it was. -/
def Call.Spares (P : ω → Prop) : Call ω → Prop
  | .start mode => mode ≠ .disabled
  | .poll | .stop => True
  | .meanwhile f => ∀ w, P w → P (f w)

/-- What a node leaves: it is the same node, and `P` still holds. -/
def Left (P : ω → Prop) (n : Node) (r : Node × ω) : Prop := r.1.id = n.id ∧ P r.2

end Node

namespace Surroundings.Keeps

open Node (Left Call)

variable {env : Surroundings ω} {P : ω → Prop} {n : Node} {w : ω}

/-! ## Changes of state

Each of them is made of what `Surroundings.Keeps` lists, and so keeps `P`. -/

/-- What the surroundings keep is kept when the node hands over a record of its own by `tell`. -/
theorem tell (h : env.Keeps n.id P) {r : NodeRecord} (hr : r.nodeId = n.id) (hw : P w) :
    P (env.tell r w) := h.publish r hr w hw

private theorem stayStandby (h : env.Keeps n.id P) (hw : P w) (now : Timestamp) :
    Left P n (n.stayStandby env now w) := by
  rw [Node.stayStandby]
  split
  · exact ⟨rfl, h.tell rfl hw⟩
  · exact ⟨rfl, hw⟩

/-- `promote` keeps what `Surroundings.Keeps` says is kept: it announces only after it has handed
over the new master's record. -/
theorem promote (h : env.Keeps n.id P) (hw : P w) (now : Timestamp) :
    Left P n (n.promote env now w).2 := by
  have htake := h.takeOver w hw
  rw [Node.promote]
  -- An announcement follows on a record of the new master only.
  cases hrun : env.takeOver w with
  | mk r w₁ =>
    rw [hrun] at htake
    cases r with
    | ok => exact ⟨rfl, h.announce _ rfl rfl rfl w₁ htake⟩
    | error e =>
      dsimp only
      split
      · exact ⟨rfl, h.tell rfl htake⟩
      · exact h.stayStandby htake now

private theorem demote (h : env.Keeps n.id P) (hw : P w) (now : Timestamp) :
    Left P n (n.demote env now w) :=
  ⟨rfl, h.tell rfl (h.stopPersisting w hw)⟩

private theorem checkSync (h : env.Keeps n.id P) (hw : P w) (now : Timestamp) :
    Left P n (n.checkSync env now w) := by
  rw [Node.checkSync]
  split
  · exact ⟨rfl, h.stopPersisting w hw⟩
  · exact ⟨rfl, hw⟩

theorem settle (h : env.Keeps n.id P) (hw : P w) (now : Timestamp) (isElected : Bool) :
    Left P n (n.settle env now isElected w) := by
  have hstay := h.stayStandby hw now
  rw [Node.settle]
  -- A master only stays or steps down; the others are promoted or wait.
  cases n.state <;> dsimp only
  case master =>
    cases isElected
    · exact h.demote hw now
    · exact ⟨rfl, hw⟩
  case failed | terminated => exact ⟨rfl, hw⟩
  case initializing | standby =>
    cases isElected
    · refine ⟨hstay.1, ?_⟩
      show P (if (n.stayStandby env now w).1.mode = some .hotStandby then
        env.refresh (n.stayStandby env now w).2 else (n.stayStandby env now w).2)
      split
      · exact h.refresh _ hstay.2
      · exact hstay.2
    · exact h.promote hw now

/-! ## Calls -/

theorem round (h : env.Keeps n.id P) (hw : P w) : Left P n (n.round env w) := by
  have hpublish := h.publish (n.record (env.now w)) rfl w hw
  have hload := h.loadPlane _ hpublish
  rw [Node.round]
  dsimp only
  split
  · exact settle (n := { n with lastSync := some (env.now w) }) h hload (env.now w) _
  · exact h.checkSync hload (env.now w)

/-- `accept` keeps what a promotion and a look at the plane keep. -/
private theorem accept (h : env.Keeps n.id P) (hw : P w) (mode : StartMode) :
    Left P n (n.accept env mode w).2 := by
  have hload := h.loadPlane w hw
  have hpromote {w₁ : ω} (hw₁ : P w₁) (now : Timestamp) :
      Left P n ({ n with mode := some .master }.promote env now w₁).2 :=
    promote (n := { n with mode := some .master }) h hw₁ now
  generalize hx : n.accept env mode w = x
  -- The plane was looked at in all cases but the first two, and a promotion made in the last two.
  cases hx ▸ Node.accept_cases env n mode w with
  | started | atOnce => exact ⟨rfl, hw⟩
  | refused => exact ⟨rfl, hload⟩
  | waits _ _ hrun =>
    rw [hrun] at hload
    exact ⟨rfl, hload⟩
  | @fails _ plane w₁ hrun _ e n' w' hp =>
    rw [hrun] at hload
    have hleft := hpromote hload (env.now w₁)
    rwa [hp] at hleft
  | @leads _ plane w₁ hrun _ n' w' hp =>
    rw [hrun] at hload
    have hleft := hpromote hload (env.now w₁)
    rw [hp] at hleft
    exact ⟨hleft.1, hleft.2⟩

private theorem start (h : env.Keeps n.id P) (hw : P w) {mode : StartMode}
    (hmode : mode ≠ .disabled) : Left P n (n.start env mode w).2 := by
  have haccept := h.accept hw mode
  rcases Node.start_cases env n mode w with ⟨e, m, v, hx, -, heq⟩ | ⟨hd, -⟩ |
    ⟨m, v, -, hx, -, heq⟩
  · rw [hx] at haccept
    rwa [heq]
  · exact absurd hd hmode
  · rw [hx] at haccept
    obtain ⟨hid, hv⟩ := haccept
    have hround := round (n := m) (hid.symm ▸ h) hv
    rw [heq]
    exact ⟨hround.1.trans hid, hround.2⟩

/-- A call keeps what nothing spoils that a node does, if it `Spares` that. -/
theorem act (h : env.Keeps n.id P) (hw : P w) {c : Call ω} (hc : c.Spares P) :
    Left P n (c.act env n w) := by
  cases c with
  | start mode => exact h.start hw hc
  | poll =>
    show Left P n (n.poll env w).2
    rcases Node.poll_cases env n w with ⟨-, heq⟩ | ⟨-, -, heq⟩ <;> rw [heq]
    · exact ⟨rfl, hw⟩
    · exact h.round hw
  | stop =>
    show Left P n (n.stop env w)
    rw [Node.stop]
    dsimp only
    split
    · exact ⟨rfl, hw⟩
    · refine ⟨rfl, ?_⟩
      dsimp only
      split
      · exact h.stopPersisting w hw
      · exact h.tell rfl (h.stopPersisting w hw)
  | meanwhile f => exact ⟨rfl, hc w hw⟩

/-- A run of calls keeps what nothing spoils that a node does, if each of them `Spares` that. -/
theorem run (h : env.Keeps n.id P) (hw : P w) {cs : List (Call ω)}
    (hcs : ∀ c ∈ cs, c.Spares P) : Left P n (Call.run env n w cs) := by
  induction cs generalizing n w with
  | nil => exact ⟨rfl, hw⟩
  | cons c cs ih =>
    rw [List.forall_mem_cons] at hcs
    obtain ⟨hid, hw'⟩ := h.act hw hcs.1
    obtain ⟨hid', hend⟩ := ih (hid.symm ▸ h) hw' hcs.2
    exact ⟨hid'.trans hid, hend⟩

end Surroundings.Keeps

end Failover
