import Failover.Proofs.Node.Consistent
import Failover.Proofs.Node.Log

/-!
# A node persists while it is master

A node whose rebinder is tracked writes back changes exactly while it is master. Every part of a
call that begins so also ends so, and what it does meanwhile is in order: `Orderly` says what that
is, and parts in order make up a call in order.

## Key results

- `Node.Orderly.trans`: orderly parts of a call make up an orderly call
- `Node.Call.orderly`: every call is orderly
- `Node.persists_iff_master`: over any run of calls a node persists exactly while it is master,
  claims mastership only then, and takes over before it becomes master
-/

namespace Failover

variable {ω : Type}

namespace Node

/-! ## What is in order -/

/-- A part of a call is orderly that takes a node from state `s` to `s'` with the turns `ts`: at its
end changes are written back exactly if the node is master; they were whenever a record was handed
over that claims mastership, and were not for any other record; the node rebuilt its objects and
started writing back changes right before it became master; and that was announced as often as it
happened. -/
structure Orderly (persists : ω → Bool) (s : NodeState) (w : Logged ω) (ts : List (Turn (Logged ω)))
    (s' : NodeState) (w' : Logged ω) : Prop where
  state_eq : s' = lastState s ts
  persists_iff : persists w'.world = true ↔ s' = .master
  deeds : ∃ new, w'.deeds = w.deeds ++ new ∧
    (∀ r p, .published r p ∈ new → (p = true ↔ r.state = .master)) ∧
    new.count .announced = (entered s ts).length
  entered : ∀ e ∈ entered s ts, ∃ between,
    e.deeds = w.deeds ++ between ++ [.rebound false true, .startedPersisting true]

namespace Orderly

variable {persists : ω → Bool} {s s' s'' : NodeState} {w w' w'' : Logged ω}
  {ts us : List (Turn (Logged ω))}

/-- To do nothing is `Orderly`, if changes are written back exactly while the node is master. -/
theorem refl (h : persists w.world = true ↔ s = .master) : Orderly persists s w [] s w where
  state_eq := rfl
  persists_iff := h
  deeds := ⟨[], (List.append_nil _).symm, nofun, rfl⟩
  entered := nofun

/-- `Orderly` parts of a call make up an orderly call. -/
theorem trans (h : Orderly persists s w ts s' w') (h' : Orderly persists s' w' us s'' w'') :
    Orderly persists s w (ts ++ us) s'' w'' where
  state_eq := by rw [lastState_append, ← h.state_eq, h'.state_eq]
  persists_iff := h'.persists_iff
  deeds := by
    obtain ⟨new, hnew, hrecords, hcount⟩ := h.deeds
    obtain ⟨new', hnew', hrecords', hcount'⟩ := h'.deeds
    refine ⟨new ++ new', by rw [hnew', hnew, List.append_assoc], fun r p hr => ?_, ?_⟩
    · rcases List.mem_append.1 hr with hr | hr
      · exact hrecords r p hr
      · exact hrecords' r p hr
    · rw [List.count_append, entered_append, List.length_append, hcount, hcount', ← h.state_eq]
  entered := by
    obtain ⟨new, hnew, -, -⟩ := h.deeds
    intro e he
    rw [entered_append, ← h.state_eq] at he
    rcases List.mem_append.1 he with he | he
    · exact h.entered e he
    · -- What the first part has done lies between the beginning of the call and the entry.
      obtain ⟨between, hbetween⟩ := h'.entered e he
      exact ⟨new ++ between, by rw [hbetween, hnew]; simp only [List.append_assoc]⟩

/-- A single `Deed` is `Orderly` that starts and stops nothing, claims no more than the node is, and
announces nothing. -/
private theorem of_deed (h : persists w.world = true ↔ s = .master)
    (hp : persists w'.world = persists w.world) {d : Deed} (hd : w'.deeds = w.deeds ++ [d])
    (hannounced : d ≠ .announced)
    (hrecord : ∀ r p, d = .published r p → (p = true ↔ r.state = .master)) :
    Orderly persists s w [] s w' where
  state_eq := rfl
  persists_iff := hp ▸ h
  deeds := by
    refine ⟨[d], hd, fun r p hr => hrecord r p (List.mem_singleton.1 hr).symm, ?_⟩
    rw [List.count_singleton, if_neg (by simpa using hannounced)]
    rfl
  entered := nofun

/-- A `Turn` to another state than that of the master is `Orderly` while no changes are written
back. -/
theorem turn (hp : persists w.world = false) (hs : s' ≠ .master) :
    Orderly persists s w [(s', w)] s' w where
  state_eq := rfl
  persists_iff := by simp [hp, hs]
  deeds := by
    refine ⟨[], (List.append_nil _).symm, nofun, ?_⟩
    rw [entered_singleton_of_ne hs]
    rfl
  entered := by
    rw [entered_singleton_of_ne hs]
    nofun

end Orderly

section Parts

variable {env : Surroundings ω} {rebinder : Rebinder ω} {persists : ω → Bool}
  (henv : env.Tracks rebinder persists) {s s' : NodeState} {w w' : Logged ω} {n : Node}
include henv

/-- To hand over a record by `tell` is `Orderly`, if it is of the state of the node. -/
private theorem tell_orderly (h : persists w.world = true ↔ s = .master) {r : NodeRecord}
    (hr : r.state = s) : Orderly persists s w [] s ((env.logged persists).tell r w) := by
  have hp : persists ((env.logged persists).tell r w).world = persists w.world :=
    henv.publish r w.world
  refine .of_deed (d := .published r (persists w.world)) h hp rfl nofun ?_
  rintro _ _ ⟨⟩
  rwa [hr]

private theorem load_orderly (h : persists w.world = true ↔ s = .master) :
    Orderly persists s w [] s ((env.logged persists).loadPlane.run w).2 :=
  .of_deed (d := .loaded) h (henv.loadPlane w.world) rfl nofun nofun

private theorem refresh_orderly (h : persists w.world = true ↔ s = .master) :
    Orderly persists s w [] s ((env.logged persists).refresh w) := by
  have hrefresh : (env.logged persists).refresh w =
      ⟨((rebinder.rebind true).run w.world).2,
        w.deeds ++ [.rebound true ((rebinder.rebind true).run w.world).1.isOk]⟩ := by
    simp only [Surroundings.refresh, Surroundings.logged, henv.rebinder_eq, Option.map_some]
    rfl
  rw [hrefresh]
  exact .of_deed h (henv.rebind true w.world) rfl (by simp) (by simp)

/-- What `stopPersisting` does to the world and to the log. -/
private theorem stopPersisting_eq : (env.logged persists).stopPersisting w =
    ⟨rebinder.stopPersisting w.world, w.deeds ++ [.stoppedPersisting]⟩ := by
  simp only [Surroundings.stopPersisting, Surroundings.logged, henv.rebinder_eq, Option.map_some]
  rfl

/-- A `Turn` to another state than that of the master is `Orderly` once `stopPersisting` has been
called. -/
private theorem leave_orderly (s s' : NodeState) (hs : s' ≠ .master) (w : Logged ω) :
    Orderly persists s w [(s', (env.logged persists).stopPersisting w)] s'
      ((env.logged persists).stopPersisting w) := by
  rw [stopPersisting_eq henv]
  have hp : persists (rebinder.stopPersisting w.world) = false := henv.stopPersisting w.world
  refine ⟨rfl, by simp [hp, hs], ⟨[.stoppedPersisting], rfl, ?_, ?_⟩, ?_⟩
  · intro r p hr
    simp at hr
  · rw [entered_singleton_of_ne hs]
    rfl
  · rw [entered_singleton_of_ne hs]
    nofun

/-- What `takeOver` does: both of its steps succeed, or nothing is written back and no record was
handed over. -/
private theorem takeOver_cases (hp : persists w.world = false) (hs : s ≠ .master) :
    (∃ w', (env.logged persists).takeOver w = (.ok (), w') ∧ persists w'.world = true ∧
      w'.deeds = w.deeds ++ [.rebound false true, .startedPersisting true]) ∨
    ∃ e w', (env.logged persists).takeOver w = (.error e, w') ∧ persists w'.world = false ∧
      Orderly persists s w [] s w' := by
  -- Failing to take over leaves the log without records and announcements.
  have hfailed {w' : Logged ω} {new : List Deed} (hp' : persists w'.world = false)
      (hdeeds : w'.deeds = w.deeds ++ new) (hrecords : ∀ r p, .published r p ∉ new)
      (hannounced : .announced ∉ new) : Orderly persists s w [] s w' :=
    ⟨rfl, iff_of_false (Bool.eq_false_iff.1 hp') hs,
      ⟨new, hdeeds, fun r p hr => absurd hr (hrecords r p), List.count_eq_zero.2 hannounced⟩, nofun⟩
  have hrebind := henv.rebind false w.world
  simp only [Surroundings.takeOver, Surroundings.logged, henv.rebinder_eq, Option.map_some,
    Logged.doing, Action.run_of]
  cases hr : (rebinder.rebind false).run w.world with
  | mk r w₁ =>
    rw [hr, hp] at hrebind
    cases r with
    | error e =>
      exact .inr ⟨.rebind e, ⟨w₁, w.deeds ++ [.rebound false false]⟩, rfl, hrebind,
        hfailed hrebind rfl (by simp) (by simp)⟩
    | ok =>
      have hstart := henv.startPersisting w₁ hrebind
      cases hs : rebinder.startPersisting.run w₁ with
      | mk r w₂ =>
        rw [hs] at hstart
        simp only [hs]
        cases r with
        | error e =>
          have hdeeds : w.deeds ++ [.rebound false true] ++ [.startedPersisting false] =
              w.deeds ++ [.rebound false true, .startedPersisting false] := by simp
          exact .inr ⟨_, _, rfl, hstart, hfailed hstart hdeeds (by simp) (by simp)⟩
        | ok =>
          refine .inl ⟨_, rfl, hstart, ?_⟩
          simp [Except.isOk, Except.toBool]

/-- To become master after `takeOver` and to announce it is `Orderly`. -/
private theorem enter_orderly (hs : s ≠ .master)
    (hdeeds : w'.deeds = w.deeds ++ [.rebound false true, .startedPersisting true])
    {w'' : Logged ω} (h : Orderly persists .master w' [] .master w'') :
    Orderly persists s w [(.master, w')] .master ((env.logged persists).announce w'') := by
  have hentered : Node.entered s [(.master, w')] = [w'] := by simp [Node.entered, hs]
  obtain ⟨new, hnew, hrecords, hcount⟩ := h.deeds
  refine ⟨rfl, ?_, ?_, ?_⟩
  · show persists (env.announce w''.world) = true ↔ _
    rw [henv.announce]
    exact h.persists_iff
  · -- The one announcement is that at the end, and there is one entry.
    refine ⟨[.rebound false true, .startedPersisting true] ++ new ++ [.announced], ?_, ?_, ?_⟩
    · show w''.deeds ++ [.announced] = _
      rw [hnew, hdeeds]
      simp only [List.append_assoc]
    · intro r p hr
      have hr : Deed.published r p ∈ new := by simpa using hr
      exact hrecords r p hr
    · have hcount : new.count .announced = 0 := hcount
      rw [hentered, List.count_append, List.count_append, hcount]
      rfl
  · rw [hentered]
    intro e he
    obtain rfl := List.mem_singleton.1 he
    exact ⟨[], by rw [hdeeds, List.append_nil]⟩

/-! ## Changes of state

Each is `Orderly` with its own turns. -/

private theorem stayStandby_orderly (h : persists w.world = true ↔ n.state = .master)
    (hs : n.state ≠ .master) (now : Timestamp) :
    Orderly persists n.state w (n.stayStandbyTurns w)
      (n.stayStandby (env.logged persists) now w).1.state
      (n.stayStandby (env.logged persists) now w).2 := by
  rw [stayStandby, stayStandbyTurns]
  split
  · have hp : persists w.world = false := Bool.eq_false_iff.2 fun hp => hs (h.1 hp)
    have hturn : Orderly persists n.state w [(.standby, w)] .standby w := .turn hp (by decide)
    exact hturn.trans (tell_orderly henv hturn.persists_iff rfl)
  · exact .refl h

/-- `promote` is `Orderly`, with the turns of `promoteTurns`, for a node that is no master. -/
private theorem promote_orderly (h : persists w.world = true ↔ n.state = .master)
    (hs : n.state ≠ .master) (now : Timestamp) :
    Orderly persists n.state w (n.promoteTurns (env.logged persists) w)
      (n.promote (env.logged persists) now w).2.1.state
      (n.promote (env.logged persists) now w).2.2 := by
  have hp : persists w.world = false := Bool.eq_false_iff.2 fun hp => hs (h.1 hp)
  -- The node enters mastership if the objects were taken over, and else turns to another state.
  rcases takeOver_cases henv hp hs with ⟨w', htake, hp', hdeeds⟩ | ⟨e, w', htake, hp', hfailed⟩
  · simp only [promote, promoteTurns, htake]
    have htold := tell_orderly henv (w := w') (s := .master) (iff_of_true hp' rfl)
      (r := { n.asMaster now with lastSync := some now }.record now) rfl
    exact enter_orderly henv hs hdeeds htold
  · simp only [promote, promoteTurns, htake]
    split
    · have hturn : Orderly persists n.state w' [(.failed, w')] .failed w' := .turn hp' (by decide)
      exact (hfailed.trans hturn).trans (tell_orderly henv hturn.persists_iff rfl)
    · exact hfailed.trans (stayStandby_orderly henv hfailed.persists_iff hs now)

private theorem settle_orderly (h : persists w.world = true ↔ n.state = .master) (now : Timestamp)
    (isElected : Bool) :
    Orderly persists n.state w (n.settleTurns (env.logged persists) w isElected)
      (n.settle (env.logged persists) now isElected w).1.state
      (n.settle (env.logged persists) now isElected w).2 := by
  have hdemote : Orderly persists n.state w (demoteTurns (env.logged persists) w)
      (n.demote (env.logged persists) now w).1.state (n.demote (env.logged persists) now w).2 := by
    have hleave := leave_orderly henv n.state .standby (by decide) w
    exact hleave.trans (tell_orderly henv hleave.persists_iff rfl)
  -- One that is not elected may rebuild its warm copy.
  have hwait (hs : n.state ≠ .master) : Orderly persists n.state w (n.stayStandbyTurns w)
      (n.stayStandby (env.logged persists) now w).1.state
      (if (n.stayStandby (env.logged persists) now w).1.mode = some .hotStandby then
        (env.logged persists).refresh (n.stayStandby (env.logged persists) now w).2
      else (n.stayStandby (env.logged persists) now w).2) := by
    have hstay := stayStandby_orderly henv h hs now
    split
    · have hrefresh := refresh_orderly henv hstay.persists_iff
      rw [← List.append_nil (n.stayStandbyTurns w)]
      exact hstay.trans hrefresh
    · exact hstay
  rw [settle, settleTurns]
  cases hs : n.state <;> dsimp only <;> rw [← hs]
  case master =>
    cases isElected
    · exact hdemote
    · exact .refl h
  case failed | terminated => exact .refl h
  case initializing | standby =>
    have hne : n.state ≠ .master := by
      rw [hs]
      decide
    cases isElected
    · exact hwait hne
    · exact promote_orderly henv h hne now

private theorem checkSync_orderly (h : persists w.world = true ↔ n.state = .master)
    (now : Timestamp) :
    Orderly persists n.state w (n.checkSyncTurns (env.logged persists) w now)
      (n.checkSync (env.logged persists) now w).1.state
      (n.checkSync (env.logged persists) now w).2 := by
  rw [checkSync, checkSyncTurns]
  split
  · exact leave_orderly henv n.state .standby (by decide) w
  · exact .refl h

/-! ## Calls -/

private theorem round_orderly (h : persists w.world = true ↔ n.state = .master) :
    Orderly persists n.state w (n.roundTurns (env.logged persists) w)
      (n.round (env.logged persists) w).1.state (n.round (env.logged persists) w).2 := by
  -- The heartbeat is handed over and the others are read before anything changes.
  have hpublish := tell_orderly henv h (r := n.record ((env.logged persists).now w)) rfl
  have hload := load_orderly henv hpublish.persists_iff
  have hsync := hpublish.trans hload
  rw [Surroundings.tell] at hsync
  rw [round, roundTurns]
  dsimp only
  cases hpublished : ((env.logged persists).publish
      (n.record ((env.logged persists).now w))).run w with
  | mk published w₁ =>
    cases hloaded : (env.logged persists).loadPlane.run w₁ with
    | mk loaded w₂ =>
      rw [hpublished, hloaded] at hsync
      cases published with
      | error e => exact hsync.trans (checkSync_orderly henv hsync.persists_iff _)
      | ok =>
        cases loaded with
        | error e => exact hsync.trans (checkSync_orderly henv hsync.persists_iff _)
        | ok plane =>
          exact hsync.trans (settle_orderly henv
            (n := { n with lastSync := some ((env.logged persists).now w) }) hsync.persists_iff _ _)

private theorem startDisabled_orderly (h : persists w.world = true ↔ n.state = .master)
    (hs : n.state ≠ .master) :
    Orderly persists n.state w (startDisabledTurns (env.logged persists) w)
      (n.startDisabled (env.logged persists) w).2.1.state
      (n.startDisabled (env.logged persists) w).2.2 := by
  have hp : persists w.world = false := Bool.eq_false_iff.2 fun hp => hs (h.1 hp)
  rcases takeOver_cases henv hp hs with ⟨w', htake, hp', hdeeds⟩ | ⟨e, w', htake, hp', hfailed⟩
  · simp only [startDisabled, startDisabledTurns, htake]
    exact enter_orderly henv hs hdeeds (.refl (iff_of_true hp' rfl))
  · simp only [startDisabled, startDisabledTurns, htake]
    split
    · have hturn : Orderly persists n.state w' [(.failed, w')] .failed w' := .turn hp' (by decide)
      exact hfailed.trans hturn
    · exact hfailed

/-- `accept` is `Orderly`, with the turns of `acceptTurns`: those of a promotion, or none. -/
private theorem accept_orderly (h : persists w.world = true ↔ n.state = .master)
    (hnone : n.mode = none → n.state ≠ .master) (mode : StartMode) :
    Orderly persists n.state w (n.acceptTurns (env.logged persists) w mode)
      (n.accept (env.logged persists) mode w).2.1.state
      (n.accept (env.logged persists) mode w).2.2 := by
  have hload := load_orderly henv h
  -- The turns of a start as master are those of its promotion, after the plane was loaded.
  have hpromotes {plane : Plane} {w₁ : Logged ω} (hn : n.mode = none)
      (hrun : (env.logged persists).loadPlane.run w = (.ok plane, w₁))
      (hother : n.otherMaster? plane ((env.logged persists).now w₁) = none) :
      Orderly persists n.state w (n.acceptTurns (env.logged persists) w .master)
        ({ n with mode := some .master }.promote (env.logged persists)
          ((env.logged persists).now w₁) w₁).2.1.state
        ({ n with mode := some .master }.promote (env.logged persists)
          ((env.logged persists).now w₁) w₁).2.2 := by
    rw [hrun] at hload
    rw [acceptTurns_eq_promoteTurns hn hrun hother]
    exact hload.trans (promote_orderly henv (n := { n with mode := some .master })
      hload.persists_iff (hnone hn) _)
  have hcases := accept_cases (env.logged persists) n mode w
  generalize n.accept (env.logged persists) mode w = x at hcases
  cases hcases with
  | started hsome =>
    rw [acceptTurns_eq_nil fun hn => absurd hn hsome]
    exact .refl h
  | atOnce _ hmode =>
    rw [acceptTurns_eq_nil fun _ hmaster => by simp [hmaster] at hmode]
    exact .refl h
  | waits _ hmode hrun =>
    rw [hrun] at hload
    rw [acceptTurns_eq_nil fun _ hmaster => by simp [hmaster] at hmode]
    exact hload
  | refused _ _ hother =>
    rw [acceptTurns_eq_nil fun _ => hother]
    exact hload
  | fails hn hrun hother hp =>
    have hpromote := hpromotes hn hrun hother
    rwa [hp] at hpromote
  | leads hn hrun hother hp =>
    have hpromote := hpromotes hn hrun hother
    rwa [hp] at hpromote

private theorem start_orderly (h : persists w.world = true ↔ n.state = .master)
    (hnone : n.mode = none → n.state ≠ .master) (mode : StartMode) :
    Orderly persists n.state w (Call.turns (env.logged persists) n w (.start mode))
      (n.start (env.logged persists) mode w).2.1.state
      (n.start (env.logged persists) mode w).2.2 := by
  have haccept := accept_orderly henv h hnone mode
  have hcases := accept_cases (env.logged persists) n mode w
  -- Being let in is one part of the call, what follows it is the other.
  rcases start_cases (env.logged persists) n mode w with ⟨e, m, v, hx, hround, heq⟩ |
    ⟨rfl, hx, hround, heq⟩ | ⟨m, v, hmode, hx, hround, heq⟩
  · rw [hx] at haccept
    simp only [heq, Call.turns, Call.turnsApart, hx, hround, Option.elim_none, List.append_nil]
    exact haccept
  · rw [hx] at haccept hcases
    have hn : n.mode = none := by
      cases hcases with
      | atOnce hn => exact hn
      | waits hn => exact hn
    simp only [heq, Call.turns, Call.turnsApart, hx, hround, Option.elim_none, List.append_nil,
      if_true]
    exact haccept.trans (startDisabled_orderly henv (n := { n with mode := some .disabled }) h
      (hnone hn))
  · rw [hx] at haccept
    simp only [heq, Call.turns, Call.turnsApart, hx, hround, Option.elim_some, List.append_nil,
      if_neg hmode]
    exact haccept.trans (round_orderly henv haccept.persists_iff)

private theorem poll_orderly (h : persists w.world = true ↔ n.state = .master) :
    Orderly persists n.state w (Call.turns (env.logged persists) n w .poll)
      (n.poll (env.logged persists) w).2.1.state (n.poll (env.logged persists) w).2.2 := by
  rcases poll_cases (env.logged persists) n w with ⟨hround, heq⟩ | ⟨hround, -, heq⟩
  · simp only [heq, Call.turns, Call.turnsApart, hround, Option.elim_none, List.append_nil]
    exact .refl h
  · simp only [heq, Call.turns, Call.turnsApart, hround, Option.elim_some, List.nil_append]
    exact round_orderly henv h

private theorem stop_orderly (h : persists w.world = true ↔ n.state = .master) :
    Orderly persists n.state w (Call.turns (env.logged persists) n w .stop)
      (n.stop (env.logged persists) w).1.state (n.stop (env.logged persists) w).2 := by
  simp only [Call.turns, Call.turnsApart, Call.round?, Option.elim_none, List.append_nil]
  rw [stop, stopTurns]
  dsimp only
  split
  · exact .refl h
  · have hleave := leave_orderly henv n.state .terminated (by decide) w
    dsimp only
    split
    · exact hleave
    · exact hleave.trans (tell_orderly henv hleave.persists_iff rfl)

/-- Every call is `Orderly`. -/
theorem Call.orderly (h : persists w.world = true ↔ n.state = .master)
    (hnone : n.mode = none → n.state ≠ .master) {c : Call (Logged ω)}
    (hc : ∀ f, c = .meanwhile f → ∀ w, persists (f w).world = persists w.world ∧
      (f w).deeds = w.deeds) :
    Orderly persists n.state w (c.turns (env.logged persists) n w)
      (c.act (env.logged persists) n w).1.state (c.act (env.logged persists) n w).2 := by
  cases c with
  | start mode => exact start_orderly henv h hnone mode
  | poll => exact poll_orderly henv h
  | stop => exact stop_orderly henv h
  -- What happens elsewhere neither starts nor stops the writer, and is not logged.
  | meanwhile f =>
    obtain ⟨hp, hdeeds⟩ := hc f rfl w
    refine ⟨rfl, ?_, ⟨[], ?_, nofun, rfl⟩, nofun⟩
    · show persists (f w).world = true ↔ n.state = .master
      rw [hp]
      exact h
    · rw [List.append_nil]
      exact hdeeds

end Parts

/-! ## Runs -/

/-- The same call over `logged` surroundings. -/
def Call.logged : Call ω → Call (Logged ω)
  | .start mode => .start mode
  | .poll => .poll
  | .stop => .stop
  | .meanwhile f => .meanwhile fun w => { w with world := f w.world }

/-- What a `Consistent` node has done in a run of calls is in order, from any point of the run on
where it persists exactly if it is master. -/
private theorem run_orderly {env : Surroundings ω} {rebinder : Rebinder ω} {persists : ω → Bool}
    (henv : env.Tracks rebinder persists) {n : Node} (hn : n.Consistent) {w : Logged ω}
    (h : persists w.world = true ↔ n.state = .master) {cs : List (Call ω)}
    (hcs : ∀ f, .meanwhile f ∈ cs → ∀ w, persists (f w) = persists w) :
    let s := Call.run (env.logged persists) n w (cs.map .logged)
    let entries := Call.entries (env.logged persists) n w (cs.map .logged)
    (persists s.2.world = true ↔ s.1.state = .master) ∧ s.1.Consistent ∧
      (∃ new, s.2.deeds = w.deeds ++ new ∧
        (∀ r p, .published r p ∈ new → (p = true ↔ r.state = .master)) ∧
        new.count .announced = entries.length) ∧
      ∀ e ∈ entries, ∃ between,
        e.2.deeds = e.1.deeds ++ between ++ [.rebound false true, .startedPersisting true] := by
  -- By induction over the calls: what the first one leaves is where the others begin.
  induction cs generalizing n w with
  | nil => exact ⟨h, hn, ⟨[], (List.append_nil _).symm, nofun, rfl⟩, nofun⟩
  | cons c cs ih =>
    have hc : ∀ f, c.logged = .meanwhile f → ∀ w : Logged ω,
        persists (f w).world = persists w.world ∧ (f w).deeds = w.deeds := by
      intro f hf w
      cases c with
      | meanwhile g =>
        cases hf
        exact ⟨hcs g List.mem_cons_self w.world, rfl⟩
      | _ => cases hf
    have hcall := Call.orderly henv h (fun hmode hs => hn.mode_ne_none hs hmode) hc
    have hn' : (c.logged.act (env.logged persists) n w).1.Consistent := hn.act c.logged
    obtain ⟨hiff, hcons, ⟨new, hnew, hrecords, hcount⟩, hentries⟩ :=
      ih hn' hcall.persists_iff fun f hf => hcs f (List.mem_cons_of_mem _ hf)
    obtain ⟨first, hfirst, hrecords₁, hcount₁⟩ := hcall.deeds
    refine ⟨hiff, hcons, ⟨first ++ new, ?_, fun r p hr => ?_, ?_⟩, fun e he => ?_⟩
    · exact hnew.trans (by rw [hfirst, List.append_assoc])
    · rcases List.mem_append.1 hr with hr | hr
      · exact hrecords₁ r p hr
      · exact hrecords r p hr
    · rw [List.count_append, hcount₁, hcount]
      simp only [List.map_cons, Call.entries, List.length_append, List.length_map]
    · simp only [List.map_cons, Call.entries, List.mem_append, List.mem_map] at he
      -- An entry of the first call, or one of those that follow.
      rcases he with ⟨u, hu, rfl⟩ | he
      · exact hcall.entered u hu
      · exact hentries e he

/-- However the calls of a new node come out, and whatever goes wrong around it: after any run of
calls it `persists` exactly if it is master, and so it reports. Every record that it handed over was
handed over while changes were written back if it claims mastership, and while they were not if it
does not. Each of its `entries` into mastership follows right on having rebuilt its objects and then
started writing back changes in the same call, and it has announced that as often as it happened. -/
theorem persists_iff_master {env : Surroundings ω} {rebinder : Rebinder ω} {persists : ω → Bool}
    (henv : env.Tracks rebinder persists) (id : String) (uri : Option String) (timeout : Duration)
    {w : ω} (hw : persists w = false) {cs : List (Call ω)}
    (hcs : ∀ f, .meanwhile f ∈ cs → ∀ w, persists (f w) = persists w) :
    let n : Node := { id, uri, timeout }
    let s := Call.run env n w cs
    let deeds := (Call.run (env.logged persists) n ⟨w, []⟩ (cs.map .logged)).2.deeds
    let entries := Call.entries (env.logged persists) n ⟨w, []⟩ (cs.map .logged)
    (persists s.2 = true ↔ s.1.state = .master) ∧ (persists s.2 = true ↔ s.1.reported = .master) ∧
      (∀ r p, .published r p ∈ deeds → (p = true ↔ r.state = .master)) ∧
      (∀ e ∈ entries, ∃ between,
        e.2.deeds = e.1.deeds ++ between ++ [.rebound false true, .startedPersisting true]) ∧
      deeds.count .announced = entries.length := by
  intro n s deeds entries
  have hn : n.Consistent := consistent_new id uri timeout
  have hstart : persists (Logged.mk w []).world = true ↔ n.state = .master :=
    iff_of_false (Bool.eq_false_iff.1 hw) nofun
  obtain ⟨hiff, hcons, ⟨new, hnew, hrecords, hcount⟩, hentries⟩ := run_orderly henv hn hstart hcs
  -- The log changes nothing, so the node ends the run as it does without.
  have hcalls : List.Forall₂ (Call.InStep fun w v => Logged.world w = v) (cs.map .logged) cs := by
    rw [List.forall₂_map_left_iff]
    refine List.forall₂_same.2 fun c _ => ?_
    cases c with
    | start mode => exact .start mode
    | poll => exact .poll
    | stop => exact .stop
    | meanwhile f => exact .meanwhile fun w v hw => congrArg f hw
  obtain ⟨hnode, hworld⟩ :=
    Call.run_inStep Surroundings.logged_inStep (w := Logged.mk w []) rfl n hcalls
  rw [hnode, hworld] at hiff
  rw [hnode] at hcons
  rw [List.nil_append] at hnew
  refine ⟨hiff, hiff.trans hcons.reported_iff.symm, ?_, hentries, ?_⟩
  · rwa [← hnew] at hrecords
  · rwa [← hnew] at hcount

/-- A member of a cluster that is asked to start, to poll when its record has expired, and to stop.
-/
def cameAndWent : List (Call (Site Memory)) :=
  [.start .auto, .meanwhile fun s => { s with clock := ⟨30001⟩ }, .poll, .stop]

/-- The member of `cameAndWent` became master once. -/
theorem persists_iff_master_cameAndWent :
    let env := Site.surroundings (Workspace.seen Memory.store) (Workspace.seen Memory.store)
      (.real {} .failFast)
    let persists (s : Site Memory) := s.workspace.isPersisting
    let n : Node := { id := "a", uri := none, timeout := .ofMillis 30000 }
    let w : Site Memory := { workspace := { store := .prepared }, clock := ⟨0⟩ }
    let s := Call.run env n w cameAndWent
    let deeds := (Call.run (env.logged persists) n ⟨w, []⟩ (cameAndWent.map .logged)).2.deeds
    (persists s.2 = true ↔ s.1.state = .master) ∧
      (∀ r p, .published r p ∈ deeds → (p = true ↔ r.state = .master)) ∧
      deeds.count .announced = 1 := by
  obtain ⟨rebinder, henv⟩ := Site.surroundings_tracks Memory.store Memory.store {} .failFast
  -- The clock is all that changes elsewhere.
  have hcs (f : Site Memory → Site Memory) (hf : .meanwhile f ∈ cameAndWent) (s : Site Memory) :
      (f s).workspace.isPersisting = s.workspace.isPersisting := by
    simp only [cameAndWent, List.mem_cons, reduceCtorEq, false_or, Call.meanwhile.injEq,
      List.not_mem_nil, or_false] at hf
    rw [hf]
  obtain ⟨hiff, -, hrecords, -, -⟩ := persists_iff_master henv "a" none (.ofMillis 30000)
    (w := { workspace := { store := .prepared }, clock := ⟨0⟩ }) rfl hcs
  exact ⟨hiff, hrecords, by decide +kernel⟩

end Node

end Failover
