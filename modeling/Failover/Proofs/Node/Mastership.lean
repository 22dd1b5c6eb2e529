import Failover.Proofs.Node.Board
import Failover.Proofs.Node.Turns

/-!
# What a node does before its plane

Whatever a node does over surroundings that show it a board, it leaves its own record there as it is
afterwards. Who is master after a round is told from the board before it.

## Key results

- `Node.shows_round`, `Node.start_leaves`, `Node.stop_leaves`: what a node leaves on the board
- `Node.prevails_of_round`, `Node.round_of_prevails`: a node is master after a round only if it
  prevails over all other live claims, and a master that prevails stays
- `Node.not_hasLiveClaim_of_start`: a node that starts as master found no other live claim
-/

namespace Failover.Node

variable {ω : Type} {env : Surroundings ω} {shows : ω → Board → Prop} {n : Node} {b : Board} {w : ω}

/-! ## Changes of state

A change of state hands over the record of the node as it is then, or none if its record is the same
as before. That is what `Leaves` says, function by function. -/

section Changes

variable (henv : env.Shows shows) (hw : shows w b) (hid : Path.isSingle n.id = true)
include henv hw hid

/-- After `tell` the record is on the board. -/
private theorem shows_tell {r : NodeRecord} (hr : r.nodeId = n.id) :
    shows (env.tell r w) (b.post r) := by
  obtain ⟨w', hrun, hw'⟩ := henv.publish hw (hr ▸ hid)
  rwa [Surroundings.tell, hrun]

private theorem stayStandby_leaves : Leaves shows n b (n.stayStandby env b.now w) := by
  rw [stayStandby]
  split
  · exact ⟨rfl, rfl, rfl, .inl (shows_tell henv hw hid rfl)⟩
  · exact ⟨rfl, rfl, rfl, .inr ⟨rfl, hw⟩⟩

private theorem promote_leaves : Leaves shows n b (n.promote env b.now w).2 := by
  have htaken := henv.takeOver hw
  rw [promote]
  cases ht : env.takeOver w with
  | mk r w' =>
    rw [ht] at htaken
    cases r with
    | ok => exact ⟨rfl, rfl, rfl, .inl (henv.announce (shows_tell henv htaken hid rfl))⟩
    | error e =>
      -- A failure that is not final leaves the node a standby.
      show Leaves shows n b (if e.isFinal then _ else _ : Except NodeError Unit × Node × ω).2
      split
      · exact ⟨rfl, rfl, rfl, .inl (shows_tell henv htaken hid rfl)⟩
      · exact stayStandby_leaves henv htaken hid

private theorem demote_leaves : Leaves shows n b (n.demote env b.now w) :=
  ⟨rfl, rfl, rfl, .inl (shows_tell henv (henv.stopPersisting hw) hid rfl)⟩

private theorem settle_leaves (isElected : Bool) :
    Leaves shows n b (n.settle env b.now isElected w) := by
  have hstay : Leaves shows n b (n, w) := ⟨rfl, rfl, rfl, .inr ⟨rfl, hw⟩⟩
  -- A node that waits is promoted, or stays a standby and may refresh its warm copy.
  have hjoin : Leaves shows n b
      (if isElected then (n.promote env b.now w).2
      else
        let standby := n.stayStandby env b.now w
        (standby.1,
          if standby.1.mode = some .hotStandby then env.refresh standby.2 else standby.2)) := by
    split
    · exact promote_leaves henv hw hid
    · obtain ⟨hid', htimeout, hmode, hboard⟩ := stayStandby_leaves henv hw hid
      refine ⟨hid', htimeout, hmode, ?_⟩
      show shows (if _ then _ else _) _ ∨ _ ∧ shows (if _ then _ else _) _
      split
      · exact hboard.imp henv.refresh fun h => ⟨h.1, henv.refresh h.2⟩
      · exact hboard
  rw [settle]
  cases n.state with
  | master =>
    show Leaves shows n b (if isElected then (n, w) else n.demote env b.now w)
    split
    · exact hstay
    · exact demote_leaves henv hw hid
  | failed => exact hstay
  | terminated => exact hstay
  | initializing => exact hjoin
  | standby => exact hjoin

end Changes

/-- A node is master after `settle` only if it won the election. -/
private theorem state_settle {now : Timestamp} {isElected : Bool}
    (h : (n.settle env now isElected w).1.state = .master) : isElected = true := by
  rw [state_settle_eq] at h
  cases isElected with
  | true => rfl
  | false => cases hs : n.state <;> simp [hs] at h

/-! ## Rounds -/

/-- Where `otherMaster?` finds none, no other node `HasLiveClaim`, if there is only one such claim.
-/
private theorem not_hasLiveClaim_of_otherMaster? (hb : b.HasOneMaster n.timeout) {plane : Plane}
    (hfiled : plane.IsFiled) (hplane : ∀ id, plane.nodes.get? id = b.record? id)
    (h : n.otherMaster? plane b.now = none) {id : String} (hne : id ≠ n.id) :
    ¬ b.HasLiveClaim n.timeout id := by
  intro hid
  obtain ⟨r, hr, hlive, hclaims⟩ := hid
  obtain ⟨best, helect, hbest, hbest', hbest'', -⟩ :=
    Plane.exists_leading_of_claims hfiled ((hplane id).trans hr) hlive hclaims
  -- The claim that leads is live, and there is only one such claim.
  have heq : best.nodeId = id :=
    hb _ _ ⟨best, (hplane _).symm.trans hbest, hbest', hbest''⟩ ⟨r, hr, hlive, hclaims⟩
  have hne' : best.nodeId ≠ n.id := heq ▸ hne
  simp [otherMaster?, helect, hbest, hbest'', hne'] at h

section Rounds

variable (henv : env.Shows shows) (hw : shows w b) (hid : Path.isSingle n.id = true)
include henv hw hid

/-- A `round` is an election on the board with the node's own record posted. -/
private theorem round_eq_settle : ∃ (plane : Plane) (w' : ω), plane.IsFiled ∧
    (∀ id, plane.nodes.get? id = (b.post (n.record b.now)).record? id) ∧
    shows w' (b.post (n.record b.now)) ∧
    n.round env w =
      let r := { n with lastSync := some b.now }.settle env b.now
        (decide ((plane.elect b.now n.timeout).master = some n.id)) w'
      (r.1.observe b.now (some plane), r.2) := by
  obtain ⟨w₁, hpublish, hw₁⟩ := henv.publish (r := n.record b.now) hw hid
  obtain ⟨plane, w', hload, hw', hfiled, hplane⟩ := henv.loadPlane hw₁
  refine ⟨plane.apply (.node (n.record b.now)), w', Plane.ofRecords_isFiled _, fun id => ?_, hw',
    ?_⟩
  · -- The record is put into the plane once more, where it stands already.
    rw [Plane.get?_nodes_apply_node hfiled, hplane, Board.record?_post]
    split <;> rfl
  · rw [round, henv.now_eq hw]
    simp only [hpublish, hload]

/-- A `round` posts the node's record as it is afterwards. -/
theorem shows_round : shows (n.round env w).2 (b.post ((n.round env w).1.record b.now)) := by
  obtain ⟨plane, w', -, -, hw', heq⟩ := round_eq_settle henv hw hid
  rw [heq]
  -- The record is posted before the election, and again if that changes it.
  exact (settle_leaves (n := { n with lastSync := some b.now }) henv hw' hid _).shows_post

/-- What a `round` leaves on the board. -/
theorem round_leaves : Leaves shows n b (n.round env w) := by
  have hboard := shows_round henv hw hid
  obtain ⟨plane, w', -, -, hw', heq⟩ := round_eq_settle henv hw hid
  have hsettle := settle_leaves (n := { n with lastSync := some b.now }) henv hw' hid
    (decide ((plane.elect b.now n.timeout).master = some n.id))
  rw [heq] at hboard ⊢
  exact ⟨hsettle.id_eq, hsettle.timeout_eq, hsettle.mode_eq, .inl hboard⟩

/-- A node is master after a `round` only if it `Prevails`. -/
theorem prevails_of_round (h : (n.round env w).1.state = .master) : n.Prevails b := by
  obtain ⟨plane, w', hfiled, hplane, -, heq⟩ := round_eq_settle henv hw hid
  rw [heq] at h
  have helect := of_decide_eq_true (state_settle h)
  have hself : plane.nodes.get? (n.record b.now).nodeId = some (n.record b.now) := by
    rw [hplane, Board.record?_post, if_pos rfl]
  intro id r hne hr hlive hclaims
  have hr' : plane.nodes.get? id = some r := (hplane id).trans ((if_neg hne).trans hr)
  -- A master has won against the other claims; any other node would have lost to each.
  by_cases hs : n.state = .master
  · have hown := (n.claims_record b.now).2 hs
    have hfresh := NodeRecord.isExpired_of_timestamp_eq (r := n.record b.now) rfl n.timeout
    exact ⟨hs, (Plane.elect_eq_self hfiled hself hfresh hown).1 helect id r hne hr' hlive hclaims⟩
  · have hown : (n.record b.now).claims = false :=
      Bool.eq_false_iff.2 fun hown => hs ((n.claims_record b.now).1 hown)
    rw [Plane.not_claims_of_elect_eq hfiled hself hown helect hr' hlive] at hclaims
    cases hclaims

/-- A master that `Prevails` is still master after a `round`. -/
theorem round_of_prevails (hs : n.state = .master) (h : n.Prevails b) :
    (n.round env w).1.state = .master := by
  obtain ⟨plane, w', hfiled, hplane, -, heq⟩ := round_eq_settle henv hw hid
  have hself : plane.nodes.get? (n.record b.now).nodeId = some (n.record b.now) := by
    rw [hplane, Board.record?_post, if_pos rfl]
  -- Its record has just been written, so its claim takes part and outranks the rest.
  have helect : (plane.elect b.now n.timeout).master = some n.id := by
    refine (Plane.elect_eq_self hfiled hself
      (NodeRecord.isExpired_of_timestamp_eq rfl n.timeout) ((n.claims_record b.now).2 hs)).2 ?_
    intro id r hne hr hlive hclaims
    rw [hplane, Board.record?_post, if_neg hne] at hr
    exact (h id r hne hr hlive hclaims).2
  rw [heq, decide_eq_true helect]
  simp [settle, observe, hs]

private theorem join_leaves : Leaves shows n b (n.join env w).2 := by
  obtain ⟨hid', htimeout, hmode, hboard⟩ := round_leaves henv hw hid
  exact ⟨hid', htimeout, hmode, hboard⟩

theorem poll_leaves : Leaves shows n b (n.poll env w).2 := by
  rcases poll_cases env n w with ⟨-, heq⟩ | ⟨-, -, heq⟩ <;> rw [heq]
  · exact ⟨rfl, rfl, rfl, .inr ⟨rfl, hw⟩⟩
  · exact round_leaves henv hw hid

/-! ## Joining and leaving -/

/-- What `accept` leaves: the node is refused and stays as it was, or it is let in with its mode. -/
private theorem accept_leaves (mode : StartMode) :
    ((∃ e, (n.accept env mode w).1 = .error e) ∧ (n.accept env mode w).2.1 = n ∧
        shows (n.accept env mode w).2.2 b) ∨
      n.mode = none ∧ Leaves shows { n with mode := some mode } b (n.accept env mode w).2 := by
  obtain ⟨plane, w₁, hload, hw₁, -, -⟩ := henv.loadPlane hw
  have hpromote := promote_leaves (n := { n with mode := some .master }) henv hw₁ hid
  generalize hx : n.accept env mode w = x
  -- A node that is refused keeps its mode; one that is let in has the new one, promoted or not.
  cases hx ▸ accept_cases env n mode w with
  | started => exact .inl ⟨⟨_, rfl⟩, rfl, hw⟩
  | refused =>
    rw [hload]
    exact .inl ⟨⟨_, rfl⟩, rfl, hw₁⟩
  | atOnce hn => exact .inr ⟨hn, rfl, rfl, rfl, .inr ⟨rfl, hw⟩⟩
  | waits hn _ hrun =>
    cases hload.symm.trans hrun
    exact .inr ⟨hn, rfl, rfl, rfl, .inr ⟨rfl, hw₁⟩⟩
  | fails hn hrun _ hp =>
    cases hload.symm.trans hrun
    rw [henv.now_eq hw₁] at hp
    rw [hp] at hpromote
    exact .inr ⟨hn, hpromote⟩
  | leads hn hrun _ hp =>
    cases hload.symm.trans hrun
    rw [henv.now_eq hw₁] at hp
    rw [hp] at hpromote
    exact .inr ⟨hn, hpromote.id_eq, hpromote.timeout_eq, hpromote.mode_eq, hpromote.board⟩

/-- What a `start` leaves: the node is refused and stays as it was, or it has its mode and its
record is on the board. -/
theorem start_leaves {mode : StartMode} (hmode : mode ≠ .disabled) :
    ((n.start env mode w).2.1 = n ∧ shows (n.start env mode w).2.2 b) ∨
      n.mode = none ∧ Leaves shows { n with mode := some mode } b (n.start env mode w).2 := by
  have haccept := accept_leaves henv hw hid mode
  rcases start_cases env n mode w with ⟨e, m, v, hx, -, heq⟩ | ⟨hd, -⟩ |
    ⟨m, v, -, hx, -, heq⟩
  · rw [hx] at haccept
    rw [heq]
    exact haccept.imp_left fun h => h.2
  · exact absurd hd hmode
  · rw [hx] at haccept
    rw [heq]
    obtain ⟨⟨e, he⟩, -⟩ | ⟨hn, hleaves⟩ := haccept
    · cases he
    have hid' : Path.isSingle m.id = true := (congrArg Path.isSingle hleaves.id_eq).trans hid
    refine .inr ⟨hn, ?_⟩
    -- Joining posts the record again, whether or not being let in has posted it.
    rcases hleaves.board with hv | ⟨hrecord, hv⟩
    · have hjoin := join_leaves henv hv hid'
      exact ⟨hjoin.id_eq.trans hleaves.id_eq, hjoin.timeout_eq.trans hleaves.timeout_eq,
        hjoin.mode_eq.trans hleaves.mode_eq, .inl hjoin.shows_post⟩
    · have hjoin := join_leaves henv hv hid'
      exact ⟨hjoin.id_eq.trans hleaves.id_eq, hjoin.timeout_eq.trans hleaves.timeout_eq,
        hjoin.mode_eq.trans hleaves.mode_eq,
        hjoin.board.imp_right fun h => ⟨h.1.trans hrecord, h.2⟩⟩

/-- A node that is master from its `start` on found no other node that `HasLiveClaim`. -/
theorem not_hasLiveClaim_of_start {mode : StartMode} (hmode : mode ≠ .disabled)
    (hs : n.state ≠ .master) (hb : b.HasOneMaster n.timeout)
    (h : (n.start env mode w).2.1.state = .master) {id : String} (hne : id ≠ n.id) :
    ¬ b.HasLiveClaim n.timeout id := by
  -- Whoever joins and comes out as master prevails; beside a live claim only a master can.
  have hjoin {w : ω} (hw : shows w b)
      (h : ({ n with mode := some mode }.join env w).2.1.state = .master) :
      ¬ b.HasLiveClaim n.timeout id := by
    rintro ⟨r, hr, hlive, hclaims⟩
    have := prevails_of_round (n := { n with mode := some mode }) henv hw hid h
    exact hs (this id r hne hr hlive hclaims).1
  obtain ⟨plane, w₁, hload, hw₁, hfiled, hplane⟩ := henv.loadPlane hw
  have hnow := henv.now_eq hw₁
  have hcases := accept_cases env n mode w
  rcases start_cases env n mode w with ⟨e, m, v, hx, -, heq⟩ | ⟨hd, -⟩ |
    ⟨m, v, -, hx, -, heq⟩
  · rw [hx] at hcases
    rw [heq] at h
    cases hcases with
    | started | refused => exact absurd h hs
    | fails _ hrun hother =>
      cases hload.symm.trans hrun
      exact not_hasLiveClaim_of_otherMaster? hb hfiled hplane (hnow ▸ hother) hne
  · exact absurd hd hmode
  · rw [hx] at hcases
    rw [heq] at h
    cases hcases with
    | atOnce => exact hjoin hw h
    | waits _ _ hrun =>
      cases hload.symm.trans hrun
      exact hjoin hw₁ h
    | leads _ hrun hother =>
      cases hload.symm.trans hrun
      exact not_hasLiveClaim_of_otherMaster? hb hfiled hplane (hnow ▸ hother) hne

/-- What `stop` leaves on the board: the record of a node that has terminated, unless it had before
or never started. -/
theorem stop_leaves (hmode : n.mode ≠ some .disabled) : Leaves shows n b (n.stop env w) := by
  rw [stop]
  dsimp only
  split
  · exact ⟨rfl, rfl, rfl, .inr ⟨rfl, hw⟩⟩
  · have hw' := henv.stopPersisting hw
    rw [henv.now_eq hw']
    exact ⟨rfl, rfl, rfl, .inl (shows_tell henv hw' hid rfl)⟩

end Rounds

/-- A `poll` of a master that is not outside the election is a `round`. -/
theorem poll_of_master (hs : n.state = .master) (hnone : n.mode ≠ none)
    (hmode : n.mode ≠ some .disabled) : (n.poll env w).2 = n.round env w := by
  obtain ⟨mode, hm⟩ := Option.ne_none_iff_exists'.1 hnone
  have hne : mode ≠ .disabled := fun h => hmode (h ▸ hm)
  simp [poll, hm, hs, hne]

/-- A node that has started is not master after `stop`. -/
theorem mode_eq_none_of_stop (h : (n.stop env w).1.state = .master) :
    n.mode = none ∧ n.state = .master := by
  rw [stop] at h
  dsimp only at h
  split at h
  · next hstop =>
    have hs : n.state = .master := h
    simp only [hs, reduceCtorEq, decide_false, Bool.or_false, Option.isNone_iff_eq_none] at hstop
    exact ⟨hstop, hs⟩
  · cases h

end Failover.Node
