import Failover.Proofs.Node.Fleet

/-!
# Joining beside a recorded master

A node that is told to start as master, or as a standby, first reads the plane and asks whether
another node is master there. It asks for the winner of an election in which a claim from its own
earlier life takes part. Where that claim outranks all others that are live, the node wins, and the
others go unnoticed.

## Key results

- `Node.otherMaster?_eq_none_iff`: when no other master is found on a board
- `Node.start_explicit`: what the start as master, as a standby and as a hot standby comes to
-/

namespace Failover

namespace Node

variable {ω : Type} {env : Surroundings ω} {shows : ω → Board → Prop} {n : Node} {b : Board} {w : ω}

/-- Every live claim of another node on the board is outranked by a live claim that the node itself
has there, from an earlier life. -/
def IsUnopposed (n : Node) (b : Board) : Prop :=
  ∀ id r, id ≠ n.id → b.record? id = some r → r.isExpired b.now n.timeout = false →
    r.claims = true →
    ∃ own, b.record? n.id = some own ∧ own.isExpired b.now n.timeout = false ∧
      own.claims = true ∧ own.outranks r = true

/-- A node without a live claim on the board `IsUnopposed` if no other node has one. -/
theorem isUnopposed_iff_of_not_hasLiveClaim (h : ¬ b.HasLiveClaim n.timeout n.id) :
    n.IsUnopposed b ↔ ∀ id, id ≠ n.id → ¬ b.HasLiveClaim n.timeout id := by
  constructor
  · rintro hn id hid ⟨r, hr, hlive, hclaims⟩
    obtain ⟨own, hown, hlive', hclaims', -⟩ := hn id r hid hr hlive hclaims
    exact h ⟨own, hown, hlive', hclaims'⟩
  · exact fun hn id r hid hr hlive hclaims => absurd ⟨r, hr, hlive, hclaims⟩ (hn id hid)

/-! ## The other master -/

section Plane

variable {plane : Plane} (hfiled : plane.IsFiled)
  (hplane : ∀ id, plane.nodes.get? id = b.record? id)
include hfiled hplane

/-- What `otherMaster?` finds is another node that `HasLiveClaim`. -/
theorem hasLiveClaim_of_otherMaster? {id : String} (h : n.otherMaster? plane b.now = some id) :
    id ≠ n.id ∧ b.HasLiveClaim n.timeout id := by
  -- It has won the election, and its record claims mastership.
  obtain ⟨helect, hother⟩ := Option.filter_eq_some_iff.1 h
  obtain ⟨hid, hclaims⟩ := Bool.and_eq_true_iff.1 hother
  cases hr : plane.nodes.get? id with
  | none =>
    rw [hr] at hclaims
    cases hclaims
  | some r =>
    rw [hr] at hclaims
    exact ⟨of_decide_eq_true hid, r, (hplane id).symm.trans hr,
      Plane.isExpired_of_elect hfiled helect hr, hclaims⟩

/-- `otherMaster?` finds none if and only if the node `IsUnopposed`. -/
theorem otherMaster?_eq_none_iff : n.otherMaster? plane b.now = none ↔ n.IsUnopposed b := by
  constructor
  · intro hnone id r hid hr hlive hclaims
    have hget := (hplane id).trans hr
    obtain ⟨best, helect, hbest, hbest', hbest'', hrank⟩ :=
      Plane.exists_leading_of_claims hfiled hget hlive hclaims
    -- The winner claims mastership, so it would have been found if it were another node.
    have hown : best.nodeId = n.id := by
      by_contra hne
      simp [otherMaster?, helect, hbest, hbest'', hne] at hnone
    refine ⟨best, hown ▸ (hplane _).symm.trans hbest, hbest', hbest'', ?_⟩
    refine (NodeRecord.outranks_or_outranks ?_).resolve_right hrank
    rw [hown, hfiled id r hget]
    exact hid.symm
  · intro hn
    by_contra hsome
    obtain ⟨id, hother⟩ := Option.ne_none_iff_exists'.1 hsome
    obtain ⟨hid, r, hr, hlive, hclaims⟩ := hasLiveClaim_of_otherMaster? hfiled hplane hother
    obtain ⟨own, hown, hlive', hclaims', hrank⟩ := hn id r hid hr hlive hclaims
    -- Then the node's own claim would have won.
    exact Plane.not_outranks_of_elect hfiled (Option.filter_eq_some_iff.1 hother).1
      ((hplane id).trans hr) ((hplane _).trans hown) hlive' hclaims' hrank

end Plane

/-! ## Starting -/

/-- What an explicit `start` comes to. As master, a node that `IsUnopposed` attempts its promotion,
and one that is not is told of another master and stays as it is. As a standby of either sort, a
node finds no master exactly if it is unopposed. -/
theorem start_explicit (henv : env.Shows shows) (hw : shows w b) (hmode : n.mode = none) :
    (n.IsUnopposed b → ∃ plane w₁ result n' w',
      env.loadPlane.run w = (.ok plane, w₁) ∧ shows w₁ b ∧
      { n with mode := some .master }.promote env b.now w₁ = (result, n', w') ∧
      (∀ e, result = .error e → n.start env .master w = (.error e, n', w')) ∧
      (result = .ok () →
        n.start env .master w = (n'.observe b.now (some plane)).join env w')) ∧
    (¬ n.IsUnopposed b → ∃ id w₁, shows w₁ b ∧ id ≠ n.id ∧ b.HasLiveClaim n.timeout id ∧
      n.start env .master w = (.error (.masterAlreadyPresent id), n, w₁)) ∧
    ∀ mode, mode = .standby ∨ mode = .hotStandby →
      ((n.start env mode w).1 = .error .noMasterPresent ↔ n.IsUnopposed b) := by
  obtain ⟨plane, w₁, hload, hw₁, hfiled, hplane⟩ := henv.loadPlane hw
  have hnow := henv.now_eq hw₁
  have hother := otherMaster?_eq_none_iff (n := n) hfiled hplane
  have hmaster : n.accept env .master w = n.acceptMaster env w := by
    rw [accept.eq_def, hmode]
    rfl
  refine ⟨fun hn => ?_, fun hn => ?_, fun mode hstandby => ?_⟩
  · obtain ⟨result, n', w', hpromote⟩ : ∃ result n' w',
        { n with mode := some .master }.promote env b.now w₁ = (result, n', w') := ⟨_, _, _, rfl⟩
    refine ⟨plane, w₁, result, n', w', hload, hw₁, hpromote, fun e he => ?_, fun hok => ?_⟩
    · rw [start, hmaster]
      simp only [acceptMaster, hload, hnow, hother.2 hn, hpromote, he]
    · rw [start, hmaster]
      simp only [acceptMaster, hload, hnow, hother.2 hn, hpromote, hok, reduceCtorEq, if_false]
  · obtain ⟨id, hid⟩ := Option.ne_none_iff_exists'.1 (mt hother.1 hn)
    obtain ⟨hne, hclaim⟩ := hasLiveClaim_of_otherMaster? hfiled hplane hid
    refine ⟨id, w₁, hw₁, hne, hclaim, ?_⟩
    rw [start, hmaster]
    simp only [acceptMaster, hload, hnow, hid]
  · have hwaits : n.accept env mode w = n.acceptStandby env mode w := by
      rw [accept.eq_def, hmode]
      rcases hstandby with rfl | rfl <;> rfl
    have hne : mode ≠ .disabled := by rcases hstandby with rfl | rfl <;> decide
    rw [start, hwaits, ← hother, acceptStandby, hload]
    simp only [hnow, if_neg hne]
    -- A node that joins beside another master is told of no error.
    cases hid : n.otherMaster? plane b.now with
    | none => simp
    | some id => simp [join]

/-- The record of a node that is master `since` some time. -/
private def claim (id : String) (timestamp since : Timestamp) : NodeRecord :=
  { nodeId := id, state := .master, timestamp, masterSince := some since }

/-- What a node finds that comes back: the claim of its earlier life, and an older claim of another
node. Both are live. -/
def returning : Commons Memory Unit :=
  ⟨(Memory.prepared.post (claim "b" 90 10)).post (claim "a" 80 20), 100, ()⟩

/-- What is on the board that the `returning` node finds. -/
private theorem record?_returning (id : String) : returning.store.record? id =
    if id = "a" then some (claim "a" 80 20)
    else if id = "b" then some (claim "b" 90 10) else none := by
  have ha : '/' ∉ (claim "a" 80 20).nodeId.toList := by decide
  have hb : '/' ∉ (claim "b" 90 10).nodeId.toList := by decide
  rw [returning, Memory.record?_post _ ha, Memory.record?_post _ hb, Memory.record?_prepared]
  rfl

/-- The `returning` node is promoted in spite of the other master, and finds none to stand by. -/
theorem start_explicit_returning :
    let env := ({} : Companion Unit).surroundings Memory.store
    let n : Node := { id := "a" }
    let b : Board := ⟨100, returning.store.record?⟩
    Commons.Shows (fun m => m) returning b ∧ b.HasLiveClaim n.timeout "b" ∧
      (n.start env .master returning).1 = .ok () ∧
      (n.start env .standby returning).1 = .error .noMasterPresent := by
  intro env n b
  have hshows : Commons.Shows (fun m => m) returning b :=
    ⟨(Memory.prepared_holdsRecords.post (by decide)).post (by decide), rfl⟩
  have hown : b.record? n.id = some (claim "a" 80 20) := by
    dsimp only [b, n]
    rw [record?_returning, if_pos rfl]
  have hother : b.record? "b" = some (claim "b" 90 10) := by
    dsimp only [b]
    rw [record?_returning, if_neg (by decide), if_pos rfl]
  -- The node's own claim is the later of the two, so it hides the other.
  have hunopposed : n.IsUnopposed b := by
    intro id r hid hr _ _
    refine ⟨claim "a" 80 20, hown, by decide, rfl, ?_⟩
    -- The only other record is that of the older claim.
    have hr : returning.store.record? id = some r := hr
    rw [record?_returning, if_neg hid] at hr
    split at hr
    · cases hr
      decide
    · cases hr
  obtain ⟨hmaster, -, hstandby⟩ :=
    start_explicit (n := n) (Companion.surroundings_shows Memory.mirrors {}) hshows rfl
  obtain ⟨plane, w₁, result, n', w', -, -, hpromote, -, hjoin⟩ := hmaster hunopposed
  have hok : result = .ok () := (congrArg Prod.fst hpromote).symm
  refine ⟨hshows, ⟨claim "b" 90 10, hother, by decide, rfl⟩, ?_,
    (hstandby .standby (.inl rfl)).2 hunopposed⟩
  rw [hjoin hok]
  rfl

end Node

end Failover
