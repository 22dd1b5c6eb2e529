import Failover.Node.Mastership
import Failover.Proofs.Plane.Election
import Failover.Proofs.Plane.Expiry
import Failover.Proofs.Store.Action

/-!
# A node before its plane

The nodes of a plane share a `Board`: the time, and the record that is stored for each node.
Surroundings show a board if publishing a record posts it there, loading the plane reads it, and
nothing else that a node has done to them touches it. Over such surroundings all that a node does
comes down to posting its own record as it is afterwards.

## Key results

- `Board.HasOneMaster.post`: a record that is posted keeps the master unique if it claims nothing or
  no other live claim is there
- `Board.HasOneMaster.later`: so does the passing of time
-/

namespace Failover

/-- What the nodes of a plane share: the time, and for each node the record that is stored of it. -/
structure Board where
  now : Timestamp
  record? : String → Option NodeRecord

namespace Board

/-- The board with a record in the place of its node, as `publish` leaves it. -/
def post (b : Board) (r : NodeRecord) : Board :=
  { b with record? := fun id => if id = r.nodeId then some r else b.record? id }

/-- Every record on the board stands in the place of its own `nodeId`. -/
def IsFiled (b : Board) : Prop := ∀ id r, b.record? id = some r → r.nodeId = id

/-- The record in the place of a node `claims` mastership and has not expired. -/
def HasLiveClaim (b : Board) (timeout : Duration) (id : String) : Prop :=
  ∃ r, b.record? id = some r ∧ r.isExpired b.now timeout = false ∧ r.claims = true

/-- At most one node has a live claim on the board: no two of them are both `HasLiveClaim`. -/
def HasOneMaster (b : Board) (timeout : Duration) : Prop :=
  ∀ i j, b.HasLiveClaim timeout i → b.HasLiveClaim timeout j → i = j

@[simp] theorem now_post (b : Board) (r : NodeRecord) : (b.post r).now = b.now := rfl

/-- What stands in a place after `post`. -/
theorem record?_post (b : Board) (r : NodeRecord) (id : String) :
    (b.post r).record? id = if id = r.nodeId then some r else b.record? id := rfl

/-- Of two records of one node that are `post`ed, the later stays. -/
theorem post_post (b : Board) {r s : NodeRecord} (h : r.nodeId = s.nodeId) :
    (b.post r).post s = b.post s := by
  simp only [post, Board.mk.injEq, true_and]
  refine funext fun id => ?_
  by_cases hid : id = s.nodeId
  · rw [if_pos hid, if_pos hid]
  · rw [if_neg hid, if_neg hid, if_neg (h ▸ hid)]

/-- A board stays `IsFiled` when a record is `post`ed. -/
theorem IsFiled.post {b : Board} (h : b.IsFiled) (r : NodeRecord) : (b.post r).IsFiled := by
  intro id q hq
  rw [record?_post] at hq
  split at hq
  · next hid =>
    cases hq
    exact hid.symm
  · exact h id q hq

/-- `post` changes nobody else's live claim. -/
theorem hasLiveClaim_post_of_ne {b : Board} {r : NodeRecord} {timeout : Duration} {id : String}
    (h : id ≠ r.nodeId) : (b.post r).HasLiveClaim timeout id ↔ b.HasLiveClaim timeout id := by
  rw [HasLiveClaim, record?_post, if_neg h]
  rfl

/-- A record that is `post`ed at its own time is a live claim exactly if it `claims` anything. -/
theorem hasLiveClaim_post_self {b : Board} {r : NodeRecord} (h : r.timestamp = b.now)
    (timeout : Duration) :
    (b.post r).HasLiveClaim timeout r.nodeId ↔ r.claims = true := by
  rw [HasLiveClaim, record?_post, if_pos rfl]
  constructor
  · rintro ⟨q, hq, -, hclaims⟩
    cases hq
    exact hclaims
  · exact fun hclaims => ⟨r, rfl, NodeRecord.isExpired_of_timestamp_eq h timeout, hclaims⟩

/-- The master stays unique if a record is `post`ed that claims nothing, or where no other node is
`HasLiveClaim`. -/
theorem HasOneMaster.post {b : Board} {timeout : Duration} (h : b.HasOneMaster timeout)
    {r : NodeRecord} (hr : r.claims = true → ∀ id, id ≠ r.nodeId → ¬ b.HasLiveClaim timeout id) :
    (b.post r).HasOneMaster timeout := by
  have hown (hi : (b.post r).HasLiveClaim timeout r.nodeId) : r.claims = true := by
    obtain ⟨q, hq, -, hclaims⟩ := hi
    rw [record?_post, if_pos rfl] at hq
    cases hq
    exact hclaims
  intro i j hi hj
  -- Only the record just posted can be a live claim that was none before.
  by_cases hir : i = r.nodeId <;> by_cases hjr : j = r.nodeId
  · rw [hir, hjr]
  · exact absurd ((hasLiveClaim_post_of_ne hjr).1 hj) (hr (hown (hir ▸ hi)) j hjr)
  · exact absurd ((hasLiveClaim_post_of_ne hir).1 hi) (hr (hown (hjr ▸ hj)) i hir)
  · exact h i j ((hasLiveClaim_post_of_ne hir).1 hi) ((hasLiveClaim_post_of_ne hjr).1 hj)

/-- The master stays unique as time goes on: a claim that is live later was live before. -/
theorem HasOneMaster.later {b : Board} {timeout : Duration} (h : b.HasOneMaster timeout)
    {now : Timestamp} (hnow : b.now ≤ now) : { b with now }.HasOneMaster timeout := by
  have hearlier {id : String} (hid : { b with now }.HasLiveClaim timeout id) :
      b.HasLiveClaim timeout id := by
    obtain ⟨r, hr, hlive, hclaims⟩ := hid
    exact ⟨r, hr, NodeRecord.isExpired_of_le hnow hlive, hclaims⟩
  exact fun i j hi hj => h i j (hearlier hi) (hearlier hj)

end Board

/-! ## Surroundings -/

/-- Surroundings that show a board to a node: `publish` posts there, `loadPlane` reads there, and
nothing else that the node does touches it. -/
structure Surroundings.Shows {ω : Type} (env : Surroundings ω) (shows : ω → Board → Prop) :
    Prop where
  now_eq : ∀ {w b}, shows w b → env.now w = b.now
  isFiled : ∀ {w b}, shows w b → b.IsFiled
  publish : ∀ {w b r}, shows w b → Path.isSingle r.nodeId = true →
    ∃ w', (env.publish r).run w = (.ok (), w') ∧ shows w' (b.post r)
  loadPlane : ∀ {w b}, shows w b → ∃ (plane : Plane) (w' : ω),
    env.loadPlane.run w = (.ok plane, w') ∧ shows w' b ∧ plane.IsFiled ∧
    ∀ id, plane.nodes.get? id = b.record? id
  takeOver : ∀ {w b}, shows w b → shows (env.takeOver w).2 b
  stopPersisting : ∀ {w b}, shows w b → shows (env.stopPersisting w) b
  refresh : ∀ {w b}, shows w b → shows (env.refresh w) b
  announce : ∀ {w b}, shows w b → shows (env.announce w) b

namespace Node

variable {ω : Type} {env : Surroundings ω} {shows : ω → Board → Prop} {n : Node} {b : Board} {w : ω}

/-- Every other live claim on the board is outranked by the `record` of the node, which is then a
claim too. -/
def Prevails (n : Node) (b : Board) : Prop :=
  ∀ id r, id ≠ n.id → b.record? id = some r → r.isExpired b.now n.timeout = false →
    r.claims = true → n.state = .master ∧ (n.record b.now).outranks r = true

/-- What a node leaves that has acted before a board: it is the same node, and its `record` is
posted there as it is now, unless nothing has changed. -/
structure Leaves (shows : ω → Board → Prop) (n : Node) (b : Board) (r : Node × ω) : Prop where
  id_eq : r.1.id = n.id
  timeout_eq : r.1.timeout = n.timeout
  mode_eq : r.1.mode = n.mode
  board : shows r.2 (b.post (r.1.record b.now)) ∨
    r.1.record b.now = n.record b.now ∧ shows r.2 b

/-- Where a node's own record was posted before, what it `Leaves` is its record as it is afterwards.
-/
theorem Leaves.shows_post {r : Node × ω}
    (h : Leaves shows n (b.post (n.record b.now)) r) : shows r.2 (b.post (r.1.record b.now)) := by
  have hboard := h.board
  rw [Board.now_post] at hboard
  -- Either it has been posted again, or it is still what was posted.
  rcases hboard with hw | ⟨hrecord, hw⟩
  · have hid : (n.record b.now).nodeId = (r.1.record b.now).nodeId := h.id_eq.symm
    rwa [Board.post_post b hid] at hw
  · rwa [← hrecord] at hw

/-- The `record` of a node claims mastership exactly while the node is master. -/
theorem claims_record (n : Node) (now : Timestamp) :
    (n.record now).claims = true ↔ n.state = .master := decide_eq_true_iff

end Node

end Failover
