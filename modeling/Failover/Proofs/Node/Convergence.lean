import Failover.Proofs.Node.Consistent
import Failover.Proofs.Node.Fleet

/-!
# Competing masters converge

Several nodes of a fleet may be master at once. If their claims are on the board and nobody else's
are, one claim goes before all others: the latest, and of those of one time that of the smallest
node id. Every poll of another master then makes it a standby, no poll makes a master, and the node
of the leading claim stays master as long as its record does not expire. So once every master has
polled only that node is left, in whatever order they do and whoever polls in between.

## Key results

- `Fleet.Competes.exists_leads`: among masters that all poll in a run one leads
- `Fleet.Yields.step`: what a poll does to a fleet that yields to one of its masters
- `Fleet.converges`: once every master has polled, the leading one is the only one
-/

namespace Failover

variable {σ ρ ω : Type}

namespace Node

variable {env : Surroundings ω} {n : Node} {w : ω}

/-- A master that is still master after a `round` publishes the same records as before. -/
theorem record_round (hs : n.state = .master) (h : (n.round env w).1.state = .master) :
    (n.round env w).1.record = n.record := by
  funext now
  rw [round] at h ⊢
  dsimp only at h ⊢
  split at h
  · simp only [settle, hs] at h ⊢
    -- A master that was not elected would have stepped down.
    split at h
    · next helected =>
      rw [if_pos helected]
      simp [observe, record, hs]
    · cases h
  · rw [checkSync] at h ⊢
    split at h
    · cases h
    · next hsync =>
      rw [if_neg hsync]
      rfl

end Node

namespace Fleet

/-- Masters that compete: each of them has its claim on the board, as it published it last, and no
other node `HasLiveClaim`. -/
structure Competes (held : σ → Memory) (timeout : Duration) (f : Fleet σ ρ) : Prop where
  sound : f.Sound held timeout
  consistent : ∀ id, (f.node id).Consistent
  published : ∀ id, (f.node id).state = .master →
    ∃ t, (f.board held).record? id = some ((f.node id).record t)
  hasLiveClaim_iff : ∀ id, (f.board held).HasLiveClaim timeout id ↔ (f.node id).state = .master

/-- A master leads whose recorded claim is later than that of any other master, or as late and of a
smaller node id: the order of `outranks`. -/
def Leads (held : σ → Memory) (f : Fleet σ ρ) (winner : String) : Prop :=
  (f.node winner).state = .master ∧ ∀ id, id ≠ winner → (f.node id).state = .master →
    ∀ r q, (f.board held).record? winner = some r → (f.board held).record? id = some q →
      q.claimTime < r.claimTime ∨ r.claimTime = q.claimTime ∧ winner < id

/-- A fleet yields to a master whose claim is on the board and `outranks` that of every other master
and every other live claim. -/
structure Yields (held : σ → Memory) (timeout : Duration) (winner : String) (f : Fleet σ ρ) :
    Prop where
  sound : f.Sound held timeout
  state_eq : (f.node winner).state = .master
  published : ∃ t, (f.board held).record? winner = some ((f.node winner).record t)
  outranks_master : ∀ id, id ≠ winner → (f.node id).state = .master →
    ∀ t t', ((f.node winner).record t).outranks ((f.node id).record t') = true
  outranks_claim : ∀ id r, id ≠ winner → (f.board held).record? id = some r →
    r.isExpired f.commons.now timeout = false → r.claims = true →
    ∀ t, ((f.node winner).record t).outranks r = true

variable {S : ObjectStore σ} {held : σ → Memory} {timeout : Duration} {f : Fleet σ ρ}
  {companion : String → Companion ρ} {winner : String}

/-! ## Who leads -/

/-- The `claimTime` of a master's record is that of the promotion, whenever it was published. -/
private theorem claimTime_record {n : Node} (hn : n.Consistent) (hs : n.state = .master)
    (t t' : Timestamp) : (n.record t).claimTime = (n.record t').claimTime := by
  obtain ⟨since, hsince⟩ := Option.ne_none_iff_exists'.1 (hn.masterSince_ne_none hs)
  simp [NodeRecord.claimTime, Node.record, hs, hsince]

/-- The claim that is stored of the node that an event polls, if it is master. -/
private def claim? (held : σ → Memory) (f : Fleet σ ρ) : Event → Option NodeRecord
  | .poll id => if (f.node id).state = .master then (f.board held).record? id else none
  | _ => none

/-- Among masters that all poll in a run one `Leads`. -/
theorem Competes.exists_leads (hf : f.Competes held timeout)
    (hmaster : ∃ id, (f.node id).state = .master) {es : List Event}
    (hall : ∀ id, (f.node id).state = .master → .poll id ∈ es) :
    ∃ winner, f.Leads held winner := by
  have hfiled := hf.sound.holdsRecords.nodeId_eq
  -- The claims of the masters, of which each is found under an id that polls.
  have hclaim {id : String} (hs : (f.node id).state = .master) {r : NodeRecord}
      (hr : (f.board held).record? id = some r) : r ∈ es.filterMap (f.claim? held) := by
    refine List.mem_filterMap.2 ⟨.poll id, hall id hs, ?_⟩
    show (if _ then _ else _) = _
    rw [if_pos hs, hr]
  obtain ⟨id, hs⟩ := hmaster
  obtain ⟨t, ht⟩ := hf.published id hs
  -- The run names finitely many nodes, so one of the stored claims goes before the others.
  cases hbest : NodeRecord.leading (es.filterMap (f.claim? held)) with
  | none =>
    have hnil := NodeRecord.leading_eq_none.1 hbest
    have hmem := hclaim hs ht
    rw [hnil] at hmem
    cases hmem
  | some best =>
    obtain ⟨e, -, he⟩ := List.mem_filterMap.1 (NodeRecord.leading_mem hbest)
    cases e with
    | start | stop | tick => cases he
    | poll winner =>
      have he : (if (f.node winner).state = .master then (f.board held).record? winner else none) =
          some best := he
      split at he
      · next hwinner =>
        refine ⟨winner, hwinner, fun i hi hsi r q hr hq => ?_⟩
        obtain rfl : best = r := Option.some.inj (he.symm.trans hr)
        have hid : best.nodeId = winner := hfiled winner best hr
        have hid' : q.nodeId = i := hfiled i q hq
        have hnot := NodeRecord.not_outranks_leading hbest q (hclaim hsi hq)
        have hrank : best.outranks q = true := by
          have hne : best.nodeId ≠ q.nodeId := by
            rw [hid, hid']
            exact hi.symm
          exact (NodeRecord.outranks_or_outranks hne).resolve_right hnot
        rw [← hid, ← hid']
        exact NodeRecord.outranks_iff.1 hrank
      · cases he

/-- Masters that compete yield to the one that `Leads`. -/
theorem Competes.yields (hf : f.Competes held timeout) (h : f.Leads held winner) :
    f.Yields held timeout winner := by
  obtain ⟨hwinner, hleads⟩ := h
  obtain ⟨t₀, ht₀⟩ := hf.published winner hwinner
  have hmaster : ∀ id, id ≠ winner → (f.node id).state = .master →
      ∀ t t', ((f.node winner).record t).outranks ((f.node id).record t') = true := by
    intro id hne hs t t'
    obtain ⟨t₁, ht₁⟩ := hf.published id hs
    have hrank := hleads id hne hs _ _ ht₀ ht₁
    rw [claimTime_record (hf.consistent winner) hwinner t₀ t,
      claimTime_record (hf.consistent id) hs t₁ t'] at hrank
    refine NodeRecord.outranks_iff.2 ?_
    show _ ∨ _ ∧ (f.node winner).id < (f.node id).id
    rwa [hf.sound.id_eq, hf.sound.id_eq]
  refine ⟨hf.sound, hwinner, ⟨t₀, ht₀⟩, hmaster, fun id r hne hr hlive hclaims t => ?_⟩
  -- A live claim is that of a master, as it was published last.
  have hs := (hf.hasLiveClaim_iff id).1 ⟨r, hr, hlive, hclaims⟩
  obtain ⟨t₁, ht₁⟩ := hf.published id hs
  obtain rfl : r = (f.node id).record t₁ := Option.some.inj (hr.symm.trans ht₁)
  exact hmaster id hne hs t t₁

/-! ## Polls -/

/-- A poll of `id` changes no other node. -/
private theorem node_step_poll (companion : String → Companion ρ) {i id : String} (hi : i ≠ id) :
    (f.step S companion (.poll id)).node i = f.node i :=
  if_neg hi

section Steps

variable (companion) (hS : S.Mirrors held) (hf : f.Yields held timeout winner)
include hS hf

/-- The node that the fleet `Yields` to stays master when it polls, with the same claim. -/
private theorem Yields.poll_winner (hid : Path.isSingle winner = true) :
    ((f.step S companion (.poll winner)).node winner).state = .master ∧
      ((f.step S companion (.poll winner)).node winner).record = (f.node winner).record ∧
      (f.step S companion (.poll winner)).board held =
        (f.board held).post ((f.node winner).record f.commons.now) := by
  have henv := (companion winner).surroundings_shows hS
  have hw := shows_commons hf.sound
  have hid' : Path.isSingle (f.node winner).id = true := by rwa [hf.sound.id_eq]
  have hpoll : ((f.node winner).poll ((companion winner).surroundings S) f.commons).2 =
      (f.node winner).round ((companion winner).surroundings S) f.commons :=
    Node.poll_of_master hf.state_eq (hf.sound.mode_ne_none winner hf.state_eq)
      (hf.sound.mode_ne winner)
  -- Every other live claim is outranked, so the node prevails on the board.
  have hprevails : (f.node winner).Prevails (f.board held) := by
    intro i r hi hr hlive hclaims
    rw [hf.sound.id_eq] at hi
    rw [hf.sound.timeout_eq] at hlive
    exact ⟨hf.state_eq, hf.outranks_claim i r hi hr hlive hclaims f.commons.now⟩
  have hstate := Node.round_of_prevails henv hw hid' hf.state_eq hprevails
  have hrecord := Node.record_round hf.state_eq hstate
  have hboard := Node.shows_round henv hw hid'
  rw [hrecord] at hboard
  have hnode : (f.step S companion (.poll winner)).node winner =
      ((f.node winner).round ((companion winner).surroundings S) f.commons).1 := by
    rw [step, node_act, if_pos rfl, hpoll]
  refine ⟨hnode ▸ hstate, hnode ▸ hrecord, ?_⟩
  rw [step, board, commons_act, hpoll]
  exact hboard.2.symm

/-- Any node but the `winner` is no master after it has polled, as long as the leading claim is
live. -/
private theorem Yields.poll_other (hlive : (f.board held).HasLiveClaim timeout winner) {id : String}
    (hid : Path.isSingle id = true) (hne : id ≠ winner) :
    ((f.step S companion (.poll id)).node id).state ≠ .master := by
  have henv := (companion id).surroundings_shows hS
  have hw := shows_commons hf.sound
  have hid' : Path.isSingle (f.node id).id = true := by rwa [hf.sound.id_eq]
  obtain ⟨r, hr, hexpired, hclaims⟩ := hlive
  obtain ⟨t, ht⟩ := hf.published
  -- A round that ends with the node as master would have it prevail over the leading claim.
  have hround : ((f.node id).round ((companion id).surroundings S) f.commons).1.state ≠ .master := by
    intro hs
    have hne' : winner ≠ (f.node id).id := by
      rw [hf.sound.id_eq]
      exact hne.symm
    obtain ⟨hmaster, hrank⟩ := Node.prevails_of_round henv hw hid' hs winner r hne' hr
      (by rwa [hf.sound.timeout_eq]) hclaims
    obtain rfl : r = (f.node winner).record t := Option.some.inj (hr.symm.trans ht)
    have hrank' := hf.outranks_master id hne hmaster t f.commons.now
    exact NodeRecord.not_outranks_self _ (NodeRecord.outranks_trans hrank hrank')
  rw [step, node_act, if_pos rfl]
  by_cases hs : (f.node id).state = .master
  · rwa [Node.poll_of_master hs (hf.sound.mode_ne_none id hs) (hf.sound.mode_ne id)]
  · have hpoll : ((f.node id).poll ((companion id).surroundings S) f.commons).2 =
        (f.node id, f.commons) ∨ _ := Node.poll_eq (f.node id) f.commons
    rcases hpoll with heq | ⟨-, heq⟩
    · rwa [heq]
    · rwa [heq]

/-- A node that is no master after it has polled leaves everybody else's record on the board, and no
claim that was not there. -/
private theorem Yields.board_poll_other {id : String} (hid : Path.isSingle id = true)
    (hnot : ((f.step S companion (.poll id)).node id).state ≠ .master) :
    (f.step S companion (.poll id)).commons.now = f.commons.now ∧
      (∀ i, i ≠ id →
        ((f.step S companion (.poll id)).board held).record? i = (f.board held).record? i) ∧
      ∀ i r, ((f.step S companion (.poll id)).board held).record? i = some r → r.claims = true →
        (f.board held).record? i = some r := by
  have hid' : Path.isSingle (f.node id).id = true := by rwa [hf.sound.id_eq]
  have hleaves := Node.poll_leaves ((companion id).surroundings_shows hS)
    (shows_commons hf.sound) hid'
  let n' := ((f.node id).poll ((companion id).surroundings S) f.commons).2.1
  have hnot' : n'.state ≠ .master := by
    rwa [step, node_act, if_pos rfl] at hnot
  have hself : (n'.record f.commons.now).nodeId = id :=
    hleaves.id_eq.trans (hf.sound.id_eq id)
  -- Either its record is posted, which claims nothing, or the board is as it was.
  rcases board_act (x := fun n w => (n.poll ((companion id).surroundings S) w).2) hleaves
    with hboard | ⟨-, hboard⟩
  · have hboard : (f.step S companion (.poll id)).board held =
        (f.board held).post (n'.record f.commons.now) := hboard
    rw [hboard]
    refine ⟨congrArg Board.now hboard, fun i hi => ?_, fun i r hr hclaims => ?_⟩
    · rw [Board.record?_post, hself, if_neg hi]
    · rw [Board.record?_post, hself] at hr
      split at hr
      · obtain rfl := Option.some.inj hr
        exact absurd ((Node.claims_record n' _).1 hclaims) hnot'
      · exact hr
  · have hboard : (f.step S companion (.poll id)).board held = f.board held := hboard
    rw [hboard]
    exact ⟨congrArg Board.now hboard, fun _ _ => rfl, fun _ _ hr _ => hr⟩

/-- The fleet still `Yields` to the leading master when that one has polled. -/
private theorem Yields.step_poll_winner (hid : Path.isSingle winner = true)
    (hsound : (f.step S companion (.poll winner)).Sound held timeout) :
    (f.step S companion (.poll winner)).Yields held timeout winner := by
  obtain ⟨hstate, hrecord, hboard⟩ := hf.poll_winner companion hS hid
  have hself : ((f.node winner).record f.commons.now).nodeId = winner := hf.sound.id_eq winner
  refine ⟨hsound, hstate, ⟨f.commons.now, ?_⟩, fun i hi hs t t' => ?_,
    fun i r hi hr hlive hclaims t => ?_⟩
  · rw [hboard, Board.record?_post, if_pos hself.symm, hrecord]
  · rw [node_step_poll companion hi] at hs ⊢
    rw [hrecord]
    exact hf.outranks_master i hi hs t t'
  · -- Its record is posted again, of the same claim; all others are as they were.
    have hnow : (f.step S companion (.poll winner)).commons.now = f.commons.now :=
      congrArg Board.now hboard
    rw [hboard, Board.record?_post, if_neg (by rwa [hself])] at hr
    rw [hnow] at hlive
    rw [hrecord]
    exact hf.outranks_claim i r hi hr hlive hclaims t

/-- The fleet still `Yields` to the leading master when another node has polled that is no master
afterwards. -/
private theorem Yields.step_poll_other {id : String} (hid : Path.isSingle id = true)
    (hne : id ≠ winner) (hnot : ((f.step S companion (.poll id)).node id).state ≠ .master)
    (hsound : (f.step S companion (.poll id)).Sound held timeout) :
    (f.step S companion (.poll id)).Yields held timeout winner := by
  have hwinner : (f.step S companion (.poll id)).node winner = f.node winner :=
    node_step_poll companion hne.symm
  obtain ⟨hnow, hkept, hclaim⟩ := hf.board_poll_other companion hS hid hnot
  refine ⟨hsound, hwinner ▸ hf.state_eq, ?_, fun i hi hs t t' => ?_,
    fun i r hi hr hlive hclaims t => ?_⟩
  · rw [hkept winner hne.symm, hwinner]
    exact hf.published
  · -- The one that has polled is no master, so every master is as it was.
    have hi' : i ≠ id := fun heq => hnot (heq ▸ hs)
    rw [node_step_poll companion hi'] at hs ⊢
    rw [hwinner]
    exact hf.outranks_master i hi hs t t'
  · rw [hnow] at hlive
    rw [hwinner]
    exact hf.outranks_claim i r hi (hclaim i r hr hclaims) hlive hclaims t

end Steps

/-- An event of a run of polls: a node polls, or time passes. -/
def Event.IsQuiet : Event → Prop
  | .poll _ | .tick _ => True
  | .start .. | .stop _ => False

/-- A poll makes nobody master, and whoever polls beside the leading master is none afterwards. The
fleet still `Yields` to that master, if its record has not expired. -/
theorem Yields.step (hS : S.Mirrors held) (hf : f.Yields held timeout winner)
    (hlive : (f.board held).HasLiveClaim timeout winner) {e : Event}
    (he : e.IsProper f.commons.now) (hquiet : e.IsQuiet) :
    (f.step S companion e).Yields held timeout winner ∧
      ∀ id, ((f.step S companion e).node id).state = .master →
        (f.node id).state = .master ∧ (e = .poll id → id = winner) := by
  have hsound : (f.step S companion e).Sound held timeout := (hf.sound.step hS he).1
  cases e with
  | start | stop => exact hquiet.elim
  | tick later =>
    refine ⟨⟨hsound, hf.state_eq, hf.published, hf.outranks_master, fun id r hne hr hlive' => ?_⟩,
      fun id hs => ⟨hs, nofun⟩⟩
    -- What is live later was live before.
    exact hf.outranks_claim id r hne hr (NodeRecord.isExpired_of_le he hlive')
  | poll id =>
    by_cases hid : id = winner
    · subst hid
      refine ⟨hf.step_poll_winner companion hS he hsound, fun i hs => ⟨?_, fun heq => ?_⟩⟩
      · by_cases hi : i = id
        · rw [hi]
          exact hf.state_eq
        · rwa [node_step_poll companion hi] at hs
      · cases heq
        rfl
    · have hnot := hf.poll_other companion hS hlive he hid
      refine ⟨hf.step_poll_other companion hS he hid hnot hsound, fun i hs => ?_⟩
      have hi : i ≠ id := fun heq => hnot (heq ▸ hs)
      rw [node_step_poll companion hi] at hs
      refine ⟨hs, fun heq => ?_⟩
      cases heq
      exact absurd rfl hi

/-! ## Runs -/

section Runs

variable (hS : S.Mirrors held)
include hS

/-- Over a run of polls the fleet still `Yields` to a master whose record does not expire, no event
makes anybody master, and whoever polls beside that master is none afterwards. -/
theorem Yields.run (hf : f.Yields held timeout winner) {es : List Event}
    (hes : Proper f.commons.now es) (hquiet : ∀ e ∈ es, e.IsQuiet)
    (hlive : ∀ pre, pre <+: es → ∀ r, ((f.run S companion pre).board held).record? winner = some r →
      r.isExpired (f.run S companion pre).commons.now timeout = false) :
    (f.run S companion es).Yields held timeout winner ∧
      (∀ id, ((f.run S companion es).node id).state = .master →
        (f.node id).state = .master ∧ (.poll id ∈ es → id = winner)) ∧
      ∀ pre e, pre ++ [e] <+: es → ∀ id,
        ((f.run S companion (pre ++ [e])).node id).state = .master →
          ((f.run S companion pre).node id).state = .master := by
  -- By induction over the run: what `Yields.step` keeps is what the rest of the run starts from.
  induction es generalizing f with
  | nil => exact ⟨hf, fun id hs => ⟨hs, nofun⟩, fun pre e hpre => by simp at hpre⟩
  | cons e es ih =>
    obtain ⟨hnil, hcons⟩ := forall_prefix_cons.1 hlive
    have hclaim : (f.board held).HasLiveClaim timeout winner := by
      obtain ⟨t, ht⟩ := hf.published
      exact ⟨_, ht, hnil _ ht, (Node.claims_record _ t).2 hf.state_eq⟩
    obtain ⟨hstep, hmaster⟩ : (f.step S companion e).Yields held timeout winner ∧ _ :=
      hf.step hS hclaim hes.1 (hquiet e List.mem_cons_self)
    have hnow : (f.step S companion e).commons.now = e.after f.commons.now :=
      (hf.sound.step hS hes.1).2
    obtain ⟨hrun, hmaster', hevents⟩ := ih hstep (hnow ▸ hes.2)
      (fun e he => hquiet e (List.mem_cons_of_mem _ he)) hcons
    refine ⟨hrun, fun id hs => ?_, fun pre e' hpre => ?_⟩
    · obtain ⟨hs', hpolled⟩ := hmaster' id hs
      obtain ⟨hs'', hpolled'⟩ := hmaster id hs'
      refine ⟨hs'', fun hmem => ?_⟩
      -- It polls now or later.
      rcases List.mem_cons.1 hmem with heq | hmem
      · exact hpolled' heq.symm
      · exact hpolled hmem
    · cases pre with
      | nil =>
        obtain ⟨rfl, -⟩ := List.cons_prefix_cons.1 hpre
        exact fun id hs => (hmaster id hs).1
      | cons a pre =>
        obtain ⟨rfl, hrest⟩ := List.cons_prefix_cons.1 hpre
        exact hevents pre e' hrest

end Runs

/-! ## How long a record lasts -/

/-- The clock of a `Proper` run never goes back. -/
private theorem le_foldl_after {now : Timestamp} {es : List Event} (hes : Proper now es) :
    now ≤ es.foldl Event.after now := by
  induction es generalizing now with
  | nil => exact Int64.le_refl now
  | cons e es ih =>
    refine Int64.le_trans ?_ (ih hes.2)
    cases e with
    | tick later => exact hes.1
    | start | poll | stop => exact Int64.le_refl now

/-- An event leaves the record of the leading master or puts a younger one in its place. -/
private theorem Yields.younger_of_step (companion : String → Companion ρ) (hS : S.Mirrors held)
    (hf : f.Yields held timeout winner) {e : Event} (he : e.IsProper f.commons.now)
    (hquiet : e.IsQuiet) {t : Timestamp}
    (ht : (f.board held).record? winner = some ((f.node winner).record t))
    (hle : t ≤ f.commons.now)
    (hlive : ((f.node winner).record t).isExpired f.commons.now timeout = false) :
    ∃ t', ((f.step S companion e).board held).record? winner =
        some (((f.step S companion e).node winner).record t') ∧
      t ≤ t' ∧ t' ≤ (f.step S companion e).commons.now := by
  have hnow : (f.step S companion e).commons.now = e.after f.commons.now :=
    (hf.sound.step hS he).2
  cases e with
  | start | stop => exact hquiet.elim
  | tick later => exact ⟨t, ht, Int64.le_refl t, Int64.le_trans hle he⟩
  | poll id =>
    -- The leading master posts its record anew; any other leaves it alone.
    by_cases hid : id = winner
    · subst hid
      obtain ⟨-, hrecord, hboard⟩ := hf.poll_winner companion hS he
      have hself : ((f.node id).record f.commons.now).nodeId = id := hf.sound.id_eq id
      refine ⟨f.commons.now, ?_, hle, hnow ▸ Int64.le_refl _⟩
      rw [hboard, Board.record?_post, if_pos hself.symm, hrecord]
    · have hclaim : (f.board held).HasLiveClaim timeout winner :=
        ⟨_, ht, hlive, (Node.claims_record _ t).2 hf.state_eq⟩
      have hnot := hf.poll_other companion hS hclaim he hid
      obtain ⟨-, hkept, -⟩ := hf.board_poll_other companion hS he hnot
      refine ⟨t, ?_, Int64.le_refl t, hnow ▸ hle⟩
      rw [hkept winner (Ne.symm hid), node_step_poll companion (Ne.symm hid)]
      exact ht

/-- In a run that is over before the record of the leading master expires that record never does, as
it is only ever replaced by a younger one (`Yields.younger_of_step`). -/
theorem Yields.isExpired_of_run (hS : S.Mirrors held) (hf : f.Yields held timeout winner)
    {es : List Event} (hes : Proper f.commons.now es) (hquiet : ∀ e ∈ es, e.IsQuiet) {t : Timestamp}
    (ht : (f.board held).record? winner = some ((f.node winner).record t))
    (hle : t ≤ f.commons.now)
    (hend : ((f.node winner).record t).isExpired (es.foldl Event.after f.commons.now) timeout =
      false) :
    ∀ pre, pre <+: es → ∀ r, ((f.run S companion pre).board held).record? winner = some r →
      r.isExpired (f.run S companion pre).commons.now timeout = false := by
  induction es generalizing f t with
  | nil =>
    intro pre hpre r hr
    obtain rfl := List.prefix_nil.1 hpre
    obtain rfl := Option.some.inj (hr.symm.trans ht)
    exact hend
  | cons e es ih =>
    -- What has not expired at the end of the run has not expired before.
    have hlive : ((f.node winner).record t).isExpired f.commons.now timeout = false :=
      NodeRecord.isExpired_of_le (le_foldl_after hes) hend
    have hclaim : (f.board held).HasLiveClaim timeout winner :=
      ⟨_, ht, hlive, (Node.claims_record _ t).2 hf.state_eq⟩
    have hquiet' := hquiet e List.mem_cons_self
    obtain ⟨hstep, -⟩ : (f.step S companion e).Yields held timeout winner ∧ _ :=
      hf.step hS hclaim hes.1 hquiet'
    have hnow : (f.step S companion e).commons.now = e.after f.commons.now :=
      (hf.sound.step hS hes.1).2
    obtain ⟨t', ht', htt', hle'⟩ :=
      hf.younger_of_step companion hS hes.1 hquiet' ht hle hlive
    refine forall_prefix_cons.2 ⟨fun r hr => ?_, ih hstep (hnow ▸ hes.2)
      (fun e he => hquiet e (List.mem_cons_of_mem _ he)) ht' hle' ?_⟩
    · obtain rfl := Option.some.inj (hr.symm.trans ht)
      exact hlive
    · rw [hnow]
      exact NodeRecord.isExpired_of_younger (r := (f.node winner).record t)
        (q := ((f.step S companion e).node winner).record t') htt' hend

/-! ## Convergence -/

/-- Masters of which `Competes` holds converge. One of them `Leads`; if its record does not expire
while all the masters poll, in any order and among any other polls, it is the only master in the
end, and nobody was made master. -/
theorem converges (companion : String → Companion ρ) (hS : S.Mirrors held)
    (hf : f.Competes held timeout)
    (hmaster : ∃ id, (f.node id).state = .master) {es : List Event}
    (hes : Proper f.commons.now es) (hquiet : ∀ e ∈ es, e.IsQuiet)
    (hall : ∀ id, (f.node id).state = .master → .poll id ∈ es) :
    ∃ winner, f.Leads held winner ∧
      ((∀ pre, pre <+: es → ∀ r,
        ((f.run S companion pre).board held).record? winner = some r →
          r.isExpired (f.run S companion pre).commons.now timeout = false) →
        (∀ id, ((f.run S companion es).node id).state = .master ↔ id = winner) ∧
        ∀ pre e, pre ++ [e] <+: es → ∀ id,
          ((f.run S companion (pre ++ [e])).node id).state = .master →
            ((f.run S companion pre).node id).state = .master) := by
  obtain ⟨winner, hleads⟩ := hf.exists_leads hmaster hall
  refine ⟨winner, hleads, fun hlive => ?_⟩
  -- Every master has polled, so by then each is the winner or none.
  obtain ⟨hend, hmasters, hevents⟩ := (hf.yields hleads).run hS hes hquiet hlive
  refine ⟨fun id => ⟨fun hs => ?_, fun hid => ?_⟩, hevents⟩
  · obtain ⟨hs', hpolled⟩ := hmasters id hs
    exact hpolled (hall id hs')
  · rw [hid]
    exact hend.state_eq

/-- Two masters that were promoted at one time, a standby, and nodes that have not started. -/
def rival (id : String) : Node :=
  if id = "a" ∨ id = "b" then
    { id, timeout := .ofMillis 30000, mode := some .auto, state := .master, reported := .master,
      masterSince := some 5 }
  else if id = "c" then
    { id, timeout := .ofMillis 30000, mode := some .auto, state := .standby, reported := .standby }
  else { id, timeout := .ofMillis 30000 }

/-- The nodes of `rival` some time after both masters have published their claims. -/
def rivals : Fleet Memory Unit where
  node := rival
  commons :=
    ⟨(Memory.prepared.post ((rival "a").record 90)).post ((rival "b").record 90), 100, ()⟩

/-- What is on the board of the `rivals`. -/
private theorem record?_rivals (id : String) : (rivals.board fun m => m).record? id =
    if id = "a" ∨ id = "b" then some ((rival id).record 90) else none := by
  have ha : '/' ∉ ((rival "a").record 90).nodeId.toList := by decide
  have hb : '/' ∉ ((rival "b").record 90).nodeId.toList := by decide
  show ((Memory.prepared.post ((rival "a").record 90)).post ((rival "b").record 90)).record? id = _
  rw [Memory.record?_post _ hb, Memory.record?_post _ ha, Memory.record?_prepared]
  by_cases hidb : id = "b"
  · subst hidb
    rfl
  · by_cases hida : id = "a"
    · subst hida
      rfl
    · have hidb' : id ≠ ((rival "b").record 90).nodeId := hidb
      have hida' : id ≠ ((rival "a").record 90).nodeId := hida
      rw [if_neg hidb', if_neg hida', if_neg (not_or.2 ⟨hida, hidb⟩)]

/-- The masters among the `rival` nodes are `a` and `b`. -/
private theorem rival_cases (id : String) :
    (id = "a" ∨ id = "b") ∧ (rival id).state = .master ∨
      ¬ (id = "a" ∨ id = "b") ∧ (rival id).state ≠ .master := by
  rw [rival]
  split
  · next h => exact .inl ⟨h, rfl⟩
  · next h =>
    refine .inr ⟨h, ?_⟩
    split <;> nofun

/-- The `rivals` compete, as each master has published its claim. -/
private theorem rivals_competes : rivals.Competes (fun m => m) (.ofMillis 30000) := by
  have hrival (id : String) : (rival id).Consistent ∧ (rival id).id = id ∧
      (rival id).timeout = .ofMillis 30000 ∧ (rival id).mode ≠ some .disabled := by
    rw [rival]
    split
    · exact ⟨⟨iff_of_true rfl rfl, fun _ => nofun, fun _ => nofun⟩, rfl, rfl, nofun⟩
    · split <;> exact ⟨⟨iff_of_false nofun nofun, nofun, nofun⟩, rfl, rfl, nofun⟩
  have hpublished {id : String} (hs : (rival id).state = .master) :
      (rivals.board fun m => m).record? id = some ((rival id).record 90) := by
    rw [record?_rivals, if_pos]
    rcases rival_cases id with ⟨h, -⟩ | ⟨-, h⟩
    · exact h
    · exact absurd hs h
  -- The claims are ten milliseconds old.
  have hlive {id : String} (hs : (rival id).state = .master) :
      (rivals.board fun m => m).HasLiveClaim (.ofMillis 30000) id := by
    refine ⟨_, hpublished hs, ?_, (Node.claims_record _ _).2 hs⟩
    show decide ((Duration.ofMillis 30000).asTimestamp < Timestamp.since 100 90) = false
    decide
  refine ⟨⟨?_, fun id => (hrival id).2.1, fun id => (hrival id).2.2.1, fun id => (hrival id).2.2.2,
      fun id => (hrival id).1.mode_ne_none, fun id hs => ⟨_, hpublished hs, ?_⟩⟩,
    fun id => (hrival id).1, fun id hs => ⟨90, hpublished hs⟩, fun id => ⟨?_, hlive⟩⟩
  · exact (Memory.prepared_holdsRecords.post (by decide)).post (by decide)
  · exact (Node.claims_record _ _).2 hs
  · rintro ⟨r, hr, -, -⟩
    rw [record?_rivals] at hr
    rcases rival_cases id with ⟨-, h⟩ | ⟨h, -⟩
    · exact h
    · rw [if_neg h] at hr
      cases hr

/-- The standby of the `rivals` polls before and after the masters do. -/
def rivalsPoll : List Event := [.poll "c", .poll "b", .tick 200, .poll "a", .poll "c"]

/-- When the `rivals` have all polled, of the two masters the one with the smaller id is left. -/
theorem converges_rivals :
    let f := rivals.run Memory.store (fun _ => {}) rivalsPoll
    (f.node "a").state = .master ∧ (f.node "b").state ≠ .master ∧
      (f.node "c").state ≠ .master := by
  have hall (id : String) (hs : (rivals.node id).state = .master) : .poll id ∈ rivalsPoll := by
    rcases rival_cases id with ⟨rfl | rfl, -⟩ | ⟨-, h⟩
    · decide
    · decide
    · exact absurd hs h
  have hproper : Proper rivals.commons.now rivalsPoll := by
    simp only [rivalsPoll, Proper, Event.IsProper, Event.after]
    decide
  have hquiet : ∀ e ∈ rivalsPoll, e.IsQuiet := by simp [rivalsPoll, Event.IsQuiet]
  obtain ⟨winner, ⟨hmaster, hleads⟩, hconverges⟩ :=
    converges (fun _ => {}) Memory.mirrors rivals_competes ⟨"a", rfl⟩ hproper hquiet hall
  -- Of claims of one time that of the smaller id leads.
  have hwinner : winner = "a" := by
    rcases rival_cases winner with ⟨h | h, -⟩ | ⟨-, h⟩
    · exact h
    · subst h
      have hrank := hleads "a" (by decide) rfl _ _ (record?_rivals "b") (record?_rivals "a")
      revert hrank
      decide
    · exact absurd hmaster h
  subst hwinner
  -- The run is over long before the record of the leading master expires.
  have hyields := rivals_competes.yields ⟨hmaster, hleads⟩
  have hend : decide ((Duration.ofMillis 30000).asTimestamp < Timestamp.since 200 90) = false := by
    decide
  have hiff := (hconverges (hyields.isExpired_of_run Memory.mirrors hproper hquiet
    (record?_rivals "a") (by decide) hend)).1
  exact ⟨(hiff "a").2 rfl, fun h => absurd ((hiff "b").1 h) (by decide),
    fun h => absurd ((hiff "c").1 h) (by decide)⟩

end Fleet

end Failover
