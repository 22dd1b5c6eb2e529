import Failover.Plane.Basic
import Failover.Proofs.SortedMap

/-!
# Who wins an election

Claims to mastership are ordered by rank, and the leading one of a list is the one that no other
outranks. In a plane whose records are filed under their own nodes this says who is elected, in
terms of what is found under each node id.

## Key results

- `NodeRecord.not_outranks_leading`: no claim outranks the leading one
- `Plane.ofRecords_eq_of_nodes`: the records of a plane settle its master
- `Plane.get?_nodes_apply_node`: what a plane shows after one record was put in
- `Plane.elect_eq_self`: a node that claims mastership is elected exactly if it outranks all live
  claims
- `Plane.elect_eq_self_of_not_claims`: a node that claims nothing is elected exactly if nobody does
  and it goes before all others
- `Plane.not_claims_of_elect_eq`: a node that claims nothing is elected only where no live claim is
-/

namespace Failover

namespace NodeRecord

variable {a b c : NodeRecord}

/-- A record `claims` mastership if its state is `master`. -/
theorem claims_iff : a.claims = true ↔ a.state = .master := by
  rw [claims, decide_eq_true_eq]

/-- Whoever `claims` mastership `isEligible`. -/
theorem isEligible_of_claims (h : a.claims = true) : a.state.isEligible = true := by
  rw [claims_iff.1 h]
  rfl

/-! ## Rank -/

/-- What `outranks` says, as a proposition. -/
theorem outranks_iff : a.outranks b = true ↔
    b.claimTime < a.claimTime ∨ a.claimTime = b.claimTime ∧ a.nodeId < b.nodeId := by
  simp [outranks]

/-- No claim `outranks` itself. -/
theorem not_outranks_self (a : NodeRecord) : ¬ a.outranks a = true := by
  rw [outranks_iff]
  rintro (h | ⟨-, h⟩)
  · exact Int64.lt_irrefl h
  · exact String.lt_irrefl _ h

/-- `outranks` is transitive. -/
theorem outranks_trans (hab : a.outranks b = true) (hbc : b.outranks c = true) :
    a.outranks c = true := by
  rw [outranks_iff] at *
  rcases hab with hab | ⟨hab, hab'⟩ <;> rcases hbc with hbc | ⟨hbc, hbc'⟩
  · exact .inl (Int64.lt_trans hbc hab)
  · exact .inl (hbc ▸ hab)
  · exact .inl (hab ▸ hbc)
  · exact .inr ⟨hab.trans hbc, String.lt_trans hab' hbc'⟩

/-- Of the claims of two nodes one `outranks` the other. -/
theorem outranks_or_outranks (h : a.nodeId ≠ b.nodeId) :
    a.outranks b = true ∨ b.outranks a = true := by
  rw [outranks_iff, outranks_iff]
  -- Claims of one time are ranked by id.
  by_cases htime : a.claimTime = b.claimTime
  · by_cases hid : a.nodeId < b.nodeId
    · exact .inl (.inr ⟨htime, hid⟩)
    · refine .inr (.inr ⟨htime.symm, ?_⟩)
      exact String.not_le.1 fun hle => h (String.le_antisymm hle (String.not_lt.1 hid))
  · rcases Int64.lt_or_lt_of_ne htime with hlt | hlt
    · exact .inr (.inl hlt)
    · exact .inl (.inl hlt)

/-! ## The leading claim -/

/-- Only an empty list has no `leading` claim. -/
theorem leading_eq_none {rs : List NodeRecord} : leading rs = none ↔ rs = [] := by
  cases rs with
  | nil => simp [leading]
  | cons r rs =>
    simp only [leading, reduceCtorEq, iff_false]
    -- Whether or not the rest has one, the first or that of the rest leads.
    cases leading rs with
    | none => simp
    | some best =>
      show ¬ (if r.outranks best then some r else some best) = none
      split <;> simp

/-- The `leading` claim is one of the list. -/
theorem leading_mem {rs : List NodeRecord} (h : leading rs = some a) : a ∈ rs := by
  induction rs generalizing a with
  | nil => simp [leading] at h
  | cons r rs ih =>
    rw [leading] at h
    cases hl : leading rs with
    | none =>
      rw [hl] at h
      cases h
      exact List.mem_cons_self
    | some best =>
      simp only [hl] at h
      -- The first record leads if it outranks the best of the rest, which leads otherwise.
      split at h
      · cases h
        exact List.mem_cons_self
      · cases h
        exact List.mem_cons_of_mem _ (ih hl)

/-- No claim `outranks` the `leading` one. -/
theorem not_outranks_leading {rs : List NodeRecord} (h : leading rs = some a) :
    ∀ r ∈ rs, ¬ r.outranks a = true := by
  induction rs generalizing a with
  | nil => simp
  | cons r rs ih =>
    rw [leading] at h
    cases hl : leading rs with
    | none =>
      rw [hl] at h
      cases h
      obtain rfl := leading_eq_none.1 hl
      simpa using not_outranks_self r
    | some best =>
      simp only [hl] at h
      split at h
      · next hr =>
        cases h
        -- What outranks the new leader would have outranked the old one.
        refine List.forall_mem_cons.2 ⟨not_outranks_self r, fun q hq hqr => ?_⟩
        exact ih hl q hq (outranks_trans hqr hr)
      · next hr =>
        cases h
        exact List.forall_mem_cons.2 ⟨hr, ih hl⟩

/-- Whom an election chooses of the records that take part in it: the `leading` claim, or else the
first. -/
def choice (rs : List NodeRecord) : Option NodeRecord :=
  (leading (rs.filter (·.claims))).or rs.head?

/-- The `choice` is one of the records that take part. -/
theorem choice_mem {rs : List NodeRecord} (h : choice rs = some a) : a ∈ rs := by
  rcases Option.or_eq_some_iff.1 h with hleading | ⟨-, hfirst⟩
  · exact (List.mem_filter.1 (leading_mem hleading)).1
  · exact List.mem_of_head? hfirst

end NodeRecord

/-! ## Planes -/

namespace Plane

/-- A `Plane` is filed if every record stands under its own node. -/
def IsFiled (p : Plane) : Prop := ∀ id r, p.nodes.get? id = some r → r.nodeId = id

/-- `ofRecords` files every record under its own node. -/
theorem ofRecords_isFiled (rs : List NodeRecord) : (ofRecords rs).IsFiled := by
  intro id r h
  rcases SortedMap.mem_insertAll (SortedMap.mem_entries.2 h) with h | h
  · obtain ⟨q, -, heq⟩ := List.mem_map.1 h
    cases heq
    rfl
  · cases h

/-- The entries of a filed plane are its records under their own nodes. -/
theorem IsFiled.entries_eq {p : Plane} (hp : p.IsFiled) :
    (p.nodes.values.map fun r => (r.nodeId, r)) = p.nodes.entries := by
  rw [SortedMap.values, List.map_map]
  refine (List.map_congr_left fun e he => ?_).trans (List.map_id _)
  exact Prod.ext (hp e.1 e.2 (SortedMap.mem_entries.1 he)) rfl

/-- After `apply` a plane is filed. -/
theorem apply_isFiled (p : Plane) (d : PlaneDelta) : (p.apply d).IsFiled := ofRecords_isFiled _

/-- `ofRecords` of records of different nodes has each under its node. -/
theorem get?_nodes_ofRecords {rs : List NodeRecord} (hrs : (rs.map (·.nodeId)).Nodup)
    {id : String} {r : NodeRecord} :
    (ofRecords rs).nodes.get? id = some r ↔ r ∈ rs ∧ r.nodeId = id := by
  -- The map is keyed by the ids of the nodes, none of which occurs twice.
  have hkeys : ((rs.map fun r => (r.nodeId, r)).map (·.1)).Nodup := by
    rw [List.map_map]
    exact hrs
  constructor
  · intro h
    rcases SortedMap.mem_insertAll (SortedMap.mem_entries.2 h) with h | h
    · obtain ⟨q, hq, heq⟩ := List.mem_map.1 h
      cases heq
      exact ⟨hq, rfl⟩
    · cases h
  · rintro ⟨hr, rfl⟩
    exact SortedMap.get?_insertAll_of_mem .empty hkeys (List.mem_map_of_mem hr)

/-- `ofRecords` of the records of a filed plane has them where they were. -/
theorem get?_nodes_ofRecords_values {nodes : SortedMap String NodeRecord}
    (h : ∀ id r, nodes.get? id = some r → r.nodeId = id) (id : String) :
    (ofRecords nodes.values).nodes.get? id = nodes.get? id := by
  have hmap : nodes.values.map (·.nodeId) = nodes.keys := by
    rw [SortedMap.values, SortedMap.keys, List.map_map]
    exact List.map_congr_left fun e he => h e.1 e.2 (SortedMap.mem_entries.1 he)
  refine Option.ext fun r => ?_
  rw [get?_nodes_ofRecords (hmap ▸ nodes.nodup_keys), SortedMap.mem_values]
  constructor
  · rintro ⟨⟨q, hq⟩, rfl⟩
    rwa [h q r hq]
  · exact fun hr => ⟨⟨id, hr⟩, h id r hr⟩

/-- `ofRecords` names the same master where it holds the same records. -/
theorem ofRecords_eq_of_nodes {rs qs : List NodeRecord}
    (h : (ofRecords rs).nodes = (ofRecords qs).nodes) : ofRecords rs = ofRecords qs := by
  have hmaster (rs : List NodeRecord) : ofRecords rs = ⟨(ofRecords rs).nodes,
      (NodeRecord.leading (ofRecords rs).claims).map (·.nodeId)⟩ := rfl
  rw [hmaster rs, hmaster qs, claims, claims, h]

/-- A plane made by `ofRecords` is made of the records that it holds. -/
theorem ofRecords_values_ofRecords (rs : List NodeRecord) :
    ofRecords (ofRecords rs).nodes.values = ofRecords rs :=
  ofRecords_eq_of_nodes (SortedMap.ext_get? (get?_nodes_ofRecords_values (ofRecords_isFiled rs)))

/-- After `apply` of a `PlaneDelta.node` its record is found under its node, and the others as
before. -/
theorem get?_nodes_apply_node {p : Plane} (hp : p.IsFiled) (r : NodeRecord) (id : String) :
    (p.apply (.node r)).nodes.get? id = if id = r.nodeId then some r else p.nodes.get? id := by
  have hchange (q : String) : (changeNodes p.nodes (.node r)).get? q =
      if q = r.nodeId then some r else p.nodes.get? q := SortedMap.get?_insert ..
  rw [apply, get?_nodes_ofRecords_values, hchange]
  intro q s hs
  rw [hchange] at hs
  split at hs
  · next hq =>
    cases hs
    exact hq.symm
  · exact hp q s hs

/-- Of two records of one node that are put in by `apply` the later stays. -/
theorem apply_node_apply_node {p : Plane} (hp : p.IsFiled) {r s : NodeRecord}
    (h : r.nodeId = s.nodeId) : (p.apply (.node r)).apply (.node s) = p.apply (.node s) := by
  refine ofRecords_eq_of_nodes (SortedMap.ext_get? fun id => ?_)
  show ((p.apply (.node r)).apply (.node s)).nodes.get? id = (p.apply (.node s)).nodes.get? id
  rw [get?_nodes_apply_node (p.apply_isFiled _), get?_nodes_apply_node hp,
    get?_nodes_apply_node hp, h]
  split <;> rfl

/-! ## Elections -/

section Elect

variable {p : Plane} {now : Timestamp} {timeout : Duration} {own : NodeRecord}

/-- The records that take part in an election, as `Plane.elect` has them. -/
def live (p : Plane) (now : Timestamp) (timeout : Duration) : List NodeRecord :=
  p.nodes.values.filter fun r => !r.isExpired now timeout && r.state.isEligible

/-- An election makes its `choice` among the `live` records, and reports several claims among these.
-/
theorem elect_eq (p : Plane) (now : Timestamp) (timeout : Duration) :
    p.elect now timeout = ⟨(NodeRecord.choice (p.live now timeout)).map (·.nodeId),
      Ambiguity.ofClaims ((p.live now timeout).filter (·.claims))⟩ := rfl

/-- The claims that count in an election are those that have not expired; every claimant is
eligible. -/
theorem mem_live_claims {r : NodeRecord} :
    r ∈ (p.live now timeout).filter (·.claims) ↔
      (∃ id, p.nodes.get? id = some r) ∧ r.isExpired now timeout = false ∧ r.claims = true := by
  simp only [live, List.mem_filter, SortedMap.mem_values, Bool.and_eq_true, Bool.not_eq_true',
    and_assoc]
  constructor
  · rintro ⟨hr, hlive, -, hclaims⟩
    exact ⟨hr, hlive, hclaims⟩
  · rintro ⟨hr, hlive, hclaims⟩
    exact ⟨hr, hlive, NodeRecord.isEligible_of_claims hclaims, hclaims⟩

/-- Where there is a live claim, `elect` finds the node whose claim leads. -/
theorem exists_leading_of_claims (hp : p.IsFiled) {id : String} {r : NodeRecord}
    (hr : p.nodes.get? id = some r) (hlive : r.isExpired now timeout = false)
    (hclaims : r.claims = true) :
    ∃ best, (p.elect now timeout).master = some best.nodeId ∧
      p.nodes.get? best.nodeId = some best ∧ best.isExpired now timeout = false ∧
      best.claims = true ∧ ¬ r.outranks best = true := by
  have hmem := mem_live_claims.2 ⟨⟨id, hr⟩, hlive, hclaims⟩
  -- Some live claim leads, as there is one to begin with.
  cases hl : NodeRecord.leading ((p.live now timeout).filter (·.claims)) with
  | none =>
    rw [NodeRecord.leading_eq_none.1 hl] at hmem
    cases hmem
  | some best =>
    obtain ⟨⟨q, hq⟩, hbest, hbest'⟩ := mem_live_claims.1 (NodeRecord.leading_mem hl)
    refine ⟨best, by rw [elect_eq, NodeRecord.choice, hl]; rfl, ?_, hbest, hbest', ?_⟩
    · rwa [hp q best hq]
    · exact NodeRecord.not_outranks_leading hl r hmem

/-- A node that claims mastership is elected exactly if it `outranks` all other live claims. -/
theorem elect_eq_self (hp : p.IsFiled) (hown : p.nodes.get? own.nodeId = some own)
    (hlive : own.isExpired now timeout = false) (hclaims : own.claims = true) :
    (p.elect now timeout).master = some own.nodeId ↔
      ∀ id r, id ≠ own.nodeId → p.nodes.get? id = some r → r.isExpired now timeout = false →
        r.claims = true → own.outranks r = true := by
  constructor
  · intro helect id r hid hr hr' hr''
    obtain ⟨best, hbest, hget, -, -, hrank⟩ := exists_leading_of_claims hp hr hr' hr''
    rw [helect] at hbest
    obtain rfl : own = best := by
      rw [← Option.some.inj hbest, hown] at hget
      exact Option.some.inj hget
    -- Of two nodes one outranks the other, and the leading claim is not outranked.
    have hne : own.nodeId ≠ r.nodeId := by
      rw [hp id r hr]
      exact hid.symm
    exact (NodeRecord.outranks_or_outranks hne).resolve_right hrank
  · intro hall
    obtain ⟨best, hbest, hget, hb, hb', hrank⟩ := exists_leading_of_claims hp hown hlive hclaims
    rw [hbest]
    -- The leading claim is the own one, or one that it would outrank.
    by_cases hid : best.nodeId = own.nodeId
    · rw [hid]
    · exact absurd (hall _ best hid hget hb hb') hrank

/-- A node that claims nothing is elected only where no live claim is. -/
theorem not_claims_of_elect_eq (hp : p.IsFiled) (hown : p.nodes.get? own.nodeId = some own)
    (hclaims : own.claims = false) (helect : (p.elect now timeout).master = some own.nodeId)
    {id : String} {r : NodeRecord} (hr : p.nodes.get? id = some r)
    (hlive : r.isExpired now timeout = false) : r.claims = false := by
  cases hr' : r.claims with
  | false => rfl
  | true =>
    -- If `r` claimed mastership the winner would be a claimant, which `own` is not.
    obtain ⟨best, hbest, hget, -, hb, -⟩ := exists_leading_of_claims hp hr hlive hr'
    rw [helect] at hbest
    rw [← Option.some.inj hbest, hown] at hget
    obtain rfl := Option.some.inj hget
    rw [hb] at hclaims
    cases hclaims

/-- The `live` records of a filed plane stand under their own nodes. -/
theorem mem_live (hp : p.IsFiled) {r : NodeRecord} : r ∈ p.live now timeout ↔
    p.nodes.get? r.nodeId = some r ∧ r.isExpired now timeout = false ∧
      r.state.isEligible = true := by
  rw [live, List.mem_filter, SortedMap.mem_values, Bool.and_eq_true, Bool.not_eq_true']
  refine and_congr_left fun _ => ⟨?_, fun hr => ⟨_, hr⟩⟩
  rintro ⟨id, hr⟩
  rwa [hp id r hr]

/-- The `live` records are in the order of their nodes. -/
private theorem pairwise_live (hp : p.IsFiled) :
    (p.live now timeout).Pairwise fun a b => a.nodeId < b.nodeId := by
  have hvalues : p.nodes.values.Pairwise fun a b => a.nodeId < b.nodeId := by
    rw [SortedMap.values, List.pairwise_map]
    refine p.nodes.sorted.imp_of_mem fun {a b} ha hb h => ?_
    rw [hp a.1 a.2 (SortedMap.mem_entries.1 ha), hp b.1 b.2 (SortedMap.mem_entries.1 hb)]
    exact compareOfLessAndEq_eq_lt.1 h
  exact hvalues.filter _

/-- The first of the `live` records is the one whose node goes before all others. -/
private theorem head?_live_eq (hp : p.IsFiled) (hown : own ∈ p.live now timeout) :
    (p.live now timeout).head? = some own ↔
      ∀ r ∈ p.live now timeout, r.nodeId ≠ own.nodeId → own.nodeId < r.nodeId := by
  have hsorted : (p.live now timeout).Pairwise fun a b => a.nodeId < b.nodeId := pairwise_live hp
  cases hlive : p.live now timeout with
  | nil => simp [hlive] at hown
  | cons first rest =>
    rw [hlive, List.pairwise_cons] at hsorted
    rw [List.head?_cons, Option.some.injEq]
    constructor
    · rintro rfl r hr hne
      exact hsorted.1 r ((List.mem_cons.1 hr).resolve_left fun h => hne (h ▸ rfl))
    · intro hall
      by_contra hne
      -- The first goes before the own one, which would have to go before it.
      have hlt : first.nodeId < own.nodeId := hsorted.1 own
        ((List.mem_cons.1 (hlive ▸ hown)).resolve_left fun h => hne h.symm)
      have hgt := hall first List.mem_cons_self (String.ne_of_lt hlt)
      exact String.lt_irrefl _ (String.lt_trans hlt hgt)

/-- Where nobody claims mastership, `elect` finds the first of the `live` records. -/
private theorem elect_master_of_not_claims
    (h : ∀ id r, p.nodes.get? id = some r → r.isExpired now timeout = false → r.claims = false) :
    (p.elect now timeout).master = (p.live now timeout).head?.map (·.nodeId) := by
  have hnone : (p.live now timeout).filter (·.claims) = [] := by
    refine List.eq_nil_iff_forall_not_mem.2 fun r hr => ?_
    obtain ⟨⟨id, hget⟩, hlive, hclaims⟩ := mem_live_claims.1 hr
    simp [h id r hget hlive] at hclaims
  rw [elect_eq, NodeRecord.choice, NodeRecord.leading_eq_none.2 hnone, Option.none_or]

/-- A node that claims nothing is elected exactly if nobody else claims mastership and it goes
before all others that may become master. -/
theorem elect_eq_self_of_not_claims (hp : p.IsFiled) (hown : p.nodes.get? own.nodeId = some own)
    (hlive : own.isExpired now timeout = false) (heligible : own.state.isEligible = true)
    (hclaims : own.claims = false) :
    (p.elect now timeout).master = some own.nodeId ↔
      ∀ id r, id ≠ own.nodeId → p.nodes.get? id = some r → r.isExpired now timeout = false →
        r.claims = false ∧ (r.state.isEligible = true → own.nodeId < id) := by
  have hmem : own ∈ p.live now timeout := (mem_live hp).2 ⟨hown, hlive, heligible⟩
  constructor
  · intro helect id r hid hr hr'
    have hnone : ∀ q s, p.nodes.get? q = some s → s.isExpired now timeout = false →
        s.claims = false := fun _ _ => not_claims_of_elect_eq hp hown hclaims helect
    refine ⟨hnone id r hr hr', fun hr'' => ?_⟩
    rw [elect_master_of_not_claims hnone, Option.map_eq_some_iff] at helect
    obtain ⟨first, hfirst, hnode⟩ := helect
    -- The first is the own record, as that is the one of its node.
    have hget := ((mem_live hp).1 (List.mem_of_head? hfirst)).1
    rw [hnode, hown] at hget
    obtain rfl := Option.some.inj hget
    obtain rfl := hp id r hr
    exact (head?_live_eq hp hmem).1 hfirst r ((mem_live hp).2 ⟨hr, hr', hr''⟩) hid
  · intro hall
    have hnone : ∀ id r, p.nodes.get? id = some r → r.isExpired now timeout = false →
        r.claims = false := by
      intro id r hr hr'
      by_cases hid : id = own.nodeId
      · rw [hid, hown] at hr
        rwa [← Option.some.inj hr]
      · exact (hall id r hid hr hr').1
    have hfirst : (p.live now timeout).head? = some own := by
      refine (head?_live_eq hp hmem).2 fun r hr hne => ?_
      obtain ⟨hget, hr', hr''⟩ := (mem_live hp).1 hr
      exact (hall _ r hne hget hr').2 hr''
    rw [elect_master_of_not_claims hnone, hfirst, Option.map_some]

/-- The record of the node that `elect` finds has not expired. -/
theorem isExpired_of_elect (hp : p.IsFiled) {id : String} {r : NodeRecord}
    (helect : (p.elect now timeout).master = some id) (hr : p.nodes.get? id = some r) :
    r.isExpired now timeout = false := by
  rw [elect_eq, Option.map_eq_some_iff] at helect
  obtain ⟨best, hbest, rfl⟩ := helect
  obtain ⟨hget, hlive, -⟩ := (mem_live hp).1 (NodeRecord.choice_mem hbest)
  obtain rfl := Option.some.inj (hget.symm.trans hr)
  exact hlive

/-- No live claim `outranks` the record of the node that `elect` finds. -/
theorem not_outranks_of_elect (hp : p.IsFiled) {id q : String} {r s : NodeRecord}
    (helect : (p.elect now timeout).master = some id) (hr : p.nodes.get? id = some r)
    (hs : p.nodes.get? q = some s) (hlive : s.isExpired now timeout = false)
    (hclaims : s.claims = true) : ¬ s.outranks r = true := by
  obtain ⟨best, hbest, hget, -, -, hrank⟩ := exists_leading_of_claims hp hs hlive hclaims
  obtain rfl := Option.some.inj (helect.symm.trans hbest)
  obtain rfl := Option.some.inj (hr.symm.trans hget)
  exact hrank

end Elect

end Plane

end Failover
