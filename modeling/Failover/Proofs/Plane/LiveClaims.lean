import Failover.Proofs.Plane.Election
import Mathlib.Logic.Relation

/-!
# What an election depends on

An election chooses among the records that take part in it, and it depends on nothing else: records
that have expired or whose state bars them may come and go. Where somebody claims mastership only
the claims count, and a record that was not chosen may leave without changing the choice.

## Key results

- `NodeRecord.choice_filter`: whoever is chosen is chosen among fewer records as well
- `Plane.sameOn_of_changes`: records of one kind that come and go leave the others where they are
- `Plane.elect_congr`: planes with the same records that take part elect alike
- `Plane.elect_congr_of_claims`: with a live claim, planes with the same live claims elect alike
- `Plane.electsByClaims`: both of these and what they do not cover, as one law of every plane
-/

namespace Failover

namespace NodeRecord

variable {a b c : NodeRecord} {rs : List NodeRecord}

/-- A claim that `outranks` another outranks whatever does not outrank that one. -/
theorem outranks_of_not_outranks (hab : a.outranks b = true) (hcb : ¬ c.outranks b = true) :
    a.outranks c = true := by
  rw [outranks_iff] at *
  simp only [not_or, not_and] at hcb
  obtain ⟨hle, hid⟩ := hcb
  have hle := Int64.not_lt.1 hle
  by_cases heq : c.claimTime = b.claimTime
  · -- The two are of one time, so that their ids decide.
    have hcb := String.not_lt.1 (hid heq)
    rcases hab with hlt | ⟨htime, hlt⟩
    · exact .inl (heq ▸ hlt)
    · refine .inr ⟨htime.trans heq.symm, ?_⟩
      exact String.not_le.1 fun hca => String.not_le.2 hlt (String.le_trans hcb hca)
  · have hlt : c.claimTime < b.claimTime := by
      rcases Int64.lt_or_lt_of_ne heq with h | h
      · exact h
      · exact absurd hle (Int64.not_le.2 h)
    rcases hab with hab | ⟨htime, -⟩
    · exact .inl (Int64.lt_trans hlt hab)
    · exact .inl (htime ▸ hlt)

/-- A claim in front leads if it `outranks` the one that led. -/
theorem leading_cons_of_outranks (h : ∀ b, leading rs = some b → a.outranks b = true) :
    leading (a :: rs) = some a := by
  rw [leading]
  cases hl : leading rs with
  | none => rfl
  | some best => simp [h best hl]

/-- A claim in front does not lead if it does not outrank the one that led. -/
theorem leading_cons_of_not_outranks (hl : leading rs = some b) (h : ¬ a.outranks b = true) :
    leading (a :: rs) = some b := by
  simp [leading, hl, h]

/-- The `leading` claim leads any part of the list that it belongs to. -/
theorem leading_filter {t : NodeRecord → Bool} (h : leading rs = some a) (ht : t a = true) :
    leading (rs.filter t) = some a := by
  induction rs generalizing a with
  | nil => simp [leading] at h
  | cons r rs ih =>
    cases hl : leading rs with
    | none =>
      obtain rfl := leading_eq_none.1 hl
      obtain rfl : r = a := by simpa [leading] using h
      simp [ht, leading]
    | some best =>
      by_cases hr : r.outranks best = true
      · -- The first leads. What is left of the rest did not outrank its leader.
        obtain rfl : r = a := by simpa [leading, hl, hr] using h
        rw [List.filter_cons_of_pos ht]
        apply leading_cons_of_outranks
        intro c hc
        have hmem : c ∈ rs := (List.mem_filter.1 (leading_mem hc)).1
        exact outranks_of_not_outranks hr (not_outranks_leading hl c hmem)
      · obtain rfl : best = a := by simpa [leading, hl, hr] using h
        have hrest : leading (rs.filter t) = some best := ih hl ht
        by_cases htr : t r = true
        · rw [List.filter_cons_of_pos htr]
          exact leading_cons_of_not_outranks hrest hr
        · rwa [List.filter_cons_of_neg htr]

/-! ## The choice -/

/-- Only where nobody takes part is there no `choice`. -/
theorem choice_eq_none : choice rs = none ↔ rs = [] := by
  rw [choice, Option.or_eq_none_iff, leading_eq_none, List.head?_eq_none_iff]
  constructor
  · exact fun h => h.2
  · rintro rfl
    simp

/-- Where somebody claims mastership, the `choice` is the `leading` claim. -/
theorem choice_eq_leading (h : rs.filter (·.claims) ≠ []) :
    choice rs = leading (rs.filter (·.claims)) := by
  rw [choice]
  cases hl : leading (rs.filter (·.claims)) with
  | none => exact absurd (leading_eq_none.1 hl) h
  | some best => rfl

/-- The `choice` of a list is the choice of any part of it that it belongs to. -/
theorem choice_filter {t : NodeRecord → Bool} (h : choice rs = some a) (ht : t a = true) :
    choice (rs.filter t) = some a := by
  have hcomm : (rs.filter t).filter (·.claims) = (rs.filter (·.claims)).filter t := by
    rw [List.filter_filter, List.filter_filter]
    exact List.filter_congr fun r _ => Bool.and_comm ..
  rw [choice, hcomm]
  rcases Option.or_eq_some_iff.1 h with hleading | ⟨hnone, hfirst⟩
  · rw [leading_filter hleading ht, Option.some_or]
  · -- Nobody claims mastership, and the first of the list is still the first of its part.
    rw [leading_eq_none.1 hnone, List.filter_nil, leading, Option.none_or]
    obtain ⟨rest, rfl⟩ := List.head?_eq_some_iff.1 hfirst
    rw [List.filter_cons_of_pos ht, List.head?_cons]

end NodeRecord

namespace Plane

variable {p q : Plane} {now : Timestamp} {timeout : Duration}

/-! ## Records that come and go -/

/-- A `Change` of one kind files a record under an id that had none, or takes one away. Who is
recorded as master is left open. -/
inductive Change (P : NodeRecord → Prop) (p q : Plane) : Prop
  | add (r : NodeRecord) (hr : P r) (hnew : p.nodes.get? r.nodeId = none)
      (hq : q.nodes = p.nodes.insert r.nodeId r)
  | remove (id : String) (r : NodeRecord) (hr : P r) (hold : p.nodes.get? id = some r)
      (hq : q.nodes = p.nodes.erase id)

/-- `SameOn P` relates planes that hold the same records of the kind `P`. -/
def SameOn (P : NodeRecord → Prop) (p q : Plane) : Prop :=
  ∀ id r, P r → (p.nodes.get? id = some r ↔ q.nodes.get? id = some r)

/-- A `Change` of one kind leaves the records of other kinds where they are. -/
theorem Change.sameOn {P Q : NodeRecord → Prop} (h : Change P p q) (hQ : ∀ r, Q r → ¬ P r) :
    SameOn Q p q := by
  intro id s hs
  cases h with
  -- The id that gets a record had none, so nothing else is lost there.
  | add r hr hnew hq =>
    rw [hq, SortedMap.get?_insert]
    by_cases hid : id = r.nodeId
    · have hne : r ≠ s := by
        rintro rfl
        exact hQ r hs hr
      simp [hid, hnew, hne]
    · simp [hid]
  -- The id that loses its record had one of the kind that changes.
  | remove id' r hr hold hq =>
    rw [hq, SortedMap.get?_erase]
    by_cases hid : id = id'
    · have hne : r ≠ s := by
        rintro rfl
        exact hQ r hs hr
      simp [hid, hold, hne]
    · simp [hid]

/-- Any number of `Change`s of one kind leave the records of other kinds where they are. -/
theorem sameOn_of_changes {P Q : NodeRecord → Prop} (h : Relation.ReflTransGen (Change P) p q)
    (hQ : ∀ r, Q r → ¬ P r) : SameOn Q p q := by
  induction h with
  | refl => exact fun _ _ _ => Iff.rfl
  | tail _ hstep ih => exact fun id r hr => (ih id r hr).trans (hstep.sameOn hQ id r hr)

/-! ## Elections -/

/-- Planes with the same records that take part elect alike. -/
theorem elect_congr (h : SameOn (fun r => r.isExpired now timeout = false ∧
    r.state.isEligible = true) p q) : q.elect now timeout = p.elect now timeout := by
  have hlive : q.live now timeout = p.live now timeout := by
    refine SortedMap.values_filter_congr fun id r hr => ?_
    rw [Bool.and_eq_true, Bool.not_eq_true'] at hr
    exact (h id r hr).symm
  rw [elect_eq, elect_eq, hlive]

/-- With a live claim, planes with the same live claims elect alike: the `choice` is among these. -/
theorem elect_congr_of_claims (h : SameOn (fun r => r.isExpired now timeout = false ∧
      r.claims = true) p q)
    {id : String} {r : NodeRecord} (hr : p.nodes.get? id = some r)
    (hlive : r.isExpired now timeout = false) (hclaims : r.claims = true) :
    q.elect now timeout = p.elect now timeout := by
  -- The live claims are the same in both planes, and where there is one they alone decide.
  have hsame : (q.live now timeout).filter (·.claims) = (p.live now timeout).filter (·.claims) := by
    rw [live, live, List.filter_filter, List.filter_filter]
    refine SortedMap.values_filter_congr fun id r hr => ?_
    simp only [Bool.and_eq_true, Bool.not_eq_true'] at hr
    exact (h id r ⟨hr.2.1, hr.1⟩).symm
  have hne : (p.live now timeout).filter (·.claims) ≠ [] :=
    List.ne_nil_of_mem (mem_live_claims.2 ⟨⟨id, hr⟩, hlive, hclaims⟩)
  rw [elect_eq, elect_eq, NodeRecord.choice_eq_leading hne,
    NodeRecord.choice_eq_leading (hsame ▸ hne), hsame]

/-- Among the `live` records, erasing an id takes the record of that node away. -/
theorem live_erase (hp : p.IsFiled) {id : String} (hq : q.nodes = p.nodes.erase id) :
    q.live now timeout = (p.live now timeout).filter (·.nodeId != id) := by
  have hvalues : q.nodes.values = p.nodes.values.filter (·.nodeId != id) := by
    rw [hq, SortedMap.values, SortedMap.values, SortedMap.erase, List.filter_map]
    refine congrArg _ (List.filter_congr fun e he => ?_)
    have hid : e.2.nodeId = e.1 := hp e.1 e.2 (SortedMap.mem_entries.1 he)
    rw [Bool.eq_iff_iff, Function.comp_apply, hid, bne_iff_ne, bne_iff_ne, ne_eq, ne_eq,
      Std.LawfulEqCmp.compare_eq_iff_eq, eq_comm]
  rw [live, live, hvalues, List.filter_filter, List.filter_filter]
  exact List.filter_congr fun r _ => Bool.and_comm ..

/-- If a node other than the one that `elect` finds is erased, `elect` finds the same. -/
theorem elect_master_erase (hp : p.IsFiled) {id : String} (hq : q.nodes = p.nodes.erase id)
    (hid : (p.elect now timeout).master ≠ some id) :
    (q.elect now timeout).master = (p.elect now timeout).master := by
  rw [elect_eq] at hid
  rw [elect_eq, elect_eq, live_erase hp hq]
  show (NodeRecord.choice _).map _ = (NodeRecord.choice _).map _
  cases hc : NodeRecord.choice (p.live now timeout) with
  | none => rw [NodeRecord.choice_eq_none.1 hc, List.filter_nil, NodeRecord.choice_eq_none.2 rfl]
  | some best =>
    -- The winner is another node, so it is still there and still the choice.
    have hne : (best.nodeId != id) = true := by
      rw [bne_iff_ne]
      rintro rfl
      exact hid (by rw [hc, Option.map_some])
    rw [NodeRecord.choice_filter hc hne]

/-- While no claim has expired, `elect` finds the master that `ofRecords` names. -/
theorem elect_eq_ofRecords (hp : p.IsFiled)
    (hlive : ∀ id r, p.nodes.get? id = some r → r.claims = true → r.isExpired now timeout = false)
    {id : String} {r : NodeRecord} (hr : p.nodes.get? id = some r) (hclaims : r.claims = true) :
    p.elect now timeout = ⟨(ofRecords p.nodes.values).masterId, p.ambiguity?⟩ := by
  -- Every claim is live, so the election is held among the claims that `masterId` looks at.
  have hsame : (p.live now timeout).filter (·.claims) = p.claims := by
    rw [live, claims, List.filter_filter]
    refine List.filter_congr fun r hr => ?_
    obtain ⟨id, hr⟩ := SortedMap.mem_values.1 hr
    cases hc : r.claims with
    | false => rfl
    | true => simp [hlive id r hr hc, NodeRecord.isEligible_of_claims hc]
  have hne : p.claims ≠ [] :=
    hsame ▸ List.ne_nil_of_mem (mem_live_claims.2 ⟨⟨id, hr⟩, hlive id r hr hclaims, hclaims⟩)
  have hnodes : (ofRecords p.nodes.values).nodes = p.nodes :=
    SortedMap.ext_get? (get?_nodes_ofRecords_values hp)
  have hmaster : (ofRecords p.nodes.values).masterId =
      (NodeRecord.leading p.claims).map (·.nodeId) := by
    show (NodeRecord.leading (ofRecords p.nodes.values).claims).map (·.nodeId) = _
    rw [claims, hnodes, claims]
  rw [elect_eq, NodeRecord.choice_eq_leading (hsame.symm ▸ hne), hsame, hmaster, ambiguity?]

/-! ## The law of elections -/

/-- An election at a time, with a heartbeat timeout, depends on the claims that count and on nothing
else. -/
structure ElectsByClaims (p : Plane) (now : Timestamp) (timeout : Duration) : Prop where
  /-- Nobody is chosen whose record has expired, and no failed or terminated node. -/
  chosen : ∀ id, (p.elect now timeout).master = some id → ∃ r, p.nodes.get? id = some r ∧
    r.isExpired now timeout = false ∧ r.state ≠ .failed ∧ r.state ≠ .terminated
  /-- Somebody is chosen exactly if somebody may be. -/
  isSome_iff : (p.elect now timeout).master.isSome = true ↔ ∃ id r, p.nodes.get? id = some r ∧
    r.isExpired now timeout = false ∧ r.state.isEligible = true
  /-- Records that have expired or that their state bars may come and go. -/
  barred : ∀ q, Relation.ReflTransGen
    (Change fun r => r.isExpired now timeout = true ∨ r.state.isEligible = false) p q →
      q.elect now timeout = p.elect now timeout
  /-- With a live claim, records that claim nothing may come and go. -/
  standby : ∀ id r, p.nodes.get? id = some r → r.isExpired now timeout = false → r.state = .master →
    ∀ q, Relation.ReflTransGen (Change fun r => r.state ≠ .master) p q →
      (q.elect now timeout).master = (p.elect now timeout).master
  /-- With a live claim, observers that share the live claims agree. -/
  agree : ∀ id r, p.nodes.get? id = some r → r.isExpired now timeout = false → r.state = .master →
    ∀ q, SameOn (fun r => r.isExpired now timeout = false ∧ r.state = .master) p q →
      (q.elect now timeout).master = (p.elect now timeout).master
  /-- Nobody else leaves the choice behind. -/
  others : ∀ (q : Plane) (id : String), (p.elect now timeout).master ≠ some id →
    q.nodes = p.nodes.erase id →
    (q.elect now timeout).master = (p.elect now timeout).master
  /-- While no claim has expired, the election finds what the plane itself names. -/
  recorded : (∀ id r, p.nodes.get? id = some r → r.state = .master →
      r.isExpired now timeout = false) →
    (∃ id r, p.nodes.get? id = some r ∧ r.state = .master) →
      (p.elect now timeout).master = (ofRecords p.nodes.values).masterId ∧
        (p.elect now timeout).ambiguity = p.ambiguity?

/-- Every plane that is filed `ElectsByClaims`, at any time and with any timeout. -/
theorem electsByClaims (hp : p.IsFiled) (now : Timestamp) (timeout : Duration) :
    p.ElectsByClaims now timeout where
  chosen id hid := by
    rw [elect_eq, Option.map_eq_some_iff] at hid
    obtain ⟨r, hr, rfl⟩ := hid
    obtain ⟨hget, hlive, heligible⟩ := (mem_live hp).1 (NodeRecord.choice_mem hr)
    refine ⟨r, hget, hlive, ?_, ?_⟩
    · -- A failed or terminated node is not eligible.
      rintro hstate
      rw [hstate] at heligible
      cases heligible
    · rintro hstate
      rw [hstate] at heligible
      cases heligible
  isSome_iff := by
    rw [elect_eq, Option.isSome_map, Option.isSome_iff_ne_none, ne_eq, NodeRecord.choice_eq_none]
    constructor
    · intro hne
      obtain ⟨r, hr⟩ := List.exists_mem_of_ne_nil _ hne
      exact ⟨_, r, (mem_live hp).1 hr⟩
    · rintro ⟨id, r, hr, hlive⟩
      obtain rfl := hp id r hr
      exact List.ne_nil_of_mem ((mem_live hp).2 ⟨hr, hlive⟩)
  barred q h := by
    apply elect_congr
    apply sameOn_of_changes h
    rintro r ⟨hlive, heligible⟩ (hr | hr)
    · simp [hlive] at hr
    · simp [heligible] at hr
  standby id r hr hlive hstate q h := by
    have hsame : SameOn (fun r => r.isExpired now timeout = false ∧ r.claims = true) p q :=
      sameOn_of_changes h fun s hs hns => hns (NodeRecord.claims_iff.1 hs.2)
    rw [elect_congr_of_claims hsame hr hlive (NodeRecord.claims_iff.2 hstate)]
  agree id r hr hlive hstate q h := by
    have hsame : SameOn (fun r => r.isExpired now timeout = false ∧ r.claims = true) p q :=
      fun id s hs => h id s ⟨hs.1, NodeRecord.claims_iff.1 hs.2⟩
    rw [elect_congr_of_claims hsame hr hlive (NodeRecord.claims_iff.2 hstate)]
  others q id hid hq := elect_master_erase hp hq hid
  recorded hlive hex := by
    obtain ⟨id, r, hr, hstate⟩ := hex
    have hlive' (id : String) (r : NodeRecord) (hr : p.nodes.get? id = some r)
        (hclaims : r.claims = true) : r.isExpired now timeout = false :=
      hlive id r hr (NodeRecord.claims_iff.1 hclaims)
    rw [elect_eq_ofRecords hp hlive' hr (NodeRecord.claims_iff.2 hstate)]
    exact ⟨rfl, rfl⟩

/-- A plane of a standby, two nodes that have claimed mastership one after the other, and a failed
node. -/
def contested : Plane := ofRecords
  [{ nodeId := "a", state := .standby, timestamp := 40000 },
    { nodeId := "n1", state := .master, timestamp := 40000, masterSince := some 0 },
    { nodeId := "n2", state := .master, timestamp := 39000, masterSince := some 31000 },
    { nodeId := "z", state := .failed, timestamp := 40000 }]

/-- In `contested` the later of the two claims wins. -/
theorem electsByClaims_contested : contested.IsFiled ∧
    contested.ElectsByClaims 40000 (.ofSeconds 30 0) ∧
    (contested.elect 40000 (.ofSeconds 30 0)).master = some "n2" :=
  ⟨ofRecords_isFiled _, electsByClaims (ofRecords_isFiled _) .., by decide +kernel⟩

end Plane

end Failover
