import Failover.Proofs.Json.RoundTrip
import Failover.Proofs.Json.Whole

/-!
# What nests too deep is refused

A reader opens no more arrays and objects than it is allowed to. So a codec that reads all of what
it has written reads it only where the nesting is allowed, and for such a codec the limit on the
nesting is the one thing that stands between a stored text and its value.

## Key results

- `Codec.keepsLimit_list`, `Codec.keepsLimit_map`, `Codec.keepsLimit_option`,
  `Codec.keepsLimit_plain`: the building blocks keep to the limit
- `Schema.keepsLimit_codec`: so do records
- `Memento.load_toText_eq_ok_iff`: a memento loads from its text exactly if it nests no deeper than
  a reader follows
-/

namespace Failover

open Json (depthItems depthMembers depthItems_le depthMembers_le)

/-- `descend` leaves one level less. -/
theorem Scan.descend_eq_ok {depth rest : Nat} (h : descend depth = .ok rest) : depth = rest + 1 := by
  cases depth with
  | zero => cases h
  | succ depth =>
    cases h
    rfl

/-! ## Building blocks -/

namespace Codec

variable {α : Type} {c : Codec α}

/-- A `Codec` keeps to the limit if it reads what it has written only where the nesting is allowed.
-/
def KeepsLimit (c : Codec α) : Prop :=
  ∀ a depth b, c.read depth (Scan.ofJson (c.write a)) = .ok b → (c.write a).depth ≤ depth

/-- A codec whose values do not nest keeps to any limit. -/
theorem keepsLimit_of_depth_eq_zero (h : ∀ a, (c.write a).depth = 0) : c.KeepsLimit :=
  fun a depth _ _ => h a ▸ Nat.zero_le depth

theorem keepsLimit_string : string.KeepsLimit := keepsLimit_of_depth_eq_zero fun _ => rfl

theorem keepsLimit_enum (names : List (String × α)) (name : α → String) :
    (enum names name).KeepsLimit := keepsLimit_of_depth_eq_zero fun _ => rfl

/-- Items that `readAll` reads back nest no deeper than is allowed. -/
private theorem depthItems_le_of_readAll (hc : c.KeepsLimit) {depth : Nat} {as bs : List α}
    (h : Scan.readAll (c.read depth) (Scan.ofItems (as.map c.write)) = .ok bs) :
    depthItems (as.map c.write) ≤ depth := by
  induction as generalizing bs with
  | nil => exact Nat.zero_le depth
  | cons a as ih =>
    obtain ⟨b, hread, h⟩ := exists_of_bind_eq_ok h
    obtain ⟨bs', hrest, -⟩ := exists_of_bind_eq_ok h
    exact Nat.max_le.2 ⟨hc a depth b hread, ih hrest⟩

/-- A list keeps to the limit if its items do. -/
theorem keepsLimit_list (hc : c.KeepsLimit) : c.list.KeepsLimit := by
  intro as depth bs h
  obtain ⟨rest, hrest, h⟩ := exists_of_bind_eq_ok h
  obtain ⟨bs', hall, -⟩ := exists_of_bind_eq_ok h
  rw [Scan.descend_eq_ok hrest]
  exact Nat.succ_le_succ (depthItems_le_of_readAll hc hall)

/-- Members that `readMembers` reads back nest no deeper than is allowed. -/
private theorem depthMembers_le_of_readMembers (hc : c.KeepsLimit) {depth : Nat}
    {es : List (String × α)} {m m' : SortedMap String α}
    (h : Scan.readMembers (c.read depth) m (Scan.ofMembers (es.map fun e => (e.1, c.write e.2))) =
      .ok m') : depthMembers (es.map fun e => (e.1, c.write e.2)) ≤ depth := by
  induction es generalizing m with
  | nil => exact Nat.zero_le depth
  | cons e es ih =>
    obtain ⟨b, hread, h⟩ := exists_of_bind_eq_ok h
    exact Nat.max_le.2 ⟨hc e.2 depth b hread, ih h⟩

/-- A map keeps to the limit if its values do. -/
theorem keepsLimit_map (hc : c.KeepsLimit) : c.map.KeepsLimit := by
  intro m depth m' h
  obtain ⟨rest, hrest, h⟩ := exists_of_bind_eq_ok h
  obtain ⟨m'', hall, -⟩ := exists_of_bind_eq_ok h
  rw [Scan.descend_eq_ok hrest]
  exact Nat.succ_le_succ (depthMembers_le_of_readMembers hc hall)

/-- A value that may be missing keeps to the limit if it does when it is there. -/
theorem keepsLimit_option (hc : c.KeepsLimit) : c.option.KeepsLimit := by
  intro a depth b h
  cases a with
  | none => exact Nat.zero_le _
  | some a =>
    replace h : Scan.readOption c.read depth (Scan.ofJson (c.write a)) = .ok b := h
    rw [Scan.readOption.eq_def] at h
    split at h
    · next hnull =>
      -- What is read as null does not nest.
      have hw : c.write a = .null := by cases hw : c.write a <;> simp_all [Scan.ofJson]
      show (c.write a).depth ≤ _
      rw [hw]
      exact Nat.zero_le _
    · obtain ⟨b, hread, -⟩ := exists_of_map_eq_ok h
      exact hc a _ b hread

end Codec

/-! ## Any value -/

namespace Scan

mutual

/-- What `readJson` reads back nests no deeper than is allowed. -/
private theorem depth_le_of_readJson : (j : Json) → (depth : Nat) → (k : Json) →
    readJson depth (ofJson j) = .ok k → j.depth ≤ depth
  | .null, depth, _, _ | .bool _, depth, _, _ | .number _, depth, _, _ | .string _, depth, _, _ =>
    Nat.zero_le depth
  | .array _, 0, _, h | .object _, 0, _, h => by cases h
  | .array items, depth + 1, k, h => by
    obtain ⟨js, hitems, -⟩ := exists_of_bind_eq_ok h
    exact Nat.succ_le_succ (depthItems_le_of_readJsonItems items depth js hitems)
  | .object ms, depth + 1, k, h => by
    obtain ⟨js, hms, -⟩ := exists_of_bind_eq_ok h
    exact Nat.succ_le_succ (depthMembers_le_of_readJsonMembers ms depth js hms)

private theorem depthItems_le_of_readJsonItems : (js : List Json) → (depth : Nat) →
    (ks : List Json) → readJsonItems depth (ofItems js) = .ok ks → depthItems js ≤ depth
  | [], depth, _, _ => Nat.zero_le depth
  | j :: js, depth, ks, h => by
    obtain ⟨k, hread, h⟩ := exists_of_bind_eq_ok h
    obtain ⟨ks', hrest, -⟩ := exists_of_bind_eq_ok h
    exact Nat.max_le.2 ⟨depth_le_of_readJson j depth k hread,
      depthItems_le_of_readJsonItems js depth ks' hrest⟩

private theorem depthMembers_le_of_readJsonMembers : (ms : List (String × Json)) → (depth : Nat) →
    (ks : List (String × Json)) → readJsonMembers depth (ofMembers ms) = .ok ks →
    depthMembers ms ≤ depth
  | [], depth, _, _ => Nat.zero_le depth
  | (_, j) :: ms, depth, ks, h => by
    obtain ⟨k, hread, h⟩ := exists_of_bind_eq_ok h
    obtain ⟨ks', hrest, -⟩ := exists_of_bind_eq_ok h
    exact Nat.max_le.2 ⟨depth_le_of_readJson j depth k hread,
      depthMembers_le_of_readJsonMembers ms depth ks' hrest⟩

end

end Scan

/-- A `Plain` value keeps to the limit. -/
theorem Codec.keepsLimit_plain : plain.KeepsLimit := by
  intro p depth q h
  obtain ⟨k, hread, -⟩ := exists_of_map_eq_ok h
  exact Scan.depth_le_of_readJson p.json depth k hread

/-! ## Records -/

/-- A `Field` keeps to the limit if it reads what it has written only where the nesting is allowed.
-/
def Field.KeepsLimit {α : Type} (f : Field α) : Prop :=
  ∀ a j depth b, f.write a = some j → f.read depth (Scan.ofJson j) = .ok b → j.depth ≤ depth

namespace Field

variable {α : Type} {c : Codec α}

/-- A `required` field keeps to the limit if its codec does. -/
theorem keepsLimit_required (name : String) (hc : c.KeepsLimit) : (required name c).KeepsLimit := by
  rintro a _ depth b ⟨⟩ h
  exact hc a depth b h

/-- A `default` field keeps to the limit if its codec does. -/
theorem keepsLimit_default (name : String) (hc : c.KeepsLimit) (value : α) :
    (default name c value).KeepsLimit := by
  rintro a _ depth b ⟨⟩ h
  exact hc a depth b h

/-- An `optional` field keeps to the limit if its codec does. -/
theorem keepsLimit_optional (name : String) (hc : c.KeepsLimit) : (optional name c).KeepsLimit := by
  intro a j depth b hj h
  cases a with
  | none => cases hj
  | some a =>
    cases hj
    exact Codec.keepsLimit_option hc (some a) depth b h

end Field

namespace Schema

variable {ρ σ : Type}

/-- A `Schema` keeps to the limit if every field does, and no two have one name. -/
def KeepsLimit : {ρ σ : Type} → Schema ρ σ → Prop
  | _, _, .nil => True
  | _, _, .cons f rest => f.KeepsLimit ∧ f.name ∉ rest.names ∧ rest.KeepsLimit

/-- A member that `Schema.write` gives is read by the field that has written it, and so nests no
deeper than is allowed. -/
private theorem depth_le_of_fill {s : Schema ρ σ} (hs : s.KeepsLimit) {r : ρ} {depth : Nat}
    {e : String × Json} (he : e ∈ s.write r) {slots : σ} {filled : Option σ}
    (h : s.fill depth e.1 (Scan.ofJson e.2) slots = .ok filled) : e.2.depth ≤ depth := by
  induction s with
  | nil => cases he
  | cons f rest ih =>
    obtain ⟨a, r⟩ := r
    obtain ⟨slot, slots⟩ := slots
    obtain ⟨hf, hname, hrest⟩ := hs
    -- The members of the other fields have other names.
    have hother (he : e ∈ rest.write r) : e.2.depth ≤ depth := by
      have hne : e.1 ≠ f.name := fun heq => hname (heq ▸ keys_write rest r e he)
      rw [fill, if_neg hne] at h
      obtain ⟨filled', hfill, -⟩ := exists_of_bind_eq_ok h
      exact ih hrest he hfill
    cases hw : f.write a with
    | none =>
      rw [write, hw] at he
      exact hother he
    | some j =>
      rw [write, hw] at he
      rcases List.mem_cons.1 he with rfl | he
      · rw [fill, if_pos rfl] at h
        split at h
        · cases h
        · obtain ⟨b, hread, -⟩ := exists_of_bind_eq_ok h
          exact hf a j depth b hw hread
      · exact hother he

/-- A record keeps to the limit if its `Schema` does. -/
theorem keepsLimit_codec {α : Type} {s : Schema ρ σ} (hs : s.KeepsLimit) (name : String)
    (toRow : α → ρ) (ofRow : ρ → α) : (s.codec name toRow ofRow).KeepsLimit := by
  -- All members are read, the ones before as well as the ones after.
  have hmembers {ms : List (String × Json)} {depth : Nat} {slots slots' : σ} {r : ρ}
      (hms : ms ⊆ s.write r)
      (h : s.readMembers depth slots (Scan.ofMembers ms) = .ok slots') :
      depthMembers ms ≤ depth := by
    induction ms generalizing slots with
    | nil => exact Nat.zero_le depth
    | cons e ms ih =>
      obtain ⟨he, hms⟩ := List.cons_subset.1 hms
      obtain ⟨filled, hfill, h⟩ := exists_of_bind_eq_ok h
      refine Nat.max_le.2 ⟨depth_le_of_fill hs he hfill, ?_⟩
      cases filled with
      | some slots => exact ih hms h
      | none =>
        dsimp only at h
        split at h
        · exact ih hms h
        · cases h
  intro a depth b h
  obtain ⟨r, h, -⟩ := exists_of_map_eq_ok h
  obtain ⟨rest, hrest, h⟩ := exists_of_bind_eq_ok h
  obtain ⟨slots, hread, -⟩ := exists_of_bind_eq_ok h
  rw [Scan.descend_eq_ok hrest]
  exact Nat.succ_le_succ (hmembers (List.Subset.refl _) hread)

end Schema

/-! ## Mementos -/

namespace Value

mutual

/-- What `Value.read` reads back nests no deeper than is allowed. -/
private theorem depth_le_of_read : (v : Value) → (depth : Nat) → (u : Value) →
    read depth (Scan.ofJson v.write) = .ok u → v.write.depth ≤ depth
  | .plain p, depth, u, h => by
    obtain ⟨rest, hrest, h⟩ := exists_of_bind_eq_ok h
    obtain ⟨name, hname, h⟩ := exists_of_bind_eq_ok h
    obtain ⟨u, hread, -⟩ := exists_of_bind_eq_ok h
    cases hname
    obtain ⟨q, hread, -⟩ := exists_of_map_eq_ok hread
    rw [Scan.descend_eq_ok hrest]
    have hp := Codec.keepsLimit_plain p rest q hread
    exact Nat.succ_le_succ (Nat.max_le.2 ⟨hp, Nat.zero_le rest⟩)
  | .entityRef _, depth, u, h | .locationRef _, depth, u, h => by
    obtain ⟨rest, hrest, -⟩ := exists_of_bind_eq_ok h
    rw [Scan.descend_eq_ok hrest]
    exact Nat.succ_le_succ (Nat.zero_le rest)
  | .list items, depth, u, h => by
    -- The alternative and the array each open one level.
    obtain ⟨inner, hinner, h⟩ := exists_of_bind_eq_ok h
    obtain ⟨us, hlist, -⟩ := exists_of_bind_eq_ok h
    obtain ⟨rest, hrest, hlist⟩ := exists_of_bind_eq_ok hlist
    obtain ⟨us', hitems, -⟩ := exists_of_bind_eq_ok hlist
    rw [Scan.descend_eq_ok hinner, Scan.descend_eq_ok hrest]
    have hdepth := depthItems_le_of_readItems items rest us' hitems
    exact Nat.succ_le_succ (Nat.max_le.2 ⟨Nat.succ_le_succ hdepth, Nat.zero_le _⟩)

private theorem depthItems_le_of_readItems : (vs : List Value) → (depth : Nat) →
    (us : List Value) → readItems depth (Scan.ofItems (writeItems vs)) = .ok us →
    depthItems (writeItems vs) ≤ depth
  | [], depth, _, _ => Nat.zero_le depth
  | v :: vs, depth, us, h => by
    obtain ⟨u, hread, h⟩ := exists_of_bind_eq_ok h
    obtain ⟨us', hrest, -⟩ := exists_of_bind_eq_ok h
    exact Nat.max_le.2 ⟨depth_le_of_read v depth u hread,
      depthItems_le_of_readItems vs depth us' hrest⟩

end

theorem keepsLimit_codec : codec.KeepsLimit := depth_le_of_read

end Value

theorem Relations.keepsLimit_codec : Relations.codec.KeepsLimit := by
  have hids := Codec.keepsLimit_list Codec.keepsLimit_string
  refine Schema.keepsLimit_codec ?_ _ _ _
  exact ⟨Field.keepsLimit_optional _ Codec.keepsLimit_string, by decide,
    Field.keepsLimit_default _ hids _, by decide, Field.keepsLimit_default _ hids _, by decide,
    Field.keepsLimit_default _ hids _, by decide, Field.keepsLimit_default _ hids _, by decide,
    trivial⟩

namespace Memento

theorem keepsLimit_codec : codec.KeepsLimit := by
  have hvalues := Codec.keepsLimit_map Value.keepsLimit_codec
  refine Schema.keepsLimit_codec ?_ _ _ _
  exact ⟨Field.keepsLimit_required _ Codec.keepsLimit_string, by decide,
    Field.keepsLimit_required _ (Codec.keepsLimit_enum _ _), by decide,
    Field.keepsLimit_required _ Codec.keepsLimit_string, by decide,
    Field.keepsLimit_required _ Codec.keepsLimit_string, by decide,
    Field.keepsLimit_default _ hvalues _, by decide, Field.keepsLimit_default _ hvalues _, by decide,
    Field.keepsLimit_default _ Relations.keepsLimit_codec _, by decide, trivial⟩

/-- If anything loads from the text of a memento without doubles, the memento nests no deeper than
`Scan.maxDepth`. -/
theorem depth_le_of_load {m m' : Memento} (hm : m.isIntegral = true)
    (h : load .placeholders (codec.toText m) = .ok m') :
    (codec.write m).depth ≤ Scan.maxDepth := by
  have hi : (codec.write m).integral = true := (integral_write m).trans hm
  rw [load_of_isFaithful Lookup.placeholders_isFaithful, Codec.ofText, Codec.toText,
    Scan.ofText_toText hi] at h
  cases hread : codec.read Scan.maxDepth (Scan.ofJson (codec.write m)) with
  | ok m'' => exact keepsLimit_codec m _ m'' hread
  | error e =>
    dsimp only at h
    rw [hread] at h
    cases h

/-- A memento without doubles loads from its text exactly if it nests no deeper than
`Scan.maxDepth`. -/
theorem load_toText_eq_ok_iff {m : Memento} (hm : m.isIntegral = true) :
    load .placeholders (codec.toText m) = .ok m ↔ (codec.write m).depth ≤ Scan.maxDepth :=
  ⟨depth_le_of_load hm, fun hd => load_toText ⟨hd, (integral_write m).trans hm⟩⟩

end Memento

end Failover
