import Failover.Json.Record
import Failover.Proofs.Json.Text

/-!
# Codecs keep their law

What a codec writes it reads back wherever the nesting is allowed. The law is shown for each way of
building a codec; for a record it follows from the law of its fields, whose names must differ.

## Key results

- `Codec.lawful_list`, `Codec.lawful_map`, `Codec.lawful_enum`, `Codec.lawful_plain`: the law for
  the building blocks
- `Schema.lawful_codec`: the law for records
- `Codec.Lawful.ofText_toText`: a lawful codec reads back what it has stored, if no number is a
  double
-/

namespace Failover

open Json (depthItems depthMembers)

/-! ## Building blocks -/

namespace Codec

variable {α : Type}

theorem lawful_string : string.Lawful := fun _ _ _ => rfl

/-- Every `Int64` reads back, as its number is in the range that `readInt64` asks for. -/
theorem lawful_int64 : int64.Lawful := by
  intro n depth _
  have hn : n.toInt ≤ Int64.maxValue.toInt := Int64.toInt_le n
  simp [int64, Scan.ofJson, Scan.readInt64, hn]

/-- `readAll` reads back the items that a lawful codec has written. -/
private theorem readAll_ofItems {c : Codec α} (hc : c.Lawful) (depth : Nat) (as : List α)
    (h : depthItems (as.map c.write) ≤ depth) :
    Scan.readAll (c.read depth) (Scan.ofItems (as.map c.write)) = .ok as := by
  induction as with
  | nil => rfl
  | cons a as ih =>
    simp only [List.map_cons, depthItems, Nat.max_le] at h
    simp [Scan.ofItems, Scan.readAll, hc a depth h.1, ih h.2, bind, Except.bind, pure, Except.pure]

/-- A list reads back if its items do (`Codec.list`). -/
theorem lawful_list {c : Codec α} (hc : c.Lawful) : c.list.Lawful := by
  intro as depth h
  cases depth with
  | zero => simp [list, Json.depth] at h
  | succ depth =>
    have hall := readAll_ofItems hc depth as (by simpa [list, Json.depth] using h)
    simp [list, Scan.ofJson, Scan.readList, Scan.descend, hall, bind, Except.bind, pure, Except.pure]

/-- `readMembers` puts into a map what a lawful codec has written of its entries. -/
private theorem readMembers_ofMembers {c : Codec α} (hc : c.Lawful) (depth : Nat)
    (es : List (String × α)) (m : SortedMap String α)
    (h : depthMembers (es.map fun e => (e.1, c.write e.2)) ≤ depth) :
    Scan.readMembers (c.read depth) m (Scan.ofMembers (es.map fun e => (e.1, c.write e.2))) =
      .ok (m.insertAll es) := by
  induction es generalizing m with
  | nil => rfl
  | cons e es ih =>
    simp only [List.map_cons, depthMembers, Nat.max_le] at h
    simp [Scan.ofMembers, Scan.readMembers, hc e.2 depth h.1, ih _ h.2, bind, Except.bind]

/-- A map reads back if its values do (`Codec.map`). -/
theorem lawful_map {c : Codec α} (hc : c.Lawful) : c.map.Lawful := by
  intro m depth h
  cases depth with
  | zero => simp [map, Json.depth] at h
  | succ depth =>
    have hall := readMembers_ofMembers hc depth m.entries .empty
      (by simpa [map, Json.depth, SortedMap.map] using h)
    -- A sorted map is what its own entries build.
    have hm : SortedMap.empty.insertAll m.entries = m := SortedMap.ofList_entries m
    rw [hm] at hall
    simp [map, SortedMap.map, Scan.ofJson, Scan.readMap, Scan.descend, hall, bind, Except.bind, pure,
      Except.pure]

/-- An alternative reads back if its name is listed for it (`Codec.enum`). -/
theorem lawful_enum {names : List (String × α)} {name : α → String}
    (h : ∀ a, names.lookup (name a) = some a ∧ (names.map (·.1)).contains (name a) = true) :
    (enum names name).Lawful := by
  intro a depth _
  simp only [enum, Scan.ofJson, Scan.readVariant, Scan.readName, (h a).2, if_true, bind, Except.bind,
    (h a).1]

/-- `Codec.option` reads back what it writes, if no value is written as null. -/
theorem lawful_option {c : Codec α} (hc : c.Lawful) (hnull : ∀ a, c.write a ≠ .null) :
    c.option.Lawful := by
  intro a depth hd
  cases a with
  | none => rfl
  | some a =>
    have hread : c.read depth (Scan.ofJson (c.write a)) = .ok a := hc a depth hd
    have hscan : Scan.ofJson (c.write a) ≠ .null := by
      intro h
      cases hw : c.write a <;> simp [hw, Scan.ofJson] at h
      exact hnull a hw
    -- What is not null is read with the codec of the value.
    show Scan.readOption c.read depth (Scan.ofJson (c.write a)) = .ok (some a)
    rw [Scan.readOption, hread]
    · rfl
    · exact hscan

/-! ## Any value -/

mutual

/-- `readJson` reads any value back from its outline (`Scan.ofJson`). -/
theorem readJson_ofJson : (j : Json) → (depth : Nat) → j.depth ≤ depth →
    Scan.readJson depth (Scan.ofJson j) = .ok j
  | .null, depth, _ => by cases depth <;> rfl
  | .bool b, depth, _ => by cases depth <;> rfl
  | .number n, depth, _ => by cases depth <;> rfl
  | .string s, depth, _ => by cases depth <;> rfl
  | .array items, 0, h => by simp [Json.depth] at h
  | .object ms, 0, h => by simp [Json.depth] at h
  | .array items, depth + 1, h => by
    have hitems := readJsonItems_ofItems items depth (by simpa [Json.depth] using h)
    simp [Scan.ofJson, Scan.readJson, hitems, bind, Except.bind, pure, Except.pure]
  | .object ms, depth + 1, h => by
    have hms := readJsonMembers_ofMembers ms depth (by simpa [Json.depth] using h)
    simp [Scan.ofJson, Scan.readJson, hms, bind, Except.bind, pure, Except.pure]

/-- `readJsonItems` reads the items of an array back from their outlines. -/
theorem readJsonItems_ofItems : (js : List Json) → (depth : Nat) → depthItems js ≤ depth →
    Scan.readJsonItems depth (Scan.ofItems js) = .ok js
  | [], _, _ => rfl
  | j :: js, depth, h => by
    simp only [depthItems, Nat.max_le] at h
    simp [Scan.ofItems, Scan.readJsonItems, readJson_ofJson j depth h.1,
      readJsonItems_ofItems js depth h.2, bind, Except.bind, pure, Except.pure]

/-- `readJsonMembers` reads the members of an object back from their outlines. -/
theorem readJsonMembers_ofMembers : (ms : List (String × Json)) → (depth : Nat) →
    depthMembers ms ≤ depth → Scan.readJsonMembers depth (Scan.ofMembers ms) = .ok ms
  | [], _, _ => rfl
  | (k, j) :: ms, depth, h => by
    simp only [depthMembers, Nat.max_le] at h
    simp [Scan.ofMembers, Scan.readJsonMembers, readJson_ofJson j depth h.1,
      readJsonMembers_ofMembers ms depth h.2, bind, Except.bind, pure, Except.pure]

end

/-- A `Plain` value reads back: its outline is read as it is, and it is in normal form already. -/
theorem lawful_plain : plain.Lawful := by
  intro p depth h
  simp only [plain] at h ⊢
  rw [readJson_ofJson p.json depth h]
  simp [Except.map]

end Codec

/-! ## Records -/

/-- A `Field` is lawful if it reads back what it writes, and if where it writes nothing the value is
the one for a missing member. -/
structure Field.Lawful {α : Type} (f : Field α) : Prop where
  read_write : ∀ a j depth, f.write a = some j → j.depth ≤ depth →
    f.read depth (Scan.ofJson j) = .ok a
  ifAbsent_of_none : ∀ a, f.write a = none → f.ifAbsent = some a

namespace Field

variable {α : Type} {c : Codec α}

/-- A `required` field is lawful if its codec is. -/
theorem lawful_required (name : String) (hc : c.Lawful) : (required name c).Lawful where
  read_write a j depth hj hd := by
    obtain rfl : c.write a = j := by simpa [required] using hj
    exact hc a depth hd
  ifAbsent_of_none a h := by simp [required] at h

/-- A `default` field is lawful if its codec is: it is always written. -/
theorem lawful_default (name : String) (hc : c.Lawful) (value : α) :
    (default name c value).Lawful where
  read_write a j depth hj hd := by
    obtain rfl : c.write a = j := by simpa [default] using hj
    exact hc a depth hd
  ifAbsent_of_none a h := by simp [default] at h

/-- An `optional` field is lawful if its codec is and tells its values from null. -/
theorem lawful_optional (name : String) (hc : c.Lawful) (hnull : ∀ a, c.write a ≠ .null) :
    (optional name c).Lawful where
  read_write a j depth hj hd := by
    cases a with
    | none => simp [optional] at hj
    | some a =>
      obtain rfl : c.write a = j := by simpa [optional] using hj
      exact Codec.lawful_option hc hnull (some a) depth hd
  ifAbsent_of_none a h := by
    cases a with
    | none => rfl
    | some a => simp [optional] at h

/-- A `nullable` field is `Lawful` if no value of its codec is written as null. -/
theorem lawful_nullable (name : String) (hc : c.Lawful) (hnull : ∀ a, c.write a ≠ .null) :
    (nullable name c).Lawful where
  read_write a j depth hj hd := by
    obtain rfl : c.option.write a = j := by simpa [nullable] using hj
    exact Codec.lawful_option hc hnull a depth hd
  ifAbsent_of_none a h := by simp [nullable] at h

end Field

namespace Schema

variable {ρ σ : Type}

/-- The names of the fields of a `Schema`. -/
def names : {ρ σ : Type} → Schema ρ σ → List String
  | _, _, .nil => []
  | _, _, .cons f rest => f.name :: rest.names

/-- A `Schema` is lawful if every field is, and no two have one name. -/
def Lawful : {ρ σ : Type} → Schema ρ σ → Prop
  | _, _, .nil => True
  | _, _, .cons f rest => f.Lawful ∧ f.name ∉ rest.names ∧ rest.Lawful

/-- What has been read once all members have been that `Schema.write` gives for a record. -/
def filled : {ρ σ : Type} → Schema ρ σ → ρ → σ
  | _, _, .nil, _ => ()
  | _, _, .cons f rest, (a, r) => ((f.write a).map fun _ => a, rest.filled r)

/-- The members of a record bear the `names` of its fields. -/
theorem keys_write (s : Schema ρ σ) (r : ρ) : ∀ e ∈ s.write r, e.1 ∈ s.names := by
  induction s with
  | nil => simp [write]
  | cons f rest ih =>
    obtain ⟨a, r⟩ := r
    intro e he
    -- A field that is left out adds no member, and any other adds one of its own name.
    cases hw : f.write a with
    | none =>
      simp only [write, hw] at he
      exact List.mem_cons_of_mem _ (ih r e he)
    | some j =>
      simp only [write, hw, List.mem_cons] at he
      rcases he with rfl | he
      · exact List.mem_cons_self
      · exact List.mem_cons_of_mem _ (ih r e he)

/-- Members that do not have the name of the first field leave its place alone. -/
private theorem readMembers_cons {α : Type} (f : Field α) (rest : Schema ρ σ) (depth : Nat)
    (slot : Option α) (slots : σ) (ms : List (String × Json)) (h : ∀ e ∈ ms, e.1 ≠ f.name) :
    (cons f rest).readMembers depth (slot, slots) (Scan.ofMembers ms) =
      (rest.readMembers depth slots (Scan.ofMembers ms)).map (slot, ·) := by
  induction ms generalizing slots with
  | nil => rfl
  | cons e ms ih =>
    obtain ⟨k, j⟩ := e
    have hk : k ≠ f.name := h (k, j) (by simp)
    have ih := fun slots => ih slots fun e he => h e (by simp [he])
    simp only [Scan.ofMembers, readMembers, fill, hk, if_false, bind, Except.bind]
    -- The other fields see the member as if they were alone.
    cases rest.fill depth k (Scan.ofJson j) slots with
    | error e => rfl
    | ok filled =>
      cases filled with
      | none =>
        simp only [pure, Except.pure, Option.map_none]
        split
        · exact ih slots
        · rfl
      | some slots => exact ih slots

/-- `readMembers` fills the places of a record from the members that it is written as. -/
private theorem readMembers_write (s : Schema ρ σ) (hs : s.Lawful) (r : ρ) (depth : Nat)
    (h : depthMembers (s.write r) ≤ depth) :
    s.readMembers depth s.vacant (Scan.ofMembers (s.write r)) = .ok (s.filled r) := by
  induction s with
  | nil => rfl
  | cons f rest ih =>
    obtain ⟨a, r⟩ := r
    obtain ⟨hf, hname, hrest⟩ := hs
    -- The other members have other names, so they leave the first place alone.
    have hkeys : ∀ e ∈ rest.write r, e.1 ≠ f.name := by
      intro e he heq
      exact hname (heq ▸ keys_write rest r e he)
    cases hw : f.write a with
    | none =>
      simp only [write, hw] at h ⊢
      rw [vacant, readMembers_cons f rest depth _ _ _ hkeys, ih hrest r h]
      simp [filled, hw, Except.map]
    | some j =>
      simp only [write, hw, depthMembers, Nat.max_le] at h ⊢
      have hread := hf.read_write a j depth hw h.1
      simp only [Scan.ofMembers, readMembers, vacant, fill, if_true, Option.isSome_none, hread, bind,
        Except.bind, pure, Except.pure, Bool.false_eq_true, if_false]
      rw [readMembers_cons f rest depth _ _ _ hkeys, ih hrest r h.2]
      simp [filled, hw, Except.map]

/-- `finish` gives back the record whose places are `filled`. -/
private theorem finish_filled (s : Schema ρ σ) (hs : s.Lawful) (r : ρ) :
    s.finish (s.filled r) = .ok r := by
  induction s with
  | nil => rfl
  | cons f rest ih =>
    obtain ⟨a, r⟩ := r
    obtain ⟨hf, -, hrest⟩ := hs
    cases hw : f.write a with
    -- A member that was left out has the value for a missing one.
    | none =>
      simp [filled, finish, hw, hf.ifAbsent_of_none a hw, ih hrest r, bind, Except.bind, pure,
        Except.pure]
    | some j => simp [filled, finish, hw, ih hrest r, bind, Except.bind, pure, Except.pure]

/-- A record reads back if its `Schema` is lawful. -/
theorem lawful_codec {α : Type} {s : Schema ρ σ} (hs : s.Lawful) (name : String) {toRow : α → ρ}
    {ofRow : ρ → α} (hrow : ∀ a, ofRow (toRow a) = a) : (s.codec name toRow ofRow).Lawful := by
  intro a depth h
  cases depth with
  | zero => simp [codec, Json.depth] at h
  | succ depth =>
    have hread := readMembers_write s hs (toRow a) depth (by simpa [codec, Json.depth] using h)
    simp [codec, Scan.ofJson, read, Scan.descend, hread, finish_filled s hs (toRow a), hrow, bind,
      Except.bind, Except.map]

end Schema

/-! ## Stored texts -/

/-- `ofText` reads back what a lawful codec has stored by `toText`, if the text does not nest too
deep and no number is a double. -/
theorem Codec.Lawful.ofText_toText {α : Type} {c : Codec α} (hc : c.Lawful) {a : α}
    (hd : (c.write a).depth ≤ Scan.maxDepth) (hi : (c.write a).integral = true) :
    c.ofText (c.toText a) = .ok a := by
  simp [Codec.ofText, Codec.toText, Scan.ofText_toText hi, hc a _ hd, bind, Except.bind, pure,
    Except.pure]

end Failover
