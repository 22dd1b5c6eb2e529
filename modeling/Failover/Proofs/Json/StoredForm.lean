import Failover.Lookup
import Failover.Proofs.Json.Lawful

/-!
# Stored forms are read back

The codecs of mementos and node records keep their law, so a stored memento or record reads back as
what was stored.

## Key results

- `Value.lawful_codec`, `Memento.lawful_codec`, `NodeRecord.lawful_codec`: the law for each type
- `Memento.load_toText`: a storable memento loads from its text
- `ManifestEntry.ofText_toText`: the manifest reads the type of a storable memento
- `NodeRecord.ofText_toText`: every node record loads from its text
-/

namespace Failover

open Json (depthItems depthMembers)

theorem Kind.lawful_codec : Kind.codec.Lawful :=
  Codec.lawful_enum fun k => by cases k <;> decide

theorem NodeState.lawful_codec : NodeState.codec.Lawful :=
  Codec.lawful_enum fun s => by cases s <;> decide

/-! ## References -/

namespace Lookup

/-- A `Lookup` is faithful if it answers every reference with a handle to the object that it names.
-/
def IsFaithful (l : Lookup) : Prop :=
  ∀ r : ObjectRef, ∃ h, l r.kind none r.id = some h ∧ h.kind = r.kind ∧ h.id = r.id

/-- A `Lookup` keeps ids if a live answer has the id that was asked for, as objects ask for it. -/
def KeepsIds (l : Lookup) : Prop := ∀ k id o, l k none id = some (.live o) → o.id = id

/-- A faithful `Lookup` keeps ids. -/
theorem IsFaithful.keepsIds {l : Lookup} (hl : l.IsFaithful) : l.KeepsIds := by
  intro k id o ho
  obtain ⟨h, hr, -, hid⟩ := hl ⟨k, id⟩
  cases hr.symm.trans ho
  exact hid

/-- The lookup `placeholders` is faithful. -/
theorem placeholders_isFaithful : placeholders.IsFaithful := fun _ => ⟨_, rfl, rfl, rfl⟩

/-- With a faithful `Lookup` all references resolve. -/
theorem IsFaithful.resolveAll {l : Lookup} (hl : l.IsFaithful) (rs : List ObjectRef) :
    ∃ hs, ObjectRef.resolveAll l rs = .ok hs := by
  induction rs with
  | nil => exact ⟨[], rfl⟩
  | cons r rs ih =>
    obtain ⟨h, hr, hkind, -⟩ := hl r
    obtain ⟨hs, hrs⟩ := ih
    exact ⟨h :: hs, by
      simp [ObjectRef.resolveAll, ObjectRef.resolve, hr, hkind, hrs, bind, Except.bind, pure,
        Except.pure]⟩

end Lookup

/-- With a faithful `Lookup`, a value loads if its text can be read. -/
theorem Codec.load_of_isFaithful {α : Type} (c : Codec α) (references : α → List ObjectRef)
    {l : Lookup} (hl : l.IsFaithful) (text : String) :
    c.load references l text = (c.ofText text).mapError .json := by
  rw [load]
  cases c.ofText text with
  | error e => rfl
  | ok a =>
    -- The references of the value are resolved once it is read.
    obtain ⟨hs, h⟩ := hl.resolveAll (references a)
    show (ObjectRef.resolveAll l (references a) >>= fun _ => Except.ok a) = Except.ok a
    rw [h]
    rfl

/-! ## Mementos -/

namespace Value

mutual

/-- `Value.read` reads back what `Value.write` has written. -/
private theorem read_write : (v : Value) → (depth : Nat) → v.write.depth ≤ depth →
    read depth (Scan.ofJson v.write) = .ok v
  | .plain p, depth, h => by
    obtain ⟨depth, rfl⟩ := Nat.exists_eq_add_of_le' (Nat.le_trans (Nat.le_add_left 1 _) h)
    have hp : Codec.plain.read depth (Scan.ofJson p.json) = .ok p :=
      Codec.lawful_plain p depth (by simpa [write, Json.depth, depthMembers, Codec.plain] using h)
    simp [write, Scan.ofJson, Scan.ofMembers, read, Scan.readVariant, Scan.descend, Scan.readName,
      names, readLeaf, hp, bind, Except.bind, pure, Except.pure, Except.map]
  | .entityRef id, depth, h => by
    obtain ⟨depth, rfl⟩ := Nat.exists_eq_add_of_le' (Nat.le_trans (Nat.le_add_left 1 _) h)
    simp [write, Scan.ofJson, Scan.ofMembers, read, Scan.readVariant, Scan.descend, Scan.readName,
      names, readLeaf, Scan.readString, bind, Except.bind, pure, Except.pure, Except.map]
  | .locationRef id, depth, h => by
    obtain ⟨depth, rfl⟩ := Nat.exists_eq_add_of_le' (Nat.le_trans (Nat.le_add_left 1 _) h)
    simp [write, Scan.ofJson, Scan.ofMembers, read, Scan.readVariant, Scan.descend, Scan.readName,
      names, readLeaf, Scan.readString, bind, Except.bind, pure, Except.pure, Except.map]
  | .list items, depth, h => by
    -- The alternative and the array each open one level.
    simp only [write, Json.depth, depthMembers, Nat.max_zero] at h
    obtain ⟨depth, rfl⟩ := Nat.exists_eq_add_of_le' (Nat.le_trans (Nat.le_add_left 2 _) h)
    have hitems := readItems_writeItems items depth (by omega)
    simp [write, Scan.ofJson, Scan.ofMembers, read, readList, Scan.descend, hitems, bind,
      Except.bind, pure, Except.pure]

private theorem readItems_writeItems : (vs : List Value) → (depth : Nat) →
    depthItems (writeItems vs) ≤ depth →
    readItems depth (Scan.ofItems (writeItems vs)) = .ok vs
  | [], _, _ => rfl
  | v :: vs, depth, h => by
    simp only [writeItems, depthItems, Nat.max_le] at h
    simp [writeItems, Scan.ofItems, readItems, read_write v depth h.1,
      readItems_writeItems vs depth h.2, bind, Except.bind, pure, Except.pure]

end

/-- A `Value` reads back. -/
theorem lawful_codec : codec.Lawful := read_write

end Value

/-- `Relations` read back. -/
theorem Relations.lawful_codec : Relations.codec.Lawful := by
  have hids := Codec.lawful_list Codec.lawful_string
  refine Schema.lawful_codec ?_ _ fun _ => rfl
  exact ⟨Field.lawful_optional _ Codec.lawful_string (fun _ => nofun), by decide,
    Field.lawful_default _ hids _, by decide, Field.lawful_default _ hids _, by decide,
    Field.lawful_default _ hids _, by decide, Field.lawful_default _ hids _, by decide, trivial⟩

namespace Memento

/-- A `Memento` reads back, since all of its parts do. -/
theorem lawful_codec : codec.Lawful := by
  have hvalues := Codec.lawful_map Value.lawful_codec
  refine Schema.lawful_codec ?_ _ fun _ => rfl
  exact ⟨Field.lawful_required _ Codec.lawful_string, by decide,
    Field.lawful_required _ Kind.lawful_codec, by decide,
    Field.lawful_required _ Codec.lawful_string, by decide,
    Field.lawful_required _ Codec.lawful_string, by decide,
    Field.lawful_default _ hvalues _, by decide, Field.lawful_default _ hvalues _, by decide,
    Field.lawful_default _ Relations.lawful_codec _, by decide, trivial⟩

/-- A `Memento` is storable if it nests no deeper than `Scan.maxDepth`, and the numbers in it are
integers. -/
structure IsStorable (m : Memento) : Prop where
  depth_le : (codec.write m).depth ≤ Scan.maxDepth
  integral : (codec.write m).integral = true

/-- With a faithful `Lookup`, a `Memento` loads if its text can be read. -/
theorem load_of_isFaithful {l : Lookup} (hl : l.IsFaithful) (text : String) :
    load l text = (codec.ofText text).mapError .json :=
  Codec.load_of_isFaithful codec references hl text

/-- With a faithful `Lookup`, what loads is what `Memento.codec` reads. -/
theorem load_eq_ok_iff {l : Lookup} (hl : l.IsFaithful) {text : String} {m : Memento} :
    load l text = .ok m ↔ codec.ofText text = .ok m := by
  rw [load_of_isFaithful hl]
  cases codec.ofText text with
  | error e =>
    show Except.error (SerializerError.json e) = _ ↔ _
    simp
  | ok m' =>
    show Except.ok m' = _ ↔ _
    simp

/-- A storable `Memento` loads from its stored text. -/
theorem load_toText {m : Memento} (hm : m.IsStorable) :
    load .placeholders (codec.toText m) = .ok m := by
  rw [load_of_isFaithful Lookup.placeholders_isFaithful,
    lawful_codec.ofText_toText hm.depth_le hm.integral]
  rfl

end Memento

/-! ## Manifest entries -/

namespace Scan

mutual

/-- The outline of a value is `complete`. -/
theorem complete_ofJson : (j : Json) → (ofJson j).complete = true
  | .null | .bool _ | .number _ | .string _ => rfl
  | .array js => by simp [ofJson, complete, completeItems_ofItems js]
  | .object ms => by simp [ofJson, complete, completeMembers_ofMembers ms]

private theorem completeItems_ofItems : (js : List Json) → completeItems (ofItems js) = true
  | [] => rfl
  | j :: js => by simp [ofItems, completeItems, complete_ofJson j, completeItems_ofItems js]

private theorem completeMembers_ofMembers : (ms : List (String × Json)) →
    completeMembers (ofMembers ms) = true
  | [] => rfl
  | (_, j) :: ms => by
    simp [ofMembers, completeMembers, complete_ofJson j, completeMembers_ofMembers ms]

end

end Scan

/-- The manifest reads the id and type of a storable `Memento` from its text. -/
theorem ManifestEntry.ofText_toText {m : Memento} (hm : m.IsStorable) :
    ofText (Memento.codec.toText m) = .ok ⟨m.id, m.objectType⟩ := by
  rw [ofText, Codec.ofText, Codec.toText, Scan.ofText_toText hm.integral]
  -- The members before the type and after it are skipped.
  simp [codec, Memento.codec, Schema.codec, Schema.write, Scan.ofJson, Scan.ofMembers, Schema.read,
    Schema.readMembers, Schema.fill, Schema.vacant, Schema.finish, Field.required, Field.default,
    Codec.string, Scan.readString, Scan.descend, Scan.maxDepth, Scan.complete_ofJson, Scan.complete,
    bind, Except.bind, pure, Except.pure, Except.map]

/-! ## Node records -/

namespace NodeRecord

/-- A `NodeRecord` reads back; its optional members are told from null. -/
theorem lawful_codec : codec.Lawful := by
  refine Schema.lawful_codec ?_ _ fun _ => rfl
  exact ⟨Field.lawful_required _ Codec.lawful_string, by decide,
    Field.lawful_required _ NodeState.lawful_codec, by decide,
    Field.lawful_required _ Codec.lawful_int64, by decide,
    Field.lawful_required _ Codec.lawful_string, by decide,
    Field.lawful_optional _ Codec.lawful_string (fun _ => nofun), by decide,
    Field.lawful_optional _ Codec.lawful_int64 (fun _ => nofun), by decide, trivial⟩

private theorem inRange_toInt (n : Int64) : Number.inRange n.toInt = true := by
  have hmin := Int64.minValue_le_toInt n
  have hmax := Int64.toInt_le n
  have hle : Int64.maxValue.toInt < (UInt64.size : Int) := by decide
  simp only [Number.inRange, Bool.and_eq_true, decide_eq_true_eq]
  omega

/-- The stored form of a `NodeRecord` nests one level. -/
theorem depth_write (r : NodeRecord) : (codec.write r).depth = 1 := by
  obtain ⟨nodeId, state, timestamp, version, uri, masterSince⟩ := r
  cases uri <;> cases masterSince <;>
    simp [codec, Schema.codec, Schema.write, Field.required, Field.optional, Codec.string,
      Codec.int64, NodeState.codec, Codec.enum, Json.depth, depthMembers]

/-- The only numbers in the stored form of a `NodeRecord` are times. -/
theorem integral_write (r : NodeRecord) : (codec.write r).integral = true := by
  obtain ⟨nodeId, state, timestamp, version, uri, masterSince⟩ := r
  cases uri <;> cases masterSince <;>
    simp [codec, Schema.codec, Schema.write, Field.required, Field.optional, Codec.string,
      Codec.int64, NodeState.codec, Codec.enum, Json.integral, Json.integralMembers, inRange_toInt]

/-- Every `NodeRecord` reads back from its stored text. -/
@[simp] theorem ofText_toText (r : NodeRecord) : codec.ofText (codec.toText r) = .ok r := by
  have hdepth : (codec.write r).depth ≤ Scan.maxDepth := by
    rw [depth_write]
    decide
  exact lawful_codec.ofText_toText hdepth (integral_write r)

end NodeRecord

end Failover
