import Failover.Proofs.Json.StoredForm

/-!
# Everything that is stored reads back

Mementos, topologies, deltas, node records, planes and their changes read back from their stored
text as what they were. Two things stand against it and no others: a form that nests deeper than a
reader follows, and a plain value with a number that is not an integer of 64 bits. Records and
planes have neither, so for them there is no condition.

## Key results

- `Memento.integral_write`, `Topology.integral_write`, `Delta.integral_write`: the numbers of a
  stored form are those in the plain values
- `Plane.depth_write_le`, `PlaneDelta.depth_write_le`: planes and their changes nest three levels
- `stored_readsBack`: every type that is stored reads back, with the lookup of placeholders too
-/

namespace Failover

open Json (depthItems depthMembers integralItems integralMembers)

/-! ## The other stored types -/

/-- A `Topology` reads back if its mementos do. -/
theorem Topology.lawful_codec : codec.Lawful := by
  have hobjects := Codec.lawful_map Memento.lawful_codec
  refine Schema.lawful_codec ?_ _ fun _ => rfl
  exact ⟨Field.lawful_required _ Codec.lawful_string, by decide,
    Field.lawful_required _ hobjects, by decide, Field.lawful_required _ hobjects, by decide,
    Field.lawful_required _ hobjects, by decide, trivial⟩

/-- A `Delta` reads back if its mementos do. -/
theorem Delta.lawful_codec : codec.Lawful := by
  have hchanged := Codec.lawful_list Memento.lawful_codec
  have hremoved := Codec.lawful_list Codec.lawful_string
  refine Schema.lawful_codec ?_ _ fun _ => rfl
  exact ⟨Field.lawful_required _ hchanged, by decide, Field.lawful_required _ hchanged, by decide,
    Field.lawful_required _ hchanged, by decide, Field.lawful_required _ hremoved, by decide,
    Field.lawful_required _ hremoved, by decide, Field.lawful_required _ hremoved, by decide,
    trivial⟩

/-- A `Plane` reads back; a missing master is told from a named one. -/
theorem Plane.lawful_codec : codec.Lawful := by
  refine Schema.lawful_codec ?_ _ fun _ => rfl
  exact ⟨Field.lawful_required _ (Codec.lawful_map NodeRecord.lawful_codec), by decide,
    Field.lawful_nullable _ Codec.lawful_string (fun _ => nofun), by decide, trivial⟩

/-- A `PlaneDelta` reads back. -/
theorem PlaneDelta.lawful_codec : codec.Lawful := by
  refine Schema.lawful_codec ?_ _ fun _ => rfl
  exact ⟨Field.lawful_required _ (Codec.lawful_list NodeRecord.lawful_codec), by decide,
    Field.lawful_required _ (Codec.lawful_list Codec.lawful_string), by decide, trivial⟩

/-- A `ManifestEntry` reads back. -/
theorem ManifestEntry.lawful_codec : codec.Lawful := by
  refine Schema.lawful_codec ?_ _ fun _ => rfl
  exact ⟨Field.lawful_required _ Codec.lawful_string, by decide,
    Field.lawful_required _ Codec.lawful_string, by decide, trivial⟩

/-! ## The numbers of a stored form -/

namespace Json

/-- `integralItems` asks every item of a list. -/
theorem integralItems_eq (js : List Json) : integralItems js = js.all integral := by
  induction js with
  | nil => rfl
  | cons j js ih => simp [integralItems, ih]

/-- `integralMembers` asks the value of every member. -/
theorem integralMembers_eq (ms : List (String × Json)) :
    integralMembers ms = ms.all fun e => e.2.integral := by
  induction ms with
  | nil => rfl
  | cons e ms ih => simp [integralMembers, ih]

/-- `depthItems` is the greatest depth of the items. -/
theorem depthItems_le {js : List Json} {n : Nat} : depthItems js ≤ n ↔ ∀ j ∈ js, j.depth ≤ n := by
  induction js with
  | nil => simp [depthItems]
  | cons j js ih => rw [depthItems, Nat.max_le, ih, List.forall_mem_cons]

theorem depthMembers_le {ms : List (String × Json)} {n : Nat} :
    depthMembers ms ≤ n ↔ ∀ e ∈ ms, e.2.depth ≤ n := by
  induction ms with
  | nil => simp [depthMembers]
  | cons e ms ih => rw [depthMembers, Nat.max_le, ih, List.forall_mem_cons]

end Json

namespace Codec

variable {α : Type} (c : Codec α)

@[simp] theorem integral_list (as : List α) :
    (c.list.write as).integral = as.all fun a => (c.write a).integral := by
  simp [list, Json.integral, Json.integralItems_eq, List.all_map, Function.comp_def]

@[simp] theorem integral_map (m : SortedMap String α) :
    (c.map.write m).integral = m.values.all fun a => (c.write a).integral := by
  simp [map, Json.integral, Json.integralMembers_eq, SortedMap.map, SortedMap.values, List.all_map,
    Function.comp_def]

@[simp] theorem integral_string (s : String) : (string.write s).integral = true := rfl

@[simp] theorem integral_plain (p : Plain) : (plain.write p).integral = p.json.integral := rfl

end Codec

namespace Value

mutual

/-- Whether every number in the plain parts of a `Value` is an integer of 64 bits. -/
def isIntegral : Value → Bool
  | .plain p => p.json.integral
  | .entityRef _ | .locationRef _ => true
  | .list items => areIntegral items

/-- Whether every `Value` of a list `isIntegral`. -/
def areIntegral : List Value → Bool
  | [] => true
  | v :: vs => v.isIntegral && areIntegral vs

end

mutual

theorem integral_write : (v : Value) → v.write.integral = v.isIntegral
  | .plain p => by simp [write, Json.integral, integralMembers, isIntegral]
  | .entityRef id | .locationRef id => by
    simp [write, Json.integral, integralMembers, isIntegral]
  | .list items => by
    have hitems := integral_writeItems items
    simp [write, Json.integral, integralMembers, isIntegral, hitems]

private theorem integral_writeItems : (vs : List Value) →
    integralItems (writeItems vs) = areIntegral vs
  | [] => rfl
  | v :: vs => by
    simp [writeItems, integralItems, areIntegral, integral_write v, integral_writeItems vs]

end

end Value

namespace Memento

/-- Whether every number in the `config` and the `attributes` is an integer of 64 bits. -/
def isIntegral (m : Memento) : Bool :=
  m.config.values.all (·.isIntegral) && m.attributes.values.all (·.isIntegral)

/-- The stored form of `Relations` has no numbers. -/
private theorem integral_relations (r : Relations) : (Relations.codec.write r).integral = true := by
  obtain ⟨parent, children, locations, tags, policies⟩ := r
  cases parent <;>
    simp [Relations.codec, Schema.codec, Schema.write, Field.optional, Field.default, Json.integral,
      integralMembers]

theorem integral_write (m : Memento) : (codec.write m).integral = m.isIntegral := by
  have hvalue : ∀ v, (Value.codec.write v).integral = v.isIntegral := Value.integral_write
  have hkind : (Kind.codec.write m.kind).integral = true := rfl
  simp [codec, Schema.codec, Schema.write, Field.required, Field.default, Json.integral,
    integralMembers, integral_relations, hvalue, hkind, isIntegral]

end Memento

/-- The numbers in the stored form of a `Topology` are those of its mementos. -/
theorem Topology.integral_write (t : Topology) :
    (codec.write t).integral = t.mementos.all (·.isIntegral) := by
  simp [codec, Schema.codec, Schema.write, Field.required, Json.integral, integralMembers,
    Memento.integral_write, mementos, ByRef.values, ByRef.toList, Kind.all, PerKind.get,
    SortedMap.values, List.all_map, Function.comp_def]

/-- The numbers in the stored form of a `Delta` are those of the mementos that it lists. -/
theorem Delta.integral_write (d : Delta) :
    (codec.write d).integral = Kind.all.all fun k => (d.changed.get k).all (·.isIntegral) := by
  have hids : ∀ ids : List String, (Codec.string.list.write ids).integral = true := fun ids => by
    simp
  simp only [codec, Schema.codec, Schema.write, Field.required, Json.integral, integralMembers,
    hids]
  simp [Memento.integral_write, Kind.all, PerKind.get]

/-! ## What always reads back -/

/-- The only numbers in the stored form of a `Plane` are times. -/
theorem Plane.integral_write (p : Plane) : (codec.write p).integral = true := by
  obtain ⟨nodes, masterId⟩ := p
  cases masterId <;>
    simp [codec, Schema.codec, Schema.write, Field.required, Field.nullable, Codec.option,
      Json.integral, integralMembers, NodeRecord.integral_write]

/-- The only numbers in the stored form of a `PlaneDelta` are times. -/
theorem PlaneDelta.integral_write (d : PlaneDelta) : (codec.write d).integral = true := by
  simp [codec, Schema.codec, Schema.write, Field.required, Json.integral, integralMembers,
    NodeRecord.integral_write]

/-- The stored form of a `ManifestEntry` has no numbers. -/
theorem ManifestEntry.integral_write (e : ManifestEntry) : (codec.write e).integral = true := rfl

/-- The stored form of a `Plane` nests three levels: its records stand two levels deep. -/
theorem Plane.depth_write_le (p : Plane) : (codec.write p).depth ≤ 3 := by
  obtain ⟨nodes, masterId⟩ := p
  have hnodes : (NodeRecord.codec.map.write nodes).depth ≤ 2 := by
    refine Nat.succ_le_succ (Json.depthMembers_le.2 fun e he => ?_)
    obtain ⟨n, -, rfl⟩ := List.mem_map.1 he
    exact Nat.le_of_eq (NodeRecord.depth_write n.2)
  have hmaster : (Codec.string.option.write masterId).depth = 0 := by cases masterId <;> rfl
  refine Nat.succ_le_succ (Json.depthMembers_le.2 ?_)
  simp [Schema.write, Field.required, Field.nullable, hnodes, hmaster]

/-- The stored form of a `PlaneDelta` nests three levels: its records stand two levels deep. -/
theorem PlaneDelta.depth_write_le (d : PlaneDelta) : (codec.write d).depth ≤ 3 := by
  have hnodes : (NodeRecord.codec.list.write d.nodes).depth ≤ 2 := by
    refine Nat.succ_le_succ (Json.depthItems_le.2 fun j hj => ?_)
    obtain ⟨n, -, rfl⟩ := List.mem_map.1 hj
    exact Nat.le_of_eq (NodeRecord.depth_write n)
  have hremoved : (Codec.string.list.write d.removed).depth ≤ 2 := by
    refine Nat.succ_le_succ (Json.depthItems_le.2 fun j hj => ?_)
    obtain ⟨id, -, rfl⟩ := List.mem_map.1 hj
    exact Nat.zero_le 1
  refine Nat.succ_le_succ (Json.depthMembers_le.2 ?_)
  simp [Schema.write, Field.required, hnodes, hremoved]

/-! ## Reading back -/

/-- `Codec.load` reads back what a lawful codec has stored, with a lookup that `IsFaithful`. -/
theorem Codec.Lawful.load_toText {α : Type} {c : Codec α} (hc : c.Lawful) {a : α}
    (hd : (c.write a).depth ≤ Scan.maxDepth) (hi : (c.write a).integral = true)
    (references : α → List ObjectRef) {l : Lookup} (hl : l.IsFaithful) :
    c.load references l (c.toText a) = .ok a := by
  rw [c.load_of_isFaithful references hl, hc.ofText_toText hd hi]
  rfl

/-- Every value that is stored reads back from its text as itself, whatever its ids, keys, names and
texts are, if its numbers are integers of 64 bits and its form nests no deeper than `Scan.maxDepth`.
What a lookup has to resolve loads with `placeholders` too. -/
theorem stored_readsBack :
    (∀ m : Memento, m.isIntegral → (Memento.codec.write m).depth ≤ Scan.maxDepth →
      Memento.codec.ofText (Memento.codec.toText m) = .ok m ∧
        Memento.load .placeholders (Memento.codec.toText m) = .ok m) ∧
    (∀ t : Topology, (∀ m ∈ t.mementos, m.isIntegral) →
      (Topology.codec.write t).depth ≤ Scan.maxDepth →
      Topology.codec.ofText (Topology.codec.toText t) = .ok t ∧
        Topology.codec.load Topology.references .placeholders (Topology.codec.toText t) = .ok t) ∧
    (∀ d : Delta, (∀ k, ∀ m ∈ d.changed.get k, m.isIntegral) →
      (Delta.codec.write d).depth ≤ Scan.maxDepth →
      Delta.codec.ofText (Delta.codec.toText d) = .ok d) ∧
    (∀ r : NodeRecord, NodeRecord.codec.ofText (NodeRecord.codec.toText r) = .ok r ∧
      NodeRecord.codec.load (fun _ => []) .placeholders (NodeRecord.codec.toText r) = .ok r) ∧
    (∀ e : ManifestEntry, ManifestEntry.codec.ofText (ManifestEntry.codec.toText e) = .ok e ∧
      ManifestEntry.codec.load (fun _ => []) .placeholders (ManifestEntry.codec.toText e) =
        .ok e) ∧
    (∀ p : Plane, Plane.codec.ofText (Plane.codec.toText p) = .ok p) ∧
    (∀ d : PlaneDelta, PlaneDelta.codec.ofText (PlaneDelta.codec.toText d) = .ok d) := by
  have hl := Lookup.placeholders_isFaithful
  -- One case for each type; what they need is the law, the depth and the numbers.
  refine ⟨fun m hm hd => ?_, fun t ht hd => ?_, fun d hm hd => ?_, fun r => ?_, fun e => ?_,
    fun p => ?_, fun d => ?_⟩
  · have hi : (Memento.codec.write m).integral = true := (Memento.integral_write m).trans hm
    exact ⟨Memento.lawful_codec.ofText_toText hd hi, Memento.lawful_codec.load_toText hd hi _ hl⟩
  · have hi : (Topology.codec.write t).integral = true := by
      rw [Topology.integral_write, List.all_eq_true]
      exact ht
    exact ⟨Topology.lawful_codec.ofText_toText hd hi, Topology.lawful_codec.load_toText hd hi _ hl⟩
  · have hi : (Delta.codec.write d).integral = true := by
      rw [Delta.integral_write, List.all_eq_true]
      intro k _
      rw [List.all_eq_true]
      exact hm k
    exact Delta.lawful_codec.ofText_toText hd hi
  · have hd : (NodeRecord.codec.write r).depth ≤ Scan.maxDepth := by
      rw [NodeRecord.depth_write]
      decide
    exact ⟨NodeRecord.ofText_toText r,
      NodeRecord.lawful_codec.load_toText hd (NodeRecord.integral_write r) _ hl⟩
  · have hd : (ManifestEntry.codec.write e).depth ≤ Scan.maxDepth := Nat.le_add_left 1 126
    have hi := ManifestEntry.integral_write e
    exact ⟨ManifestEntry.lawful_codec.ofText_toText hd hi,
      ManifestEntry.lawful_codec.load_toText hd hi _ hl⟩
  · have hd : (Plane.codec.write p).depth ≤ Scan.maxDepth :=
      Nat.le_trans (Plane.depth_write_le p) (by decide)
    exact Plane.lawful_codec.ofText_toText hd (Plane.integral_write p)
  · have hd : (PlaneDelta.codec.write d).depth ≤ Scan.maxDepth :=
      Nat.le_trans (PlaneDelta.depth_write_le d) (by decide)
    exact PlaneDelta.lawful_codec.ofText_toText hd (PlaneDelta.integral_write d)

/-- A `list` of values in a list, and so on `n` times, around a plain value. -/
def Value.nested (p : Plain) : Nat → Value
  | 0 => .plain p
  | n + 1 => .list [nested p n]

/-- A memento of the greatest depth with the least and the greatest integer, whose keys and texts
need escapes. -/
def Memento.deepest : Memento :=
  { Memento.new .location "\"é\\\n" "\u0000" with
    config := SortedMap.ofList
      [("𝄞", .nested (.of (.number (.int Int64.minValue.toInt))) 62),
        ("", .plain (.of (.object [("\t/", .number (.int (UInt64.size - 1 : Nat)))])))] }

/-- `Memento.deepest` nests as deep as is allowed, and loads from its text. -/
theorem stored_readsBack_deepest :
    (Memento.codec.write Memento.deepest).depth = Scan.maxDepth ∧
      Memento.load .placeholders (Memento.codec.toText Memento.deepest) = .ok Memento.deepest :=
  have hdepth : (Memento.codec.write Memento.deepest).depth = Scan.maxDepth := by decide +kernel
  ⟨hdepth, (stored_readsBack.1 Memento.deepest (by decide +kernel) (Nat.le_of_eq hdepth)).2⟩

end Failover
