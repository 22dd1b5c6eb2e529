import Failover.Memento.Format
import Failover.Proofs.Json.Lawful
import Failover.Proofs.Outcome

/-!
# What is read is read to its end

A reader accepts a scan only if the text behind it can be followed to its end. So whoever skips a
member that another reader has accepted comes through as well.

## Key results

- `Reader.readsWhole_list`, `Reader.readsWhole_map`, `Reader.readsWhole_option`,
  `Reader.readsWhole_variant`, `Reader.readsWhole_json`: the building blocks read to the end
- `Schema.readsWhole_read`: so do records
- `Value.readsWhole_read`, `Relations.readsWhole_read`: so do the parts of a memento
-/

namespace Failover

namespace Reader

variable {α : Type} {read : Reader α}

/-- A `Reader` reads to the end if it accepts nothing that cannot be followed to its end. -/
def ReadsWhole (read : Reader α) : Prop :=
  ∀ depth s a, read depth s = .ok a → s.complete = true

/-! ## Building blocks -/

/-- `readString` reads to the end. -/
theorem readsWhole_string : ReadsWhole Scan.readString := by
  intro depth s a h
  cases s with
  | string v => rfl
  | _ => cases h

/-- `readUnit` reads to the end. -/
theorem readsWhole_unit : ReadsWhole Scan.readUnit := by
  intro depth s a h
  cases s with
  | null => rfl
  | _ => cases h

/-- `readOption` reads to the end if its reader does. -/
theorem readsWhole_option (hread : ReadsWhole read) : ReadsWhole (Scan.readOption read) := by
  intro depth s a h
  rw [Scan.readOption.eq_def] at h
  split at h
  · rfl
  · obtain ⟨b, hb, -⟩ := exists_of_map_eq_ok h
    exact hread _ _ b hb

/-- What `readAll` accepts can be followed to its end. -/
private theorem completeItems_of_readAll (hread : ReadsWhole read) {depth : Nat} {ss : List Scan}
    {as : List α} (h : Scan.readAll (read depth) ss = .ok as) : Scan.completeItems ss = true := by
  induction ss generalizing as with
  | nil => rfl
  | cons s ss ih =>
    obtain ⟨a, ha, h⟩ := exists_of_bind_eq_ok h
    obtain ⟨as', hrest, -⟩ := exists_of_bind_eq_ok h
    rw [Scan.completeItems, hread depth s a ha, ih hrest, Bool.and_self]

/-- `readList` reads to the end if its reader does. -/
theorem readsWhole_list (hread : ReadsWhole read) : ReadsWhole (Scan.readList read) := by
  intro depth s as h
  cases s with
  | array items closed =>
    obtain ⟨inner, -, h⟩ := exists_of_bind_eq_ok h
    obtain ⟨as', hall, h⟩ := exists_of_bind_eq_ok h
    rw [Scan.complete, completeItems_of_readAll hread hall, (of_ite_eq_ok h).1, Bool.and_self]
  | _ => cases h

/-- What `Scan.readMembers` accepts can be followed to its end. -/
private theorem completeMembers_of_readMembers (hread : ReadsWhole read) {depth : Nat}
    {ms : List (Option String × Scan)} {m m' : SortedMap String α}
    (h : Scan.readMembers (read depth) m ms = .ok m') : Scan.completeMembers ms = true := by
  induction ms generalizing m with
  | nil => rfl
  | cons e ms ih =>
    obtain ⟨key, s⟩ := e
    cases key with
    | none => cases h
    | some key =>
      obtain ⟨a, ha, h⟩ := exists_of_bind_eq_ok h
      rw [Scan.completeMembers, hread depth s a ha, ih h, Bool.and_self]

/-- `readMap` reads to the end if its reader does. -/
theorem readsWhole_map (hread : ReadsWhole read) : ReadsWhole (Scan.readMap read) := by
  intro depth s m h
  cases s with
  | object ms closed =>
    obtain ⟨inner, -, h⟩ := exists_of_bind_eq_ok h
    obtain ⟨m', hall, h⟩ := exists_of_bind_eq_ok h
    rw [Scan.complete, completeMembers_of_readMembers hread hall, (of_ite_eq_ok h).1, Bool.and_self]
  | _ => cases h

/-- `readVariant` reads to the end if the content of its one member is followed to its end. -/
theorem readsWhole_variant {names : List String} {bare : String → Except ReadError α}
    {content : Nat → String → Scan → Except ReadError α}
    (hcontent : ∀ depth name s a, content depth name s = .ok a → s.complete = true) :
    ReadsWhole (Scan.readVariant names bare content) := by
  intro depth s a h
  cases s with
  | string v => rfl
  | object ms closed =>
    -- An alternative with contents is an object of one member, and closed behind it.
    cases ms with
    | nil => cases h
    | cons e ms =>
      obtain ⟨inner, -, h⟩ := exists_of_bind_eq_ok h
      obtain ⟨name, -, h⟩ := exists_of_bind_eq_ok h
      obtain ⟨a', ha', h⟩ := exists_of_bind_eq_ok h
      obtain ⟨hempty, hclosed⟩ := Bool.and_eq_true_iff.1 (of_ite_eq_ok h).1
      obtain rfl := List.isEmpty_iff.1 hempty
      simp [Scan.complete, Scan.completeMembers, hcontent _ _ _ a' ha', hclosed]
  | _ => cases h

/-- `Codec.enum` reads to the end. -/
theorem readsWhole_enum (names : List (String × α)) (name : α → String) :
    ReadsWhole (Codec.enum names name).read := by
  refine readsWhole_variant fun depth n s a h => ?_
  obtain ⟨u, hu, -⟩ := exists_of_bind_eq_ok h
  exact readsWhole_unit depth s u hu

/-! ## Any value -/

mutual

/-- What `readJson` accepts can be followed to its end. -/
private theorem complete_of_readJson : (s : Scan) → (depth : Nat) → (j : Json) →
    Scan.readJson depth s = .ok j → s.complete = true
  | .null, _, _, _ | .bool _, _, _, _ | .number _, _, _, _ | .string _, _, _, _ => rfl
  | .array _ _, 0, _, h | .object _ _, 0, _, h => by cases h
  | .array items closed, depth + 1, j, h => by
    obtain ⟨js, hitems, h⟩ := exists_of_bind_eq_ok h
    rw [Scan.complete, completeItems_of_readJsonItems items depth js hitems, (of_ite_eq_ok h).1,
      Bool.and_self]
  | .object ms closed, depth + 1, j, h => by
    obtain ⟨js, hms, h⟩ := exists_of_bind_eq_ok h
    rw [Scan.complete, completeMembers_of_readJsonMembers ms depth js hms, (of_ite_eq_ok h).1,
      Bool.and_self]
  | .broken, _, _, h => by cases h

private theorem completeItems_of_readJsonItems : (ss : List Scan) → (depth : Nat) →
    (js : List Json) → Scan.readJsonItems depth ss = .ok js → Scan.completeItems ss = true
  | [], _, _, _ => rfl
  | s :: ss, depth, js, h => by
    obtain ⟨j, hj, h⟩ := exists_of_bind_eq_ok h
    obtain ⟨js', hrest, -⟩ := exists_of_bind_eq_ok h
    rw [Scan.completeItems, complete_of_readJson s depth j hj,
      completeItems_of_readJsonItems ss depth js' hrest, Bool.and_self]

private theorem completeMembers_of_readJsonMembers : (ms : List (Option String × Scan)) →
    (depth : Nat) → (js : List (String × Json)) → Scan.readJsonMembers depth ms = .ok js →
    Scan.completeMembers ms = true
  | [], _, _, _ => rfl
  | (none, _) :: _, _, _, h => by cases h
  | (some _, s) :: ms, depth, js, h => by
    obtain ⟨j, hj, h⟩ := exists_of_bind_eq_ok h
    obtain ⟨js', hrest, -⟩ := exists_of_bind_eq_ok h
    rw [Scan.completeMembers, complete_of_readJson s depth j hj,
      completeMembers_of_readJsonMembers ms depth js' hrest, Bool.and_self]

end

/-- `readJson` reads to the end. -/
theorem readsWhole_json : ReadsWhole Scan.readJson := fun depth s j => complete_of_readJson s depth j

end Reader

/-! ## Records -/

namespace Schema

/-- A `Schema` reads to the end if every field does. -/
def ReadsWhole : {ρ σ : Type} → Schema ρ σ → Prop
  | _, _, .nil => True
  | _, _, .cons f rest => Reader.ReadsWhole f.read ∧ rest.ReadsWhole

variable {ρ σ : Type} {s : Schema ρ σ}

/-- A member that finds its place by `fill` has been read to its end. -/
theorem complete_of_fill (hs : s.ReadsWhole) {depth : Nat} {key : String} {scan : Scan}
    {slots slots' : σ} (h : s.fill depth key scan slots = .ok (some slots')) :
    scan.complete = true := by
  induction s with
  | nil => cases h
  | cons f rest ih =>
    obtain ⟨slot, slots⟩ := slots
    rw [fill] at h
    -- The member is read by the field of its name, or handed on to the rest.
    split at h
    · split at h
      · cases h
      · obtain ⟨a, ha, -⟩ := exists_of_bind_eq_ok h
        exact hs.1 depth scan a ha
    · obtain ⟨filled, hfill, h⟩ := exists_of_bind_eq_ok h
      obtain ⟨slots', rfl, -⟩ := Option.map_eq_some_iff.1 (Except.ok.inj h)
      exact ih hs.2 hfill

/-- Of the members that `Schema.readMembers` comes through, those that no field reads are followed
to their end too. -/
private theorem completeMembers_of_readMembers (hs : s.ReadsWhole) {depth : Nat} {slots slots' : σ}
    {ms : List (Option String × Scan)} (h : s.readMembers depth slots ms = .ok slots') :
    Scan.completeMembers ms = true := by
  induction ms generalizing slots with
  | nil => rfl
  | cons e ms ih =>
    obtain ⟨key, scan⟩ := e
    cases key with
    | none => cases h
    | some key =>
      obtain ⟨filled, hfill, h⟩ := exists_of_bind_eq_ok h
      rw [Scan.completeMembers, Bool.and_eq_true]
      -- A member that no field reads is still followed to its end.
      cases filled with
      | some slots => exact ⟨complete_of_fill hs hfill, ih h⟩
      | none =>
        obtain ⟨hcomplete, h⟩ := of_ite_eq_ok h
        exact ⟨hcomplete, ih h⟩

/-- Of an array that `readItems` accepts all items are followed to their end, and it is closed. -/
private theorem completeItems_of_readItems (hs : s.ReadsWhole) {depth count : Nat} {closed : Bool}
    {expected : String} {items : List Scan} {r : ρ}
    (h : s.readItems depth closed expected count items = .ok r) :
    Scan.completeItems items = true ∧ closed = true := by
  induction s generalizing count items with
  | nil =>
    rw [readItems] at h
    obtain ⟨hempty, hclosed⟩ := Bool.and_eq_true_iff.1 (of_ite_eq_ok h).1
    rw [List.isEmpty_iff.1 hempty]
    exact ⟨rfl, hclosed⟩
  | cons f rest ih =>
    -- The array may end before all fields have had an item, and then it is closed.
    cases items with
    | nil =>
      cases closed with
      | false => cases h
      | true => exact ⟨rfl, rfl⟩
    | cons item items =>
      obtain ⟨a, ha, h⟩ := exists_of_bind_eq_ok h
      obtain ⟨r', hrest, -⟩ := exists_of_bind_eq_ok h
      obtain ⟨hitems, hclosed⟩ := ih hs.2 hrest
      exact ⟨by rw [Scan.completeItems, hs.1 depth item a ha, hitems, Bool.and_self], hclosed⟩

/-- A record reads to the end if its `Schema` does. -/
theorem readsWhole_read (hs : s.ReadsWhole) (name : String) :
    Reader.ReadsWhole (s.read name) := by
  intro depth scan r h
  cases scan with
  | object ms closed =>
    obtain ⟨inner, -, h⟩ := exists_of_bind_eq_ok h
    obtain ⟨slots, hmembers, h⟩ := exists_of_bind_eq_ok h
    cases closed with
    | false => cases h
    | true => rw [Scan.complete, completeMembers_of_readMembers hs hmembers, Bool.and_self]
  | array items closed =>
    obtain ⟨inner, -, h⟩ := exists_of_bind_eq_ok h
    obtain ⟨hitems, hclosed⟩ := completeItems_of_readItems hs h
    rw [Scan.complete, hitems, hclosed, Bool.and_self]
  | _ => cases h

end Schema

/-! ## The parts of a memento -/

namespace Value

/-- What `readLeaf` accepts can be followed to its end. -/
private theorem complete_of_readLeaf {depth : Nat} {name : String} {s : Scan} {v : Value}
    (h : readLeaf depth name s = .ok v) : s.complete = true := by
  unfold readLeaf at h
  split at h
  · obtain ⟨p, hp, -⟩ := exists_of_map_eq_ok h
    obtain ⟨j, hj, -⟩ := exists_of_map_eq_ok hp
    exact Reader.readsWhole_json depth s j hj
  · obtain ⟨id, hid, -⟩ := exists_of_map_eq_ok h
    exact Reader.readsWhole_string depth s id hid
  · obtain ⟨id, hid, -⟩ := exists_of_map_eq_ok h
    exact Reader.readsWhole_string depth s id hid
  · cases h

/-- An alternative other than `list` can be followed to its end. -/
private theorem complete_of_readVariant (depth : Nat) {s : Scan} {v : Value}
    (h : Scan.readVariant names readBare readLeaf depth s = .ok v) : s.complete = true :=
  Reader.readsWhole_variant (fun _ _ _ _ => complete_of_readLeaf) depth s v h

mutual

/-- What `Value.read` accepts can be followed to its end. -/
private theorem complete_of_read : (s : Scan) → (depth : Nat) → (v : Value) →
    read depth s = .ok v → s.complete = true
  | .object ((some key, s) :: rest) closed, depth, v, h => by
    -- Only a list holds values again; the others are leaves.
    by_cases hkey : key = "list"
    · subst hkey
      rw [read] at h
      obtain ⟨inner, -, h⟩ := exists_of_bind_eq_ok h
      obtain ⟨items, hitems, h⟩ := exists_of_bind_eq_ok h
      obtain ⟨hempty, hclosed⟩ := Bool.and_eq_true_iff.1 (of_ite_eq_ok h).1
      obtain rfl := List.isEmpty_iff.1 hempty
      simp [Scan.complete, Scan.completeMembers, complete_of_readList s inner items hitems, hclosed]
    · rw [read] at h
      · exact complete_of_readVariant depth h
      · rintro s' rest' closed' ⟨⟩
        exact hkey rfl
  | .object ((none, s) :: rest) closed, depth, v, h | .object [] closed, depth, v, h
  | .array items closed, depth, v, h | .string t, depth, v, h | .null, depth, v, h
  | .bool b, depth, v, h | .number n, depth, v, h | .broken, depth, v, h =>
    complete_of_readVariant depth h

/-- What `readList` accepts can be followed to its end. -/
private theorem complete_of_readList : (s : Scan) → (depth : Nat) → (vs : List Value) →
    readList depth s = .ok vs → s.complete = true
  | .array items closed, depth, vs, h => by
    rw [readList] at h
    obtain ⟨inner, -, h⟩ := exists_of_bind_eq_ok h
    obtain ⟨vs', hitems, h⟩ := exists_of_bind_eq_ok h
    rw [Scan.complete, completeItems_of_readItems items inner vs' hitems, (of_ite_eq_ok h).1,
      Bool.and_self]
  | .null, _, _, h | .bool _, _, _, h | .number _, _, _, h | .string _, _, _, h
  | .object _ _, _, _, h | .broken, _, _, h => by cases h

private theorem completeItems_of_readItems : (ss : List Scan) → (depth : Nat) →
    (vs : List Value) → readItems depth ss = .ok vs → Scan.completeItems ss = true
  | [], _, _, _ => rfl
  | s :: ss, depth, vs, h => by
    rw [readItems] at h
    obtain ⟨v, hv, h⟩ := exists_of_bind_eq_ok h
    obtain ⟨vs', hrest, -⟩ := exists_of_bind_eq_ok h
    rw [Scan.completeItems, complete_of_read s depth v hv,
      completeItems_of_readItems ss depth vs' hrest, Bool.and_self]

end

/-- `Value.read` reads to the end. -/
theorem readsWhole_read : Reader.ReadsWhole Value.read := fun depth s v => complete_of_read s depth v

end Value

/-- `Relations.codec` reads to the end. -/
theorem Relations.readsWhole_read : Reader.ReadsWhole Relations.codec.read := by
  intro depth s r h
  obtain ⟨row, hrow, -⟩ := exists_of_map_eq_ok h
  have hids := Reader.readsWhole_list Reader.readsWhole_string
  have hid := Reader.readsWhole_option Reader.readsWhole_string
  refine Schema.readsWhole_read ?_ _ depth s row hrow
  exact ⟨hid, hids, hids, hids, hids, trivial⟩

end Failover
