import Failover.Proofs.Json.StoredForm
import Failover.Proofs.Json.Whole

/-!
# Two readers of one text

A record may have the fields of a narrower one among its own. Then the narrower one comes through
every object from which the record is read, and ends up with the same in the fields that they share:
what it does not know it skips, and that has been read to its end.

A stored memento is read in two ways: in full, and as the entry of the manifest. The entry is the
narrower record, so it has the id and the type of the memento. From an array the two never read
both, as they ask for different lengths.

## Key results

- `Schema.Part.readMembers_eq_ok`: the narrower record comes through the members of an object
- `Schema.Part.read_eq_ok`: it reads its part of what the wider one reads
- `ManifestEntry.eq_of_ofText`: an entry has the id and the type of the memento in the same text
- `ManifestEntry.ofText_of_load`: the manifest has an entry for every object that loads as a memento
-/

namespace Failover

namespace Schema

variable {ρ σ ρ' σ' : Type} {s : Schema ρ σ} {t : Schema ρ' σ'}

/-! ## Parts of a record -/

/-- `Part s t` says that the fields of `t` stand among those of `s` in the same order. The others
read to the end and have names of their own. -/
inductive Part : {ρ σ ρ' σ' : Type} → Schema ρ σ → Schema ρ' σ' → Type 1 where
  | nil : Part .nil .nil
  | keep {α ρ σ ρ' σ' : Type} {s : Schema ρ σ} {t : Schema ρ' σ'} (f : Field α) (rest : Part s t) :
    Part (.cons f s) (.cons f t)
  | skip {α ρ σ ρ' σ' : Type} {s : Schema ρ σ} {t : Schema ρ' σ'} (f : Field α)
    (hname : f.name ∉ t.names) (hread : Reader.ReadsWhole f.read) (rest : Part s t) :
    Part (.cons f s) t

/-- `fill` finds no place for a member that bears the name of no field. -/
theorem fill_of_not_mem {depth : Nat} {key : String} {scan : Scan} {slots : σ}
    (h : key ∉ s.names) : s.fill depth key scan slots = .ok none := by
  induction s with
  | nil => rfl
  | cons f rest ih =>
    obtain ⟨slot, slots⟩ := slots
    simp only [names, List.mem_cons, not_or] at h
    rw [fill, if_neg h.1, ih h.2]
    rfl

/-- `finish` succeeds if every field has a value, from its place or else by default. -/
theorem finish_cons_eq_ok {α : Type} {f : Field α} {slot : Option α} {slots : σ} {r : α × ρ} :
    (cons f s).finish (slot, slots) = .ok r ↔
      slot.or f.ifAbsent = some r.1 ∧ s.finish slots = .ok r.2 := by
  -- Whatever the field comes to, the rest is finished alike.
  have hrest (a : α) : (do let r ← s.finish slots; return (a, r)) = Except.ok r ↔
      a = r.1 ∧ s.finish slots = .ok r.2 := by
    cases s.finish slots <;> simp [bind, Except.bind, pure, Except.pure, Prod.ext_iff]
  obtain ⟨name, write, read, ifAbsent, ifShort⟩ := f
  cases slot with
  | some a => exact (hrest a).trans (by simp)
  | none =>
    cases ifAbsent with
    | some a => exact (hrest a).trans (by simp)
    | none => simp [finish, bind, Except.bind]

namespace Part

/-- The places of the narrower record among those of the wider one. -/
def slots : {ρ σ ρ' σ' : Type} → {s : Schema ρ σ} → {t : Schema ρ' σ'} → Part s t → σ → σ'
  | _, _, _, _, _, _, .nil, _ => ()
  | _, _, _, _, _, _, .keep _ rest, (slot, slots) => (slot, rest.slots slots)
  | _, _, _, _, _, _, .skip _ _ _ rest, (_, slots) => rest.slots slots

/-- What the narrower record has of the wider one. -/
def row : {ρ σ ρ' σ' : Type} → {s : Schema ρ σ} → {t : Schema ρ' σ'} → Part s t → ρ → ρ'
  | _, _, _, _, _, _, .nil, _ => ()
  | _, _, _, _, _, _, .keep _ rest, (a, r) => (a, rest.row r)
  | _, _, _, _, _, _, .skip _ _ _ rest, (_, r) => rest.row r

/-- Where the wider record is `vacant`, so is the narrower one. -/
theorem slots_vacant (p : Part s t) : p.slots s.vacant = t.vacant := by
  induction p with
  | nil => rfl
  | keep f rest ih => exact congrArg _ ih
  | skip f _ _ rest ih => exact ih

/-- `fill` puts a member into the same place of both records. Where the narrower one has none for
it, it is skipped: either nobody reads it, or it has been read to its end. -/
theorem fill_eq_ok (p : Part s t) {depth : Nat} {key : String} {scan : Scan} {slots : σ}
    {filled : Option σ} (h : s.fill depth key scan slots = .ok filled) :
    ∃ filled', t.fill depth key scan (p.slots slots) = .ok filled' ∧
      filled'.getD (p.slots slots) = p.slots (filled.getD slots) ∧
      (filled' = none → filled = none ∨ scan.complete = true) := by
  induction p with
  | nil =>
    cases h
    exact ⟨none, rfl, rfl, fun _ => .inl rfl⟩
  | keep f rest ih =>
    obtain ⟨slot, slots⟩ := slots
    rw [fill] at h
    rw [Part.slots, fill]
    split at h
    · -- Both have the field that the member is for.
      next hkey =>
      rw [if_pos hkey]
      split at h
      · cases h
      · next hslot =>
        obtain ⟨a, ha, h⟩ := exists_of_bind_eq_ok h
        cases h
        rw [if_neg hslot, ha]
        exact ⟨some (some a, rest.slots slots), rfl, rfl, fun h => absurd h (Option.some_ne_none _)⟩
    · next hkey =>
      obtain ⟨filled, hfill, h⟩ := exists_of_bind_eq_ok h
      cases h
      obtain ⟨filled', hfill', hslots, hskip⟩ := ih hfill
      rw [if_neg hkey, hfill']
      refine ⟨filled'.map fun slots => (slot, slots), rfl, ?_, ?_⟩
      · cases filled <;> cases filled' <;> exact congrArg (Prod.mk slot) hslots
      · simpa using hskip
  | @skip _ _ _ _ _ _ t f hname hread rest ih =>
    obtain ⟨slot, slots⟩ := slots
    rw [fill] at h
    split at h
    · -- Only the wider one has the field, and it has read the member to its end.
      next hkey =>
      split at h
      · cases h
      · obtain ⟨a, ha, h⟩ := exists_of_bind_eq_ok h
        cases h
        exact ⟨none, fill_of_not_mem (hkey ▸ hname), rfl, fun _ => .inr (hread depth scan a ha)⟩
    · obtain ⟨filled, hfill, h⟩ := exists_of_bind_eq_ok h
      cases h
      obtain ⟨filled', hfill', hslots, hskip⟩ := ih hfill
      refine ⟨filled', hfill', ?_, ?_⟩
      · cases filled <;> exact hslots
      · simpa using hskip

/-- The narrower record comes through `readMembers` as the wider one does. -/
theorem readMembers_eq_ok (p : Part s t) {depth : Nat} {slots slots' : σ}
    {ms : List (Option String × Scan)} (h : s.readMembers depth slots ms = .ok slots') :
    t.readMembers depth (p.slots slots) ms = .ok (p.slots slots') := by
  induction ms generalizing slots with
  | nil =>
    cases h
    rfl
  | cons e ms ih =>
    obtain ⟨key, scan⟩ := e
    cases key with
    | none => cases h
    | some key =>
      obtain ⟨filled, hfill, h⟩ := exists_of_bind_eq_ok h
      obtain ⟨filled', hfill', hslots, hskip⟩ := p.fill_eq_ok hfill
      -- The wider record goes on from what it has filled, and from what it had if that is nothing.
      have hrest : s.readMembers depth (filled.getD slots) ms = .ok slots' ∧
          (filled = none → scan.complete = true) := by
        cases filled with
        | some slots => exact ⟨h, nofun⟩
        | none =>
          obtain ⟨hcomplete, h⟩ := of_ite_eq_ok h
          exact ⟨h, fun _ => hcomplete⟩
      have hrest' := ih hrest.1
      rw [← hslots] at hrest'
      rw [readMembers, hfill']
      cases filled' with
      | some slots => exact hrest'
      | none =>
        have hcomplete : scan.complete = true := (hskip rfl).elim hrest.2 id
        show (if scan.complete = true then _ else _) = _
        rw [if_pos hcomplete]
        exact hrest'

/-- Where the wider record is finished, so is the narrower one, with its `row`. -/
theorem finish_eq_ok (p : Part s t) {slots : σ} {r : ρ} (h : s.finish slots = .ok r) :
    t.finish (p.slots slots) = .ok (p.row r) := by
  induction p with
  | nil => rfl
  | keep f rest ih =>
    obtain ⟨hslot, hrest⟩ := finish_cons_eq_ok.1 h
    exact finish_cons_eq_ok.2 ⟨hslot, ih hrest⟩
  | skip f hname hread rest ih => exact ih (finish_cons_eq_ok.1 h).2

/-- From an object the narrower record reads its `row` of what the wider one reads. -/
theorem read_eq_ok {name name' : String} {depth : Nat} {ms : List (Option String × Scan)}
    {closed : Bool} {r : ρ} (h : s.read name depth (.object ms closed) = .ok r) (p : Part s t) :
    t.read name' depth (.object ms closed) = .ok (p.row r) := by
  obtain ⟨inner, hinner, h⟩ := exists_of_bind_eq_ok h
  obtain ⟨slots, hslots, h⟩ := exists_of_bind_eq_ok h
  -- The members that fill the places of the wider record fill those of the narrower one.
  have hslots' := p.readMembers_eq_ok hslots
  rw [p.slots_vacant] at hslots'
  rw [read, hinner]
  show (t.readMembers inner t.vacant ms >>= _) = _
  rw [hslots']
  cases closed with
  | false => cases h
  | true => exact p.finish_eq_ok h

end Part

/-! ## Arrays -/

/-- `readItems` reads a record from an array only if there is a field for each item. -/
theorem length_le_of_readItems {depth count : Nat} {closed : Bool}
    {expected : String} {items : List Scan} {r : ρ}
    (h : s.readItems depth closed expected count items = .ok r) : items.length ≤ s.size := by
  induction s generalizing count items with
  | nil =>
    obtain ⟨hempty, -⟩ := Bool.and_eq_true_iff.1 (of_ite_eq_ok h).1
    simp [List.isEmpty_iff.1 hempty]
  | cons f rest ih =>
    -- Each field takes one item at most, and an item that no field takes is an error.
    cases items with
    | nil => exact Nat.zero_le _
    | cons item items =>
      obtain ⟨a, -, h⟩ := exists_of_bind_eq_ok h
      obtain ⟨r', hr, -⟩ := exists_of_bind_eq_ok h
      exact Nat.succ_le_succ (ih hr)

/-- How many fields at the start an array has to have, as they have no `ifShort`. -/
def required : {ρ σ : Type} → Schema ρ σ → Nat
  | _, _, .nil => 0
  | _, _, .cons f rest => if f.ifShort.isSome then 0 else rest.required + 1

/-- `readItems` reads a record from an array only if there is an item for each field that is
`required`. -/
theorem required_le_of_readItems {depth count : Nat} {closed : Bool} {expected : String}
    {items : List Scan} {r : ρ} (h : s.readItems depth closed expected count items = .ok r) :
    s.required ≤ items.length := by
  induction s generalizing count items with
  | nil => exact Nat.zero_le _
  | cons f rest ih =>
    rw [required]
    split
    · exact Nat.zero_le _
    · next hshort =>
      cases items with
      | nil =>
        rw [Option.not_isSome_iff_eq_none] at hshort
        -- The array ends before a field without a value of its own.
        simp only [readItems, hshort, bind, Except.bind] at h
        split at h <;> cases h
      | cons item items =>
        obtain ⟨a, -, h⟩ := exists_of_bind_eq_ok h
        obtain ⟨r', hr, -⟩ := exists_of_bind_eq_ok h
        exact Nat.succ_le_succ (ih hr)

/-- From an array no two records are read if the one requires more items than the other has fields.
-/
theorem not_read_of_size_lt (hlt : t.size < s.required) {name name' : String} {depth : Nat}
    {items : List Scan} {closed : Bool} {r : ρ} {r' : ρ'}
    (h : s.read name depth (.array items closed) = .ok r) :
    t.read name' depth (.array items closed) ≠ .ok r' := by
  intro h'
  obtain ⟨inner, -, h⟩ := exists_of_bind_eq_ok h
  obtain ⟨inner', -, h'⟩ := exists_of_bind_eq_ok h'
  have hle := required_le_of_readItems h
  have hle' := length_le_of_readItems h'
  omega

end Schema

/-! ## Manifest entries -/

/-- `ofText` succeeds if the outline reads and the text ends after it. -/
theorem Codec.ofText_eq_ok {α : Type} {c : Codec α} {text : String} {a : α} :
    c.ofText text = .ok a ↔
      c.read Scan.maxDepth (Scan.ofText text).1 = .ok a ∧ (Scan.ofText text).2 = true := by
  constructor
  · intro h
    obtain ⟨a', ha', h⟩ := exists_of_bind_eq_ok h
    obtain ⟨hended, h⟩ := of_ite_eq_ok h
    cases h
    exact ⟨ha', hended⟩
  · rintro ⟨ha, hended⟩
    show (c.read Scan.maxDepth (Scan.ofText text).1 >>= fun a =>
      if (Scan.ofText text).2 = true then pure a else throw .malformed) = .ok a
    rw [ha, hended]
    rfl

/-- A text that begins with a brace has an `object` for its outline, as far as it goes. -/
theorem Scan.exists_object_of_head? {text : String}
    (h : (skipBlanks text.toList).head? = some '\x7b') :
    ∃ ms closed, (ofText text).1 = .object ms closed := by
  obtain ⟨rest, hrest⟩ := List.head?_eq_some_iff.1 h
  show ∃ ms closed, (value (2 * text.toList.length + 2) text.toList).1 = .object ms closed
  rw [value]
  simp only [hrest]
  split <;> exact ⟨_, _, rfl⟩

namespace ManifestEntry

variable {text : String} {e : ManifestEntry} {m : Memento}

/-- Wherever `Memento.codec` reads an object, so does `ManifestEntry.codec`, with the id and the
type. -/
private theorem read_of_read {depth : Nat} {ms : List (Option String × Scan)} {closed : Bool}
    (h : Memento.codec.read depth (.object ms closed) = .ok m) :
    codec.read depth (.object ms closed) = .ok ⟨m.id, m.objectType⟩ := by
  obtain ⟨row, hrow, rfl⟩ := exists_of_map_eq_ok h
  have hvalues := Reader.readsWhole_map Value.readsWhole_read
  -- The entry has the id and the type, and skips the rest.
  have hread : (Schema.cons (.required "id" .string) (.cons (.required "type" .string) .nil)).read
      "ManifestEntry" depth (.object ms closed) = .ok (row.1, row.2.2.1, ()) :=
    Schema.Part.read_eq_ok hrow
      (.keep _ (.skip _ (by decide) (Reader.readsWhole_enum _ Kind.label)
        (.keep _ (.skip _ (by decide) Reader.readsWhole_string
          (.skip _ (by decide) hvalues (.skip _ (by decide) hvalues
            (.skip _ (by decide) Relations.readsWhole_read .nil)))))))
  show Except.map _ _ = _
  rw [hread]
  rfl

/-- Where both read a text, the `ManifestEntry` has the id and the type of the memento. -/
theorem eq_of_ofText (he : ofText text = .ok e) (hm : Memento.codec.ofText text = .ok m) :
    e = ⟨m.id, m.objectType⟩ := by
  have he := (Codec.ofText_eq_ok.1 he).1
  have hm := (Codec.ofText_eq_ok.1 hm).1
  generalize (Scan.ofText text).1 = scan at he hm
  cases scan with
  | object ms closed => exact Except.ok.inj (he.symm.trans (read_of_read hm))
  -- From an array they never both read: a memento has four items at least, and an entry two at
  -- most.
  | array items closed =>
    obtain ⟨row, hrow, -⟩ := exists_of_map_eq_ok he
    obtain ⟨row', hrow', -⟩ := exists_of_map_eq_ok hm
    exact absurd hrow (Schema.not_read_of_size_lt (by decide) hrow')
  | _ => cases he

/-- The manifest has an entry for every object that `Memento.load` reads, with the id and the type
of that; and whatever loads has no other entry. -/
theorem ofText_of_load (h : Memento.load .placeholders text = .ok m) :
    ((Scan.skipBlanks text.toList).head? = some '\x7b' →
      ofText text = .ok ⟨m.id, m.objectType⟩) ∧
    ∀ e, ofText text = .ok e → e = ⟨m.id, m.objectType⟩ := by
  have hm : Memento.codec.ofText text = .ok m :=
    (Memento.load_eq_ok_iff Lookup.placeholders_isFaithful).1 h
  refine ⟨fun hobject => ?_, fun e he => eq_of_ofText he hm⟩
  obtain ⟨hread, hended⟩ := Codec.ofText_eq_ok.1 hm
  -- A text that begins with a brace is scanned as an object, whose members both readers go through.
  obtain ⟨ms, closed, hscan⟩ := Scan.exists_object_of_head? hobject
  rw [hscan] at hread
  refine Codec.ofText_eq_ok.2 ⟨?_, hended⟩
  rw [hscan]
  exact read_of_read hread

/-- The text of a memento with its members out of order, among members that nobody reads: a number
beyond the doubles, and an array with half a surrogate pair in it. -/
def shuffled : String :=
  "\x7b \"load\": 1e999, \"type\": \"web\", \"display_name\": \"A\", \"notes\": [[\"\\ud800\"]], "
    ++ "\"kind\": \"entity\", \"id\": \"a\" \x7d"

/-- From `shuffled` both the memento and its entry are read. -/
theorem ofText_of_load_shuffled :
    Memento.load .placeholders shuffled =
        .ok { Memento.new .entity "a" "web" with displayName := "A" } ∧
      ofText shuffled = .ok ⟨"a", "web"⟩ := by
  have hread : (Memento.load .placeholders shuffled).toOption =
      some { Memento.new .entity "a" "web" with displayName := "A" } := by decide +kernel
  cases h : Memento.load .placeholders shuffled with
  | error e =>
    rw [h] at hread
    cases hread
  | ok m =>
    rw [h] at hread
    cases hread
    exact ⟨rfl, (ofText_of_load h).1 (by decide +kernel)⟩

end ManifestEntry

end Failover
