import Failover.Json.Codec

/-! # Records

A record is written as an object with its fields in the order of declaration. It is read from an
object with members in any order, where members of other names are skipped, or from an array of its
fields in the order of declaration. A `Schema` lists the fields and gives both directions, as a
`Codec` of the record as a nested tuple.

The first fault in text order decides; that a field is missing is noticed at the end of the object,
for the first such field in the order of declaration. -/

namespace Failover

/-- A `Field` of a record: its name, how it is written (none leaves the member out) and read, and
the value that stands for it where an object lacks the member or an array ends before it. -/
structure Field (α : Type) where
  name : String
  write : α → Option Json
  read : Reader α
  ifAbsent : Option α
  ifShort : Option α

namespace Field

variable {α : Type}

/-- A `Field` that has to be there. -/
def required (name : String) (c : Codec α) : Field α :=
  ⟨name, fun a => some (c.write a), c.read, none, none⟩

/-- A `Field` with a value for where it is not there. -/
def default (name : String) (c : Codec α) (value : α) : Field α :=
  ⟨name, fun a => some (c.write a), c.read, some value, some value⟩

/-- A `Field` that is left out where it has no value. -/
def optional (name : String) (c : Codec α) : Field (Option α) :=
  ⟨name, fun a => a.map c.write, c.option.read, some none, some none⟩

/-- A `Field` that is null where it has no value; an object may leave it out. -/
def nullable (name : String) (c : Codec α) : Field (Option α) :=
  ⟨name, fun a => some (c.option.write a), c.option.read, some none, none⟩

end Field

/-- A `Schema` lists the fields of a record in the order of declaration. The first index is the
record as a nested tuple, the second is what has been read of it: a place for each field. -/
inductive Schema : Type → Type → Type 1 where
  | nil : Schema Unit Unit
  | cons {α ρ σ : Type} (field : Field α) (rest : Schema ρ σ) : Schema (α × ρ) (Option α × σ)

namespace Schema

/-- The number of fields of a `Schema`. -/
def size : {ρ σ : Type} → Schema ρ σ → Nat
  | _, _, .nil => 0
  | _, _, .cons _ rest => rest.size + 1

/-- The members that a record is written as, in the order of its `Schema`. -/
def write : {ρ σ : Type} → Schema ρ σ → ρ → List (String × Json)
  | _, _, .nil, _ => []
  | _, _, .cons f rest, (a, r) =>
    match f.write a with
    | some j => (f.name, j) :: rest.write r
    | none => rest.write r

/-- The places of a record of which nothing has been read. -/
def vacant : {ρ σ : Type} → Schema ρ σ → σ
  | _, _, .nil => ()
  | _, _, .cons _ rest => (none, rest.vacant)

/-- `fill` reads the member of one name into its place; none where no field has that name. -/
def fill (depth : Nat) (key : String) (scan : Scan) :
    {ρ σ : Type} → Schema ρ σ → σ → Except ReadError (Option σ)
  | _, _, .nil, _ => .ok none
  | _, _, .cons f rest, (slot, slots) =>
    if key = f.name then
      -- A repeated member is noticed before its value is looked at.
      if slot.isSome then .error (.duplicateField key)
      else do
        let a ← f.read depth scan
        return some (some a, slots)
    else do
      let filled ← rest.fill depth key scan slots
      return filled.map fun slots => (slot, slots)

/-- `finish` gives the record whose places have been filled as far as the object went; a missing
`Field` has its `ifAbsent`. -/
def finish : {ρ σ : Type} → Schema ρ σ → σ → Except ReadError ρ
  | _, _, .nil, _ => .ok ()
  | _, _, .cons f rest, (slot, slots) => do
    let a ← match slot, f.ifAbsent with
      | some a, _ => .ok a
      | none, some a => .ok a
      | none, none => .error (.missingField f.name)
    let r ← rest.finish slots
    return (a, r)

/-- `readMembers` reads members in text order into their places by `fill`, and skips those of other
names. -/
def readMembers {ρ σ : Type} (s : Schema ρ σ) (depth : Nat) (slots : σ) :
    List (Option String × Scan) → Except ReadError σ
  | [] => .ok slots
  | (none, _) :: _ => .error .malformed
  | (some key, scan) :: ms => do
    match ← s.fill depth key scan slots with
    | some slots => s.readMembers depth slots ms
    -- Nobody reads this member, but the text has to go on after it.
    | none => if scan.complete then s.readMembers depth slots ms else throw .malformed

/-- `readItems` reads the items of an array into the fields in turn; `count` items came before
these, and `expected` describes the record. -/
def readItems (depth : Nat) (closed : Bool) (expected : String) :
    {ρ σ : Type} → Schema ρ σ → Nat → List Scan → Except ReadError ρ
  | _, _, .nil, _, items => if items.isEmpty && closed then .ok () else .error .malformed
  | _, _, .cons f rest, count, [] => do
    if !closed then throw .malformed
    let a ← match f.ifShort with
      | some a => .ok a
      | none => .error (.invalidLength count expected)
    let r ← readItems depth closed expected rest (count + 1) []
    return (a, r)
  | _, _, .cons f rest, count, item :: items => do
    let a ← f.read depth item
    let r ← readItems depth closed expected rest (count + 1) items
    return (a, r)

/-- The `Reader` of a record of a given name, from an object or an array. -/
def read {ρ σ : Type} (s : Schema ρ σ) (name : String) : Reader ρ
  | depth, .object ms closed => do
    let depth ← Scan.descend depth
    let slots ← s.readMembers depth s.vacant ms
    if !closed then throw .malformed
    s.finish slots
  | depth, .array items closed => do
    let depth ← Scan.descend depth
    s.readItems depth closed
      ("struct " ++ name ++ " with " ++ Nat.repr s.size ++ " elements") 0 items
  | _, scan => .error (scan.mismatch ("struct " ++ name))

/-- The `Codec` of a record type that corresponds to the tuple of its fields. -/
def codec {ρ σ α : Type} (s : Schema ρ σ) (name : String) (toRow : α → ρ) (ofRow : ρ → α) :
    Codec α :=
  ⟨fun a => .object (s.write (toRow a)), fun depth scan => (s.read name depth scan).map ofRow⟩

end Schema

end Failover
