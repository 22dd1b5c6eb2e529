import Failover.Json.Printer
import Failover.Json.Scan
import Failover.Json.ReadError

/-! # Codecs

A `Codec α` writes values of a type as JSON and reads them from the scan of a text. Readers carry
the number of arrays and objects that may still be opened; a text that nests deeper than `maxDepth`
is refused, except inside members that nobody reads.

`Codec.Lawful` is the law that a codec keeps: what it writes, it reads back, given enough depth. -/

namespace Failover

/-- A `Reader α` reads a value from a `Scan` in which as many arrays and objects may still be
opened. -/
abbrev Reader (α : Type) := Nat → Scan → Except ReadError α

/-- A `Codec α` is the way values of `α` are written as JSON and read back. -/
structure Codec (α : Type) where
  write : α → Json
  read : Reader α

namespace Scan

/-- How many arrays and objects may be nested in what `Codec.ofText` reads. -/
def maxDepth : Nat := 127

/-- What a `ReadError` says of a scan that is not of the kind asked for; a literal without a value
is `malformed` before it is of any kind. -/
def mismatch (expected : String) : Scan → ReadError
  | .null => .invalidType .null expected
  | .bool b => .invalidType (.bool b) expected
  | .number (some n) => .invalidType (.number n) expected
  | .string (some s) => .invalidType (.string s) expected
  | .array .. => .invalidType .sequence expected
  | .object .. => .invalidType .map expected
  | .number none | .string none | .broken => .malformed

/-- `descend` opens an array or object: the depth that is left inside. -/
def descend : Nat → Except ReadError Nat
  | 0 => .error .malformed
  | depth + 1 => .ok depth

/-- The `Reader` of texts. -/
def readString : Reader String
  | _, .string (some s) => .ok s
  | _, s => .error (s.mismatch "a string")

/-- The `Reader` of signed integers of 64 bits. -/
def readInt64 : Reader Int64
  | _, .number (some (.int n)) =>
    if n ≤ Int64.maxValue.toInt then .ok (Int64.ofInt n) else .error (.invalidValue n "i64")
  | _, s => .error (s.mismatch "i64")

/-- The `Reader` of the content of an alternative that carries nothing. -/
def readUnit : Reader Unit
  | _, .null => .ok ()
  | _, s => .error (s.mismatch "unit")

/-- `readAll read` reads every item of a list in turn. -/
def readAll {α : Type} (read : Scan → Except ReadError α) : List Scan → Except ReadError (List α)
  | [] => .ok []
  | s :: ss => do
    let a ← read s
    let as ← readAll read ss
    return a :: as

/-- `readList read` is the `Reader` of arrays of what `read` reads. -/
def readList {α : Type} (read : Reader α) : Reader (List α)
  | depth, .array items closed => do
    let depth ← descend depth
    let as ← readAll (read depth) items
    if closed then return as else throw .malformed
  | _, s => .error (s.mismatch "a sequence")

/-- `readMembers read m` reads the members of a map in turn into `m`; a later member replaces one
with the same key. -/
def readMembers {α : Type} (read : Scan → Except ReadError α) (m : SortedMap String α) :
    List (Option String × Scan) → Except ReadError (SortedMap String α)
  | [] => .ok m
  | (none, _) :: _ => .error .malformed
  | (some k, s) :: rest => do
    let a ← read s
    readMembers read (m.insert k a) rest

/-- `readMap read` is the `Reader` of maps from texts to what `read` reads. -/
def readMap {α : Type} (read : Reader α) : Reader (SortedMap String α)
  | depth, .object ms closed => do
    let depth ← descend depth
    let m ← readMembers (read depth) .empty ms
    if closed then return m else throw .malformed
  | _, s => .error (s.mismatch "a map")

/-- `readOption read` is the `Reader` of what `read` reads or null. -/
def readOption {α : Type} (read : Reader α) : Reader (Option α)
  | _, .null => .ok none
  | depth, s => (read depth s).map some

/-- `readName names` reads the name of one of the alternatives of a type. -/
def readName (names : List String) : Option String → Except ReadError String
  | none => .error .malformed
  | some name => if names.contains name then .ok name else .error (.unknownVariant name names)

/-- Reads one of several alternatives, of which `content` reads what belongs to a name: an object
with the name as its one key. A bare name is handed to `bare`. -/
def readVariant {α : Type} (names : List String) (bare : String → Except ReadError α)
    (content : Nat → String → Scan → Except ReadError α) : Reader α
  | _, .string s => do
    let name ← readName names s
    bare name
  | depth, .object ((key, s) :: rest) closed => do
    let depth ← descend depth
    let name ← readName names key
    let a ← content depth name s
    if rest.isEmpty && closed then return a else throw .malformed
  | _, _ => .error .malformed

mutual

/-- The `Reader` of any value. -/
def readJson : Nat → Scan → Except ReadError Json
  | _, .null => .ok .null
  | _, .bool b => .ok (.bool b)
  | _, .number (some n) => .ok (.number n)
  | _, .string (some s) => .ok (.string s)
  | depth + 1, .array items closed => do
    let js ← readJsonItems depth items
    if closed then return .array js else throw .malformed
  | depth + 1, .object ms closed => do
    let js ← readJsonMembers depth ms
    if closed then return .object js else throw .malformed
  | _, _ => .error .malformed

/-- `readJson` for the items of an array. -/
def readJsonItems (depth : Nat) : List Scan → Except ReadError (List Json)
  | [] => .ok []
  | s :: ss => do
    let j ← readJson depth s
    let js ← readJsonItems depth ss
    return j :: js

/-- `readJson` for the members of an object. -/
def readJsonMembers (depth : Nat) :
    List (Option String × Scan) → Except ReadError (List (String × Json))
  | [] => .ok []
  | (none, _) :: _ => .error .malformed
  | (some k, s) :: rest => do
    let j ← readJson depth s
    let js ← readJsonMembers depth rest
    return (k, j) :: js

end

end Scan

namespace Codec

variable {α : Type}

/-- The `Codec` of texts. -/
def string : Codec String := ⟨.string, Scan.readString⟩

/-- The `Codec` of signed integers of 64 bits. -/
def int64 : Codec Int64 := ⟨fun n => .number (.int n.toInt), Scan.readInt64⟩

/-- The `Codec` of lists, as arrays. -/
def list (c : Codec α) : Codec (List α) := ⟨fun as => .array (as.map c.write), Scan.readList c.read⟩

/-- The `Codec` of maps from texts, as objects. -/
def map (c : Codec α) : Codec (SortedMap String α) :=
  ⟨fun m => .object (m.map fun _ a => c.write a).entries, Scan.readMap c.read⟩

/-- The `Codec` of values that may be missing, as null. -/
def option (c : Codec α) : Codec (Option α) :=
  ⟨fun a => (a.map c.write).getD .null, Scan.readOption c.read⟩

/-- The `Codec` of a type of finitely many alternatives, each written as its name. -/
def enum (names : List (String × α)) (name : α → String) : Codec α :=
  let pick (n : String) : Except ReadError α :=
    match names.lookup n with
    | some a => .ok a
    | none => .error .malformed
  ⟨fun a => .string (name a),
    Scan.readVariant (names.map (·.1)) pick fun depth n s => do
      let _ ← Scan.readUnit depth s
      pick n⟩

/-- The `Codec` of any value, in normal form (`Plain.of`). -/
def plain : Codec Plain := ⟨Plain.json, fun depth s => (Scan.readJson depth s).map Plain.of⟩

/-! ## Texts -/

/-- The stored text of a value: what `c.write` gives, by `Json.toText`. -/
def toText (c : Codec α) (a : α) : String := (c.write a).toText

/-- `c.ofText s` reads a value from a text that holds nothing else. -/
def ofText (c : Codec α) (s : String) : Except ReadError α := do
  let (scan, ended) := Scan.ofText s
  let a ← c.read Scan.maxDepth scan
  if ended then return a else throw .malformed

/-- A `Codec` is `Lawful` if it reads back what it writes wherever the nesting is allowed. -/
def Lawful (c : Codec α) : Prop :=
  ∀ a depth, (c.write a).depth ≤ depth → c.read depth (Scan.ofJson (c.write a)) = .ok a

end Codec

end Failover
