import Failover.Memento.Format
import Failover.Plane.Format
import Failover.Topology.Format

/-! # Resolving references

A `Lookup` answers a reference with a `Handle`: the live object, or a placeholder that carries what
is needed to find the object later; or it has no answer. Reading a stored text is parsing it and
then resolving all its references, in the order in which it lists them (`Codec.load`). -/

namespace Failover

/-- The `Identity` of a live object is its unchanging part: what it is and what it is called. -/
structure Identity where
  kind : Kind
  id : String
  objectType : String
deriving DecidableEq, Repr, Inhabited

/-- A `Placeholder` stands in for an object that is not there yet. -/
structure Placeholder where
  kind : Kind
  objectType : Option String
  id : String
deriving DecidableEq, Repr, Inhabited

/-- A `Handle` is what a reference resolves to. -/
inductive Handle where
  | live (object : Identity)
  | placeholder (p : Placeholder)
deriving DecidableEq, Repr, Inhabited

namespace Handle

/-- The kind of the object that a `Handle` is of. -/
def kind : Handle → Kind
  | .live o => o.kind
  | .placeholder p => p.kind

/-- The id of the object that a `Handle` is of. -/
def id : Handle → String
  | .live o => o.id
  | .placeholder p => p.id

/-- The type of the object, which a `Placeholder` may not know. -/
def objectType : Handle → Option String
  | .live o => some o.objectType
  | .placeholder p => p.objectType

/-- Whether the object is there, and not a `Placeholder` for it. -/
def isLive : Handle → Bool
  | .live _ => true
  | .placeholder _ => false

/-- The kind with a capital, as `Handle.text` shows it. -/
def kindText : Kind → String
  | .entity => "Entity"
  | .location => "Location"
  | .policy => "Policy"

/-- The full text of a `Handle`, for diagnosis. -/
def text : Handle → String
  | .live o =>
    "Live \x7b kind: " ++ kindText o.kind ++ ", id: " ++ Text.quoted o.id ++ ", type: "
      ++ Text.quoted o.objectType ++ " \x7d"
  | .placeholder p =>
    let objectType := match p.objectType with
      | some t => "Some(" ++ Text.quoted t ++ ")"
      | none => "None"
    "Placeholder(Placeholder \x7b kind: " ++ kindText p.kind ++ ", object_type: " ++ objectType
      ++ ", id: " ++ Text.quoted p.id ++ " \x7d)"

end Handle

/-- A `Lookup` answers the reference to an object of a kind and id; the type is known to some who
ask. -/
abbrev Lookup := (kind : Kind) → (objectType : Option String) → (id : String) → Option Handle

namespace Lookup

/-- The `Lookup` that answers every reference with a `Placeholder`. -/
def placeholders : Lookup := fun kind objectType id => some (.placeholder ⟨kind, objectType, id⟩)

/-- The `Lookup` that answers with a `Placeholder` the references of the list `refs`, and no others.
-/
def known (refs : List ObjectRef) : Lookup := fun kind objectType id =>
  if refs.contains ⟨kind, id⟩ then some (.placeholder ⟨kind, objectType, id⟩) else none

/-- The `Lookup` that answers every reference with a `Placeholder` of one kind. -/
def everythingIs (kind : Kind) : Lookup := fun _ objectType id =>
  some (.placeholder ⟨kind, objectType, id⟩)

end Lookup

/-- A `SerializerError` is why a stored text does not yield a value. -/
inductive SerializerError where
  | json (cause : ReadError)
  | unresolved (r : ObjectRef)
  /-- A reference resolved to an object of another kind. -/
  | kindMismatch (r : ObjectRef) (actual : Kind)
deriving DecidableEq, Repr

/-- The text of a `SerializerError`. -/
def SerializerError.message : SerializerError → String
  | .json cause => "json error: " ++ cause.message
  | .unresolved r => "unresolved " ++ r.kind.label ++ " reference " ++ r.id
  | .kindMismatch r actual =>
    r.kind.label ++ " reference " ++ r.id ++ " resolved to a " ++ actual.label

/-- `r.resolve l` asks the `Lookup` for `r` and insists that the `Handle` is of the same kind. -/
def ObjectRef.resolve (l : Lookup) (r : ObjectRef) : Except SerializerError Handle :=
  match l r.kind none r.id with
  | none => .error (.unresolved r)
  | some h => if h.kind = r.kind then .ok h else .error (.kindMismatch r h.kind)

/-- `resolveAll l` resolves references in turn; the first that fails decides. -/
def ObjectRef.resolveAll (l : Lookup) : List ObjectRef → Except SerializerError (List Handle)
  | [] => .ok []
  | r :: rs => do
    let h ← r.resolve l
    let hs ← resolveAll l rs
    return h :: hs

/-- All that the `mementos` of a topology point at, in the order of `Memento.references`. -/
def Topology.references (t : Topology) : List ObjectRef := t.mementos.flatMap Memento.references

/-- `c.load references l s` reads a value from the text `s` and resolves the `references` it holds.
-/
def Codec.load {α : Type} (c : Codec α) (references : α → List ObjectRef) (l : Lookup)
    (s : String) : Except SerializerError α := do
  let a ← (c.ofText s).mapError .json
  let _ ← ObjectRef.resolveAll l (references a)
  return a

/-- `Memento.load l s` reads a `Memento` from its stored text and resolves all its references. -/
def Memento.load (l : Lookup) (s : String) : Except SerializerError Memento :=
  codec.load references l s

end Failover
