import Failover.Rebind.Failure

/-! # Managed objects

A managed object is an entity, location or policy that is live on a node. It holds its relations as
handles. An object begins as an empty shell of its identity and is then given its state by applying
a memento (`apply`); `toMemento` exports the state again.

A reference that does not resolve to a live object is kept as a placeholder, so that its id survives
the next export, and is reported. -/

namespace Failover

/-- A `ManagedObject` is live on a node. -/
structure ManagedObject where
  identity : Identity
  displayName : String
  config : SortedMap String Value := .empty
  attributes : SortedMap String Value := .empty
  parent : Option Handle := none
  children : List Handle := []
  locations : List Handle := []
  policies : List Handle := []
  tags : List String := []
  /-- How often the object has been told that a rebind is complete. -/
  completions : Nat := 0
deriving DecidableEq, Inhabited

namespace ManagedObject

/-- The object of an `Identity` without state; it is displayed by its id. -/
def shell (identity : Identity) : ManagedObject := { identity, displayName := identity.id }

/-- What the object is known by: the kind and id of its `identity`. -/
def ref (o : ManagedObject) : ObjectRef := ⟨o.identity.kind, o.identity.id⟩

/-! ## Applying a memento -/

/-- The `Handle` for a reference: the live object, or else a placeholder. -/
def handleFor (l : Lookup) (target : ObjectRef) : Handle :=
  match l target.kind none target.id with
  | some (.live o) => .live o
  | _ => .placeholder ⟨target.kind, none, target.id⟩

/-- What is reported of a reference: `unresolved` unless it resolves to a live object. -/
def failuresFor (o : ManagedObject) (l : Lookup) (target : ObjectRef) : List RebindFailure :=
  if (handleFor l target).isLive then [] else [.unresolved o.ref target]

/-- The handles for ids of one kind (`handleFor`). -/
def handlesFor (l : Lookup) (k : Kind) (ids : List String) : List Handle :=
  ids.map fun id => handleFor l ⟨k, id⟩

/-- What is reported of ids of one kind (`failuresFor`). -/
def failuresForIds (o : ManagedObject) (l : Lookup) (k : Kind) (ids : List String) :
    List RebindFailure :=
  ids.flatMap fun id => o.failuresFor l ⟨k, id⟩

/-- What is reported of the references in a map of values (`failuresFor`). -/
def failuresForValues (o : ManagedObject) (l : Lookup) (values : SortedMap String Value) :
    List RebindFailure :=
  values.values.flatMap fun v => v.references.flatMap (o.failuresFor l)

/-- The object with the state of a `Memento` in place of its own. -/
def withState (o : ManagedObject) (m : Memento) (l : Lookup) : ManagedObject :=
  { o with
    displayName := m.displayName
    config := m.config
    attributes := m.attributes
    parent := m.relations.parent.map fun id => handleFor l ⟨o.identity.kind.parentKind, id⟩
    children := handlesFor l o.identity.kind m.relations.children
    locations := handlesFor l .location m.relations.locations
    policies := handlesFor l .policy m.relations.policies
    tags := m.relations.tags }

/-- `o.apply m l` gives `o` the state of `m`, and says what is to be reported. A memento of another
object changes nothing. -/
def apply (o : ManagedObject) (m : Memento) (l : Lookup) : ManagedObject × List RebindFailure :=
  if m.ref ≠ o.ref then (o, [.populate o.ref ("memento is for " ++ m.ref.text)])
  else
    (o.withState m l,
      o.failuresForIds l o.identity.kind.parentKind m.relations.parent.toList
        ++ o.failuresForIds l o.identity.kind m.relations.children
        ++ o.failuresForIds l .location m.relations.locations
        ++ o.failuresForIds l .policy m.relations.policies
        ++ o.failuresForValues l m.config
        ++ o.failuresForValues l m.attributes)

/-- The state of an object as a `Memento`. -/
def toMemento (o : ManagedObject) : Memento where
  id := o.identity.id
  kind := o.identity.kind
  objectType := o.identity.objectType
  displayName := o.displayName
  config := o.config
  attributes := o.attributes
  relations :=
    { parent := o.parent.map (·.id)
      children := o.children.map (·.id)
      locations := o.locations.map (·.id)
      tags := o.tags
      policies := o.policies.map (·.id) }

/-- `completeRebind` tells an object that a rebind is complete. -/
def completeRebind (o : ManagedObject) : ManagedObject :=
  { o with completions := o.completions + 1 }

/-! ## Changing an object in place -/

/-- An `Edit` is a change to the state of one object. -/
inductive Edit where
  | displayName (name : String)
  | config (key : String) (value : Value)
  | attribute (key : String) (value : Value)
  | parent (handle : Option Handle)
  | child (handle : Handle)
  | location (handle : Handle)
  | policy (handle : Handle)
  | tag (tag : String)
deriving DecidableEq

/-- The object after an `Edit`. -/
def edit (o : ManagedObject) : Edit → ManagedObject
  | .displayName name => { o with displayName := name }
  | .config key value => { o with config := o.config.insert key value }
  | .attribute key value => { o with attributes := o.attributes.insert key value }
  | .parent handle => { o with parent := handle }
  | .child handle => { o with children := o.children ++ [handle] }
  | .location handle => { o with locations := o.locations ++ [handle] }
  | .policy handle => { o with policies := o.policies ++ [handle] }
  | .tag tag => { o with tags := o.tags ++ [tag] }

end ManagedObject

end Failover
