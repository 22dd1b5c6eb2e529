import Failover.Kind

/-! # Mementos

A memento is the snapshot of one managed object: its identity, its config and attributes, and its
relations to other objects. It refers to other objects by id alone, so that graphs of objects with
cycles have mementos too. `Memento.references` lists what a memento points at. -/

namespace Failover

/-- A `Value` stands in the config or among the attributes of an object. -/
inductive Value where
  | plain (value : Plain)
  | entityRef (id : String)
  | locationRef (id : String)
  | list (items : List Value)
deriving Inhabited

namespace Value

mutual

/-- The objects that a `Value` points at, depth first. -/
def references : Value → List ObjectRef
  | .plain _ => []
  | .entityRef id => [⟨.entity, id⟩]
  | .locationRef id => [⟨.location, id⟩]
  | .list items => referencesOfItems items

/-- The objects that a list of `Value`s points at. -/
def referencesOfItems : List Value → List ObjectRef
  | [] => []
  | v :: vs => v.references ++ referencesOfItems vs

end

mutual

private def decideEq : (a b : Value) → Decidable (a = b)
  | .plain a, .plain b => if h : a = b then isTrue (by rw [h]) else isFalse (by simpa using h)
  | .entityRef a, .entityRef b =>
    if h : a = b then isTrue (by rw [h]) else isFalse (by simpa using h)
  | .locationRef a, .locationRef b =>
    if h : a = b then isTrue (by rw [h]) else isFalse (by simpa using h)
  | .list a, .list b =>
    match decideItems a b with
    | isTrue h => isTrue (by rw [h])
    | isFalse h => isFalse (by simpa using h)
  | .plain _, .entityRef _ | .plain _, .locationRef _ | .plain _, .list _
  | .entityRef _, .plain _ | .entityRef _, .locationRef _ | .entityRef _, .list _
  | .locationRef _, .plain _ | .locationRef _, .entityRef _ | .locationRef _, .list _
  | .list _, .plain _ | .list _, .entityRef _ | .list _, .locationRef _ => isFalse nofun

private def decideItems : (a b : List Value) → Decidable (a = b)
  | [], [] => isTrue rfl
  | [], _ :: _ => isFalse nofun
  | _ :: _, [] => isFalse nofun
  | a :: as, b :: bs =>
    match decideEq a b, decideItems as bs with
    | isTrue h, isTrue hs => isTrue (by rw [h, hs])
    | isFalse h, _ => isFalse (by simp [h])
    | _, isFalse hs => isFalse (by simp [hs])

end

instance : DecidableEq Value := decideEq

end Value

/-- The `Relations` of an object to others, by id. The `tags` are labels and point at nothing. -/
structure Relations where
  parent : Option String := none
  children : List String := []
  locations : List String := []
  tags : List String := []
  policies : List String := []
deriving DecidableEq, Inhabited

/-- A `Memento` is the snapshot of one object's state and relations. -/
structure Memento where
  id : String
  kind : Kind
  objectType : String
  displayName : String
  config : SortedMap String Value
  attributes : SortedMap String Value
  relations : Relations
deriving DecidableEq, Inhabited

namespace Memento

/-- The `Memento` of an object without config, attributes and relations; it is displayed by its id.
-/
def new (kind : Kind) (id objectType : String) : Memento :=
  ⟨id, kind, objectType, id, .empty, .empty, {}⟩

/-- A `Part` of the state of an object. -/
inductive Part where
  | displayName (name : String)
  | config (key : String) (value : Value)
  | attribute (key : String) (value : Value)
  | parent (id : String)
  | child (id : String)
  | location (id : String)
  | tag (tag : String)
  | policy (id : String)
deriving DecidableEq

/-- The `Memento` with one more `Part`: names, keys and the parent take the place of what was there,
and the rest is added at the end. -/
def withPart (m : Memento) : Part → Memento
  | .displayName name => { m with displayName := name }
  | .config key value => { m with config := m.config.insert key value }
  | .attribute key value => { m with attributes := m.attributes.insert key value }
  | .parent id => { m with relations := { m.relations with parent := some id } }
  | .child id =>
    { m with relations := { m.relations with children := m.relations.children ++ [id] } }
  | .location id =>
    { m with relations := { m.relations with locations := m.relations.locations ++ [id] } }
  | .tag tag => { m with relations := { m.relations with tags := m.relations.tags ++ [tag] } }
  | .policy id =>
    { m with relations := { m.relations with policies := m.relations.policies ++ [id] } }

/-- The `ObjectRef` of the object that a memento is of. -/
def ref (m : Memento) : ObjectRef := ⟨m.kind, m.id⟩

/-- All that a `Memento` points at: the `relations` first, then what stands in `config` and
`attributes`. -/
def references (m : Memento) : List ObjectRef :=
  m.relations.parent.toList.map (ObjectRef.mk m.kind.parentKind)
    ++ m.relations.children.map (ObjectRef.mk m.kind)
    ++ m.relations.locations.map (ObjectRef.mk .location)
    ++ m.relations.policies.map (ObjectRef.mk .policy)
    ++ (m.config.values ++ m.attributes.values).flatMap Value.references

end Memento

/-- A `ManifestEntry` is the part of a stored memento that says which object to construct: its id
and type. -/
structure ManifestEntry where
  id : String
  objectType : String
deriving DecidableEq, Repr, Inhabited

end Failover
