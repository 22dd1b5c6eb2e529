import Failover.Json.Record

/-! # Kinds of managed objects

Every managed object is an entity, a location or a policy. The kind fixes the sub-path under which
a store holds the object and the kind of the object that its parent reference points at. `PerKind`
holds one thing for each kind, in the order in which kinds are listed. -/

namespace Failover

/-- The `Kind` of a managed object is one of three families. -/
inductive Kind where
  | entity
  | location
  | policy
deriving DecidableEq, Repr, Inhabited

namespace Kind

/-- All kinds, in the order in which `Kind.toNat` counts them. -/
def all : List Kind := [.entity, .location, .policy]

/-- The name of a kind in texts and messages; `Kind.codec` reads it back. -/
def label : Kind → String
  | .entity => "entity"
  | .location => "location"
  | .policy => "policy"

/-- The sub-path of a store under which `k.subPath` has the objects of kind `k`. -/
def subPath : Kind → String
  | .entity => "entities"
  | .location => "locations"
  | .policy => "policies"

/-- The kind that a parent reference of this kind points at: a `policy` hangs off an `entity`. -/
def parentKind : Kind → Kind
  | .entity => .entity
  | .location => .location
  | .policy => .entity

/-- The `label` of a kind as an alternative of JSON. -/
def codec : Codec Kind := .enum (all.map fun k => (k.label, k)) label

/-- The position of a kind in `Kind.all`. -/
def toNat : Kind → Nat
  | .entity => 0
  | .location => 1
  | .policy => 2

instance : Ord Kind := ⟨compareOn toNat⟩

instance : Std.TransOrd Kind := inferInstanceAs (Std.TransCmp (compareOn toNat))

instance : Std.LawfulEqOrd Kind where
  eq_of_compare {a b} := by cases a <;> cases b <;> decide

end Kind

/-- An `ObjectRef` is the identity of a managed object, as references give it. -/
structure ObjectRef where
  kind : Kind
  id : String
deriving DecidableEq, Repr, Inhabited

/-- The `label` of the kind and the id, as messages show an object. -/
def ObjectRef.text (r : ObjectRef) : String := r.kind.label ++ " " ++ r.id

/-- A `PerKind α` holds one `α` for each `Kind`. -/
structure PerKind (α : Type) where
  entities : α
  locations : α
  policies : α
deriving DecidableEq, Repr, Inhabited

namespace PerKind

variable {α β : Type}

/-- `const a` holds the same `a` for every kind. -/
def const (a : α) : PerKind α := ⟨a, a, a⟩

/-- `p.get k` is what `p` holds for the kind `k`. -/
def get (p : PerKind α) : Kind → α
  | .entity => p.entities
  | .location => p.locations
  | .policy => p.policies

/-- `p.set k a` holds `a` for the kind `k`, and what `p` holds for the others. -/
def set (p : PerKind α) (k : Kind) (a : α) : PerKind α :=
  match k with
  | .entity => { p with entities := a }
  | .location => { p with locations := a }
  | .policy => { p with policies := a }

/-- `p.modify k f` applies `f` to what `p` holds for the kind `k`. -/
def modify (p : PerKind α) (k : Kind) (f : α → α) : PerKind α := p.set k (f (p.get k))

/-- `ofFn f` holds `f k` for each kind `k`. -/
def ofFn (f : Kind → α) : PerKind α := ⟨f .entity, f .location, f .policy⟩

/-- `p.map f` applies `f` to what `p` holds for every kind. -/
def map (f : α → β) (p : PerKind α) : PerKind β := ofFn fun k => f (p.get k)

@[simp] theorem get_const (a : α) (k : Kind) : (const a).get k = a := by cases k <;> rfl

@[simp] theorem get_ofFn (f : Kind → α) (k : Kind) : (ofFn f).get k = f k := by cases k <;> rfl

@[simp] theorem get_map (f : α → β) (p : PerKind α) (k : Kind) : (p.map f).get k = f (p.get k) := by
  simp [map]

@[simp] theorem get_set (p : PerKind α) (k q : Kind) (a : α) :
    (p.set k a).get q = if q = k then a else p.get q := by
  cases k <;> cases q <;> rfl

@[simp] theorem get_modify (p : PerKind α) (k q : Kind) (f : α → α) :
    (p.modify k f).get q = if q = k then f (p.get q) else p.get q := by
  cases k <;> cases q <;> rfl

/-- Two `PerKind`s are equal if `get` finds the same in them for every kind. -/
theorem ext_get {p q : PerKind α} (h : ∀ k, p.get k = q.get k) : p = q := by
  cases p
  cases q
  simpa [get] using And.intro (h .entity) (And.intro (h .location) (h .policy))

end PerKind

/-- A `ByRef α` files things under kind and id, in the order of kinds and then of ids. -/
abbrev ByRef (α : Type) := PerKind (SortedMap String α)

namespace ByRef

variable {α β : Type}

/-- The `ByRef` in which nothing is filed. -/
def empty : ByRef α := .const .empty

/-- `m.get? r` is what is filed under the reference `r`. -/
def get? (m : ByRef α) (r : ObjectRef) : Option α := (m.get r.kind).get? r.id

/-- Whether `get?` finds anything under a reference. -/
def contains (m : ByRef α) (r : ObjectRef) : Bool := (m.get? r).isSome

/-- `m.insert r a` files `a` under `r`, in place of what was there. -/
def insert (m : ByRef α) (r : ObjectRef) (a : α) : ByRef α := m.modify r.kind (·.insert r.id a)

/-- `m.erase r` takes away what is filed under `r`. -/
def erase (m : ByRef α) (r : ObjectRef) : ByRef α := m.modify r.kind (·.erase r.id)

/-- The number of things that are filed, of all three kinds. -/
def size (m : ByRef α) : Nat := m.entities.size + m.locations.size + m.policies.size

/-- Whether nothing is filed, of any kind. -/
def isEmpty (m : ByRef α) : Bool := m.entities.isEmpty && m.locations.isEmpty && m.policies.isEmpty

/-- All that is filed, with its references, in the order of `Kind.all` and then of ids. -/
def toList (m : ByRef α) : List (ObjectRef × α) :=
  Kind.all.flatMap fun k => (m.get k).entries.map fun e => (⟨k, e.1⟩, e.2)

/-- The references under which `m.toList` has something, in its order. -/
def refs (m : ByRef α) : List ObjectRef := m.toList.map (·.1)

/-- All that is filed, in the order of `m.toList`. -/
def values (m : ByRef α) : List α := m.toList.map (·.2)

@[simp] theorem get?_empty (r : ObjectRef) : (empty : ByRef α).get? r = none := by
  simp [empty, get?]

@[simp] theorem get?_insert (m : ByRef α) (r q : ObjectRef) (a : α) :
    (m.insert r a).get? q = if q = r then some a else m.get? q := by
  obtain ⟨k, i⟩ := r
  obtain ⟨l, j⟩ := q
  by_cases hk : l = k <;> simp [insert, get?, hk]

@[simp] theorem get?_erase (m : ByRef α) (r q : ObjectRef) :
    (m.erase r).get? q = if q = r then none else m.get? q := by
  obtain ⟨k, i⟩ := r
  obtain ⟨l, j⟩ := q
  by_cases hk : l = k <;> simp [erase, get?, hk]

/-- Two `ByRef`s are equal if `get?` finds the same in them under every reference. -/
theorem ext_get? {m n : ByRef α} (h : ∀ r, m.get? r = n.get? r) : m = n :=
  PerKind.ext_get fun k => SortedMap.ext_get? fun i => h ⟨k, i⟩

end ByRef

end Failover
