import Failover.Rebind.Object
import Failover.Text.Blank

/-! # Constructors of managed objects

A registry knows, for each kind and type of object, how a shell of it is made from what the manifest
says. Usually that is the shell of this identity (`registerBasic`); a constructor of one's own may
make another. -/

namespace Failover

/-- A `Constructor` makes the shell of an object from the kind, id and type that the manifest gives.
-/
abbrev Constructor := Identity → ManagedObject

/-- A `RegistryError` is why a constructor was not registered. -/
inductive RegistryError where
  | emptyType (k : Kind)
  | duplicate (k : Kind) (objectType : String)
deriving DecidableEq, Repr

/-- The text of a `RegistryError`. -/
def RegistryError.message : RegistryError → String
  | .emptyType k => k.label ++ " type name must not be empty"
  | .duplicate k objectType => k.label ++ " type " ++ objectType ++ " is already registered"

/-- A `Registry` has the constructors, by kind and type. -/
structure Registry where
  constructors : ByRef Constructor := .empty
deriving Inhabited

namespace Registry

/-- `register` adds a `Constructor` for a type that has none yet; the type must not be blank. -/
def register (g : Registry) (k : Kind) (objectType : String) (make : Constructor) :
    Except RegistryError Registry :=
  if Text.isAllBlank objectType then .error (.emptyType k)
  else if g.constructors.contains ⟨k, objectType⟩ then .error (.duplicate k objectType)
  else .ok ⟨g.constructors.insert ⟨k, objectType⟩ make⟩

/-- `registerBasic` registers a type whose shells are those of the identity asked for
(`ManagedObject.shell`). -/
def registerBasic (g : Registry) (k : Kind) (objectType : String) : Except RegistryError Registry :=
  g.register k objectType ManagedObject.shell

/-- Whether a type of a kind has a `Constructor`. -/
def isRegistered (g : Registry) (k : Kind) (objectType : String) : Bool :=
  g.constructors.contains ⟨k, objectType⟩

/-- How many types have a `Constructor`. -/
def size (g : Registry) : Nat := g.constructors.size

/-- The shell of an object of a given `Identity`, made by the constructor of its type. -/
def construct (g : Registry) (identity : Identity) : Except RebindFailure ManagedObject :=
  match g.constructors.get? ⟨identity.kind, identity.objectType⟩ with
  | some make => .ok (make identity)
  | none => .error (.unknownType ⟨identity.kind, identity.id⟩ identity.objectType)

end Registry

end Failover
