import Failover.Persistence.Error

/-! # Stored objects

What persisters do with the objects of a store: list the names below a sub-path, read, write and
remove objects, each with the error that names its path, and go through all objects of a sub-path
in the order of their names (`foldObjects`). -/

namespace Failover.Stored

variable {σ α : Type} (S : ObjectStore σ)

/-- The names of the objects below a sub-path; an error is `PersistenceError.ofStore`. -/
def list (subPath : String) : Action σ PersistenceError (List String) :=
  (S.call (.list subPath)).mapError (.ofStore subPath)

/-- `create` makes a sub-path ready to hold objects. -/
def create (subPath : String) : Action σ PersistenceError Unit :=
  (S.call (.createSubPath subPath)).mapError (.ofStore subPath)

/-- The text of the object at a path, if it is there (`ObjectStore.read`). -/
def read (path : String) : Action σ PersistenceError (Option String) :=
  (S.read path).mapError (.ofStore path)

/-- `write` replaces the text of the object at a path (`ObjectStore.write`). -/
def write (path text : String) : Action σ PersistenceError Unit :=
  (S.write path text).mapError (.ofStore path)

/-- `remove` removes the object at a path (`ObjectStore.remove`). -/
def remove (path : String) : Action σ PersistenceError Unit :=
  (S.remove path).mapError (.ofStore path)

/-- `each act` runs an action for each item of a list in turn, until one fails. -/
def each {β : Type} (act : β → Action σ PersistenceError Unit) :
    List β → Action σ PersistenceError Unit
  | [] => pure ()
  | b :: bs => do
    act b
    each act bs

/-- `foldNames` reads the objects of some names below a sub-path in turn and takes up each into a
result. One that has gone since it was listed is passed over. -/
def foldNames (subPath : String) (take : α → String → String → Except PersistenceError α) :
    α → List String → Action σ PersistenceError α
  | acc, [] => pure acc
  | acc, name :: names => do
    match ← read S (Path.object subPath name) with
    | none => foldNames subPath take acc names
    | some text => do
      let acc ← Action.lift (take acc name text)
      foldNames subPath take acc names

/-- `foldObjects` reads all objects below a sub-path in the order of their names and takes up each
into a result (`foldNames`). -/
def foldObjects (subPath : String) (take : α → String → String → Except PersistenceError α)
    (acc : α) : Action σ PersistenceError α := do
  let names ← list S subPath
  foldNames S subPath take acc names

/-- `foldKinds` reads all objects of all kinds and takes up each into a result (`foldObjects`). -/
def foldKinds (take : Kind → α → String → String → Except PersistenceError α) :
    List Kind → α → Action σ PersistenceError α
  | [], acc => pure acc
  | k :: ks, acc => do
    let acc ← foldObjects S k.subPath (take k) acc
    foldKinds take ks acc

end Failover.Stored
