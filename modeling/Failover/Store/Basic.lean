import Failover.Store.Path
import Failover.Text.Case

/-! # Object stores

An object store holds texts under paths. What can be asked of a store is a `Call`, with an answer
type for each call; a store is a step function that takes a call and a state to an answer and the
next state. Stores that wrap others (to count, to fail, to act in between) are step functions built
from step functions, so one statement about sequences of calls covers them all. -/

namespace Failover

/-- A `PersistMode` is how a store treats what it holds when it is prepared for use. -/
inductive PersistMode where
  /-- The store refuses to be prepared. -/
  | disabled
  /-- What is there is used. -/
  | auto
  /-- Something has to be there. -/
  | rebind
  /-- What is there is deleted. -/
  | clean
deriving DecidableEq, Repr, Inhabited

namespace PersistMode

/-- All modes, in the order in which `PersistMode` lists them. -/
def all : List PersistMode := [.disabled, .auto, .rebind, .clean]

/-- The name of a mode, as settings have it. -/
def label : PersistMode → String
  | .disabled => "disabled"
  | .auto => "auto"
  | .rebind => "rebind"
  | .clean => "clean"

/-- The mode that a setting names; capitals are allowed (`Text.lower`). -/
def ofName? (s : String) : Option PersistMode := all.find? fun m => m.label = Text.lower s

/-- The text of the error for a setting that `ofName?` does not know. -/
def unknownText (s : String) : String := "unknown persist mode: " ++ Text.lower s

end PersistMode

/-- An `IoError` is why reading or writing failed below the store. -/
inductive IoError where
  | exists
  | notDirectory
  | isDirectory
  | nameTooLong
  | nulInName
  | notText
  | other (message : String)
deriving DecidableEq, Repr, Inhabited

/-- The text of an `IoError`. -/
def IoError.message : IoError → String
  | .exists => "File exists (os error 17)"
  | .notDirectory => "Not a directory (os error 20)"
  | .isDirectory => "Is a directory (os error 21)"
  | .nameTooLong => "File name too long (os error 36)"
  | .nulInName => "file name contained an unexpected NUL byte"
  | .notText => "stream did not contain valid UTF-8"
  | .other message => message

/-- A `StoreError` is why a store did not answer. The stores named are given by their summaries. -/
inductive StoreError where
  | io (cause : IoError)
  | notPrepared (store : String)
  | closed (store : String)
  | invalidPath (path : String)
  | persistenceDisabled (store : String)
  | nothingToRebind (store : String)
deriving DecidableEq, Repr, Inhabited

/-- The text of a `StoreError`. -/
def StoreError.message : StoreError → String
  | .io cause => "io error: " ++ cause.message
  | .notPrepared store => "store not prepared for use: " ++ store
  | .closed store => "store is closed: " ++ store
  | .invalidPath path => "invalid object path: " ++ path
  | .persistenceDisabled store => "persistence is disabled for " ++ store
  | .nothingToRebind store => "rebind requested but " ++ store ++ " holds no persisted state"

namespace Store

/-- A `Call` is what can be asked of a store. An object is opened before it is accessed; the
accesses name it by its path. -/
inductive Call where
  | prepare (mode : PersistMode)
  | createSubPath (subPath : String)
  | list (subPath : String)
  | deleteAll
  | close
  | openObject (path : String)
  | get (path : String)
  | put (path contents : String)
  | append (path contents : String)
  | delete (path : String)
  | contains (path : String)
  | lastModified (path : String)
deriving DecidableEq, Repr, Inhabited

/-- What a `Call` is answered with: the names below a sub-path, the contents of an object if it is
there, whether it is there, whether it has a time of modification, or nothing. -/
@[reducible] def Call.Answer : Call → Type
  | .list _ => List String
  | .get _ => Option String
  | .contains _ => Bool
  | .lastModified _ => Bool
  | .prepare _ | .createSubPath _ | .deleteAll | .close | .openObject _ | .put _ _ | .append _ _
  | .delete _ => Unit

end Store

/-- An `Action` is a step that may fail and leaves a state behind either way. -/
abbrev Action (σ ε α : Type) := ExceptT ε (StateM σ) α

namespace Action

variable {σ τ ε α : Type}

/-- `x.run s` is the outcome of the action `x` on the state `s`. -/
def run (x : Action σ ε α) (s : σ) : Except ε α × σ := x s

/-- `Action.of f` is the action of a step function. -/
def of (f : σ → Except ε α × σ) : Action σ ε α := f

/-- `x.attempt` runs `x` and hands on its outcome as a value; nothing fails. -/
def attempt {δ : Type} (x : Action σ ε α) : Action σ δ (Except ε α) :=
  fun s => let (r, s) := x s; (.ok r, s)

/-- `Action.lift r` hands on an outcome that is known already. -/
def lift (r : Except ε α) : Action σ ε α := fun s => (r, s)

/-- `x.mapError f` restates the error of `x`. -/
def mapError {δ : Type} (f : ε → δ) (x : Action σ ε α) : Action σ δ α :=
  fun s => let (r, s) := x s; (r.mapError f, s)

/-- `x.focus get set` does `x` on a part of a state. -/
def focus (get : σ → τ) (set : σ → τ → σ) (x : Action τ ε α) : Action σ ε α :=
  fun s => let (r, t) := x (get s); (r, set s t)

end Action

/-- An `ObjectStore` whose state, and what surrounds it, is a `σ`. -/
structure ObjectStore (σ : Type) where
  /-- How messages call the store. -/
  summary : String
  /-- The answer to a `Call`, and the state after it. -/
  step : (c : Store.Call) → σ → Except StoreError c.Answer × σ

namespace ObjectStore

open Store

variable {σ τ : Type} (S : ObjectStore σ)

/-- `S.call c` is the answer to `c`, as an action. -/
def call (c : Call) : Action σ StoreError c.Answer := S.step c

/-- The contents of an object, opened for this (`openObject`, then `get`). -/
def read (path : String) : Action σ StoreError (Option String) := do
  S.call (.openObject path)
  S.call (.get path)

/-- `S.write path contents` replaces an object, opened for this. -/
def write (path contents : String) : Action σ StoreError Unit := do
  S.call (.openObject path)
  S.call (.put path contents)

/-- `S.remove path` deletes an object, opened for this. -/
def remove (path : String) : Action σ StoreError Unit := do
  S.call (.openObject path)
  S.call (.delete path)

/-- `readAll` reads objects below a sub-path, with their paths, in turn; one that is not there is
passed over. -/
def readAll (subPath : String) : List String → Action σ StoreError (List (String × String))
  | [] => pure []
  | name :: names => do
    let contents? ← S.read (Path.object subPath name)
    let rest ← readAll subPath names
    return (contents?.map (Path.object subPath name, ·)).toList ++ rest

/-- All objects directly below some sub-paths, with their paths (`readAll`). -/
def dump : List String → Action σ StoreError (List (String × String))
  | [] => pure []
  | subPath :: subPaths => do
    let names ← S.call (.list subPath)
    let here ← S.readAll subPath names
    let rest ← dump subPaths
    return here ++ rest

/-- `S.run cs s` has the answers to the calls `cs` in turn, and the state after them. -/
def run (S : ObjectStore σ) :
    List Call → σ → List ((c : Call) × Except StoreError c.Answer) × σ
  | [], s => ([], s)
  | c :: cs, s =>
    let (r, s) := S.step c s
    let (rs, s) := S.run cs s
    (⟨c, r⟩ :: rs, s)

/-- `S.focus get set` is the store `S` in a part of a greater state. -/
def focus (S : ObjectStore τ) (get : σ → τ) (set : σ → τ → σ) : ObjectStore σ :=
  ⟨S.summary, fun c s => let (r, t) := S.step c (get s); (r, set s t)⟩

end ObjectStore

end Failover
