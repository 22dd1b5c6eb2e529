import Failover.Persistence.Mementos

/-! # Objects that could not be rebuilt

Why one object was not, or not fully, rebuilt from its memento, and how a rebind as a whole fails.
-/

namespace Failover

/-- A `RebindFailure` is why one object could not be rebuilt, or not fully. -/
inductive RebindFailure where
  | unknownType (r : ObjectRef) (objectType : String)
  | unresolved (r target : ObjectRef)
  | load (r : ObjectRef) (message : String)
  | missingMemento (r : ObjectRef)
  | populate (r : ObjectRef) (message : String)
deriving DecidableEq, Repr, Inhabited

namespace RebindFailure

/-- The object that the `RebindFailure` is of. -/
def ref : RebindFailure → ObjectRef
  | .unknownType r _ | .unresolved r _ | .load r _ | .missingMemento r | .populate r _ => r

/-- The text of a `RebindFailure`. -/
def message : RebindFailure → String
  | .unknownType r objectType => r.text ++ ": no constructor registered for type " ++ objectType
  | .unresolved r target =>
    r.text ++ ": unresolved " ++ target.kind.label ++ " reference " ++ target.id
  | .load r message => r.text ++ ": memento could not be loaded: " ++ message
  | .missingMemento r => r.text ++ ": listed in the manifest but no memento was found"
  | .populate r message => r.text ++ ": " ++ message

/-- The `RebindFailure` of an object whose record could not be loaded. -/
def ofLoad (f : LoadFailure) : RebindFailure := .load f.ref f.error.message

end RebindFailure

/-- A `FailureMode` is what a rebind does when an object cannot be rebuilt. -/
inductive FailureMode where
  /-- The rebind gives up at the first failure. -/
  | failFast
  /-- The rebind goes on and reports the failures. -/
  | proceed
  /-- The rebind goes on, and fails at the end with all failures. -/
  | failAtEnd
deriving DecidableEq, Repr

namespace FailureMode

instance : Inhabited FailureMode := ⟨.failAtEnd⟩

/-- All modes, in the order in which `FailureMode` lists them. -/
def all : List FailureMode := [.failFast, .proceed, .failAtEnd]

/-- The name of a mode, as settings have it. -/
def label : FailureMode → String
  | .failFast => "fail-fast"
  | .proceed => "continue"
  | .failAtEnd => "fail-at-end"

/-- The mode that a setting names; capitals and underscores are allowed (`Text.hyphenated`). -/
def ofName? (s : String) : Option FailureMode := all.find? fun m => m.label = Text.hyphenated s

/-- The text of the error for a setting that `ofName?` does not know. -/
def unknownText (s : String) : String := "unknown rebind failure mode: " ++ Text.hyphenated s

end FailureMode

/-- A `RebindError` is why a rebind failed as a whole. -/
inductive RebindError where
  | failFast (failure : RebindFailure)
  | failAtEnd (failures : List RebindFailure)
  | persistence (cause : PersistenceError)
  /-- A node that persists its changes as master does not rebind. -/
  | whilePersisting
deriving DecidableEq, Repr

namespace RebindError

/-- The text of a `RebindError`. -/
def message : RebindError → String
  | .failFast failure => "rebind aborted: " ++ failure.message
  | .failAtEnd failures =>
    "rebind failed for " ++ Nat.repr failures.length ++ " object(s): "
      ++ "; ".intercalate (failures.map (·.message))
  | .persistence cause => "persistence error during rebind: " ++ cause.message
  | .whilePersisting => "cannot rebind while persisting changes as master"

/-- Whether the failure may clear on another try, as state that cannot be rebuilt does not. -/
def isTransient : RebindError → Bool
  | .persistence _ | .whilePersisting => true
  | .failFast _ | .failAtEnd _ => false

/-- The `RebindFailure`s of objects that a `RebindError` carries. -/
def failures : RebindError → List RebindFailure
  | .failFast failure => [failure]
  | .failAtEnd failures => failures
  | .persistence _ | .whilePersisting => []

end RebindError

end Failover
