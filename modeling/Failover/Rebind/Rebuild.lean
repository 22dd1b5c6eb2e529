import Failover.Rebind.Registry

/-! # Rebuilding objects from stored mementos

Objects are rebuilt in two phases. The manifest names every stored object, and each becomes a shell;
then the mementos are loaded, with references resolved to the shells, and each shell is given the
state of its memento. So objects may refer to each other in any order and in cycles.

What fails is noted in a `FailureLog`, under the failure mode: the first failure ends the work, or
all are collected. An object that already failed is not reported again as missing or unloadable. -/

namespace Failover

/-- The `Shells` of objects, by the kind and id that they are stored under. -/
abbrev Shells := ByRef ManagedObject

/-- The `Lookup` that answers references with the shells, and with placeholders where there is none.
-/
def Shells.lookup (shells : Shells) : Lookup := fun kind objectType id =>
  match shells.get? ⟨kind, id⟩ with
  | some o => some (.live o.identity)
  | none => some (.placeholder ⟨kind, objectType, id⟩)

/-- The failures of a rebind so far, and the objects that they are about. -/
structure FailureLog where
  failures : List RebindFailure := []
  failed : ByRef Unit := .empty
deriving DecidableEq, Inhabited

namespace FailureLog

/-- `note` takes down a failure; if the first one is to end the rebind, this does. -/
def note (mode : FailureMode) (log : FailureLog) (f : RebindFailure) :
    Except RebindError FailureLog :=
  if mode = .failFast then .error (.failFast f)
  else .ok ⟨log.failures ++ [f], log.failed.insert f.ref ()⟩

/-- `noteAll` takes down several failures in turn (`note`). -/
def noteAll (mode : FailureMode) (log : FailureLog) : List RebindFailure →
    Except RebindError FailureLog
  | [] => .ok log
  | f :: fs => do
    let log ← log.note mode f
    noteAll mode log fs

/-- `noteNew` takes down the failures of those objects that are not among `failed` yet. -/
def noteNew (mode : FailureMode) (log : FailureLog) : List RebindFailure →
    Except RebindError FailureLog
  | [] => .ok log
  | f :: fs => do
    let log ← if log.failed.contains f.ref then .ok log else log.note mode f
    noteNew mode log fs

end FailureLog

/-- A `Rebuilt` is what a rebind has made: the objects in order, and the failures on the way. -/
structure Rebuilt where
  objects : List ManagedObject := []
  log : FailureLog := {}
deriving Inhabited

namespace Rebuilt

/-! ## The shells -/

/-- `shells` makes the shells of the objects that the manifest names (`Registry.construct`). -/
def shells (registry : Registry) (mode : FailureMode) :
    List (ObjectRef × String) → Shells → FailureLog → Except RebindError (Shells × FailureLog)
  | [], made, log => .ok (made, log)
  | (r, objectType) :: rest, made, log =>
    match registry.construct ⟨r.kind, r.id, objectType⟩ with
    | .ok o => shells registry mode rest (made.insert r o) log
    | .error f => do
      let log ← log.note mode f
      shells registry mode rest made log

/-- The shells of all objects that the manifest names. What it could not read has failed. -/
def ofManifest (registry : Registry) (mode : FailureMode) (manifest : Manifest) :
    Except RebindError (Shells × FailureLog) := do
  let log ← FailureLog.noteAll mode {} (manifest.failures.map .ofLoad)
  shells registry mode manifest.types.toList .empty log

/-! ## Their state -/

/-- `populateOne` gives one shell the state of its memento (`ManagedObject.apply`). -/
def populateOne (mode : FailureMode) (l : Lookup) (loaded : Topology) (r : ObjectRef)
    (o : ManagedObject) (b : Rebuilt) : Except RebindError Rebuilt :=
  match loaded.get? r with
  | some m => do
    let (o, failures) := o.apply m l
    let log ← b.log.noteAll mode failures
    return ⟨b.objects ++ [o], log⟩
  | none => do
    let log ← b.log.noteNew mode [.missingMemento r]
    return { b with log }

/-- `populate` gives shells the state of their mementos, in turn (`populateOne`). -/
def populate (mode : FailureMode) (l : Lookup) (loaded : Topology) :
    List (ObjectRef × ManagedObject) → Rebuilt → Except RebindError Rebuilt
  | [], b => .ok b
  | (r, o) :: rest, b => do
    let b ← populateOne mode l loaded r o b
    populate mode l loaded rest b

/-- The objects of all shells with the state that was loaded, each told that the rebind is complete.
-/
def ofLoaded (mode : FailureMode) (made : Shells) (log : FailureLog) (loaded : Loaded) :
    Except RebindError Rebuilt := do
  let log ← log.noteNew mode (loaded.failures.map .ofLoad)
  let b ← populate mode made.lookup loaded.topology made.toList { log }
  return { b with objects := b.objects.map (·.completeRebind) }

/-! ## Both phases -/

/-- `Rebuilt.load` rebuilds all stored objects: their shells first (`ofManifest`), then their state
(`ofLoaded`). -/
def load {σ : Type} (S : ObjectStore σ) (p : MementoPersister) (registry : Registry)
    (mode : FailureMode) : Action σ RebindError Rebuilt := do
  -- One shell for every stored object.
  let manifest ← (p.loadManifest S).mapError .persistence
  let (made, log) ← Action.lift (ofManifest registry mode manifest)
  -- With all shells there, references in any order find what they point at.
  let loaded ← (p.loadLenient S made.lookup).mapError .persistence
  .lift (ofLoaded mode made log loaded)

/-- How many of the `objects` are of a kind. -/
def count (b : Rebuilt) (k : Kind) : Nat := b.objects.countP fun o => o.identity.kind = k

end Rebuilt

/-- A `RebindReport` is what is reported of a rebind. -/
structure RebindReport where
  counts : PerKind Nat
  failures : List RebindFailure
  isReadOnly : Bool
deriving DecidableEq, Repr

namespace RebindReport

/-- How many objects were rebuilt, of all kinds. -/
def size (r : RebindReport) : Nat := r.counts.entities + r.counts.locations + r.counts.policies

/-- Whether the `failures` are none. -/
def isClean (r : RebindReport) : Bool := r.failures.isEmpty

/-- What is reported of the objects that were rebuilt. -/
def ofRebuilt (b : Rebuilt) (readOnly : Bool) : RebindReport :=
  ⟨.ofFn b.count, b.log.failures, readOnly⟩

end RebindReport

end Failover
