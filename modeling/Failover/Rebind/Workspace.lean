import Failover.Persistence.Records
import Failover.Rebind.Pending
import Failover.Rebind.Rebuild
import Failover.Store.Faults

/-! # A node's workspace

A workspace is what one management node has at hand: its persisters on a store, the graph of live
objects, and the writers that carry changes of the graph to the store. It is rebuilt from the store
(`rebind`), and while it is persisting every change of the graph is written back: all of it at once
when persisting starts, and afterwards delta by delta (`flush`). As time passes the writers flush in
turn, the one that was started earlier before the other (`period`).

Changes are reported to one listener at a time. Reporting is apart from changing (`changed` and
`notify`), and a flush is a sequence of calls between which the graph may go on changing; so faults
of a store may bring changes in the middle of a flush or a checkpoint (`Meanwhile`). -/

namespace Failover

/-- A `WriterRole` tells the two writers of a workspace apart. -/
inductive WriterRole where
  /-- The writer that runs while the node is persisting. -/
  | persisting
  /-- A writer of its own. -/
  | separate
deriving DecidableEq, Repr, Inhabited

/-- A `Listener` is told of the changes of a graph. -/
inductive Listener where
  | writer (role : WriterRole)
  /-- The journal. -/
  | journal
deriving DecidableEq, Repr, Inhabited

/-- A `Meanwhile` is what may happen in a workspace while a store is being called. -/
inductive Meanwhile where
  | edit (e : GraphEdit)
  | stopPersisting
deriving DecidableEq

/-- A `Workspace` is what a node works with, over a store whose state is a `σ`. -/
structure Workspace (σ : Type) where
  store : σ
  /-- What will go wrong with the calls of the persisters. -/
  faults : List (Store.Fault Meanwhile) := []
  mementos : MementoPersister := {}
  records : RecordPersister := {}
  graph : ManagedGraph := {}
  listener : Option Listener := none
  /-- The writer that runs while the node is persisting. -/
  persisting : DeltaWriter := {}
  /-- A writer of its own. -/
  separate : DeltaWriter := {}
  /-- The writer that was started last; the other one has its turn before it. -/
  lastStarted : WriterRole := .separate
  /-- The changes that the journal was told of. -/
  journal : List Change := []

namespace Workspace

variable {σ τ : Type}

/-- The same `Workspace` over another store. -/
def withStore (w : Workspace σ) (s : τ) : Workspace τ := { w with store := s }

/-- Whether changes of the graph are being written back: the `persisting` writer runs. -/
def isPersisting (w : Workspace σ) : Bool := w.persisting.isRunning

/-! ## The writers -/

/-- The writer of a `WriterRole`. -/
def writer (w : Workspace σ) : WriterRole → DeltaWriter
  | .persisting => w.persisting
  | .separate => w.separate

/-- `updateWriter` changes the writer of a role by `f`. -/
def updateWriter (w : Workspace σ) (role : WriterRole) (f : DeltaWriter → DeltaWriter) :
    Workspace σ :=
  match role with
  | .persisting => { w with persisting := f w.persisting }
  | .separate => { w with separate := f w.separate }

/-- `startWriter` starts a writer, which takes over as `listener`. -/
def startWriter (w : Workspace σ) (role : WriterRole) : Workspace σ :=
  if (w.writer role).isRunning then w
  else
    { w.updateWriter role fun _ => .started with
      listener := some (.writer role), lastStarted := role }

/-- `stopWriter` stops a writer; what has not been written is dropped. -/
def stopWriter (w : Workspace σ) (role : WriterRole) : Workspace σ :=
  if (w.writer role).isRunning then { w.updateWriter role fun _ => {} with listener := none } else w

/-- The writers in the order in which they were started, `lastStarted` at the end. -/
def turns (w : Workspace σ) : List WriterRole :=
  match w.lastStarted with
  | .persisting => [.separate, .persisting]
  | .separate => [.persisting, .separate]

/-- `stopPersisting` stops writing back changes; what has not been written is dropped. -/
def stopPersisting (w : Workspace σ) : Workspace σ := w.stopWriter .persisting

/-! ## Changes of the graph -/

/-- `notify` tells the `listener` of a `Change`. -/
def notify (w : Workspace σ) (c : Change) : Workspace σ :=
  match w.listener with
  | some (.writer role) => w.updateWriter role (·.note c)
  | some .journal => { w with journal := w.journal ++ [c] }
  | none => w

/-- The workspace after an edit of its graph, of which nobody has been told yet. -/
def changed (w : Workspace σ) (e : GraphEdit) : Except GraphError (Workspace σ × Change) :=
  (w.graph.edit e).map fun (graph, c) => ({ w with graph }, c)

/-- `edit e` edits the graph and tells the `listener` (`changed`, `notify`). -/
def edit (e : GraphEdit) : Action (Workspace σ) GraphError Unit := .of fun w =>
  match w.changed e with
  | .ok (w, c) => (.ok (), w.notify c)
  | .error cause => (.error cause, w)

/-- `replaceAll` puts objects into the graph in place of all that was there; nobody is told. -/
def replaceAll (w : Workspace σ) (os : List ManagedObject) (readOnly : Bool) : Workspace σ :=
  { w with graph := .ofObjects os readOnly }

/-- `editObject` changes an object of the graph in place; nobody is told. -/
def editObject (w : Workspace σ) (r : ObjectRef) (e : ManagedObject.Edit) : Workspace σ :=
  { w with graph := w.graph.editObject r e }

/-- `happen` lets a `Meanwhile` happen while a store is being called. An edit that the graph refuses
has no effect. -/
def happen (w : Workspace σ) : Meanwhile → Workspace σ
  | .edit e => ((edit e).run w).2
  | .stopPersisting => w.stopPersisting

/-! ## The store -/

/-- The store `S` as it is seen from the workspace. -/
def seen (S : ObjectStore σ) : ObjectStore (Workspace σ) :=
  S.focus (·.store) fun w store => { w with store }

/-- The store `S` whose calls go wrong as `faults` plans. -/
def faulty (S : ObjectStore σ) : ObjectStore (Workspace σ) :=
  (seen S).faulty (·.faults) (fun w faults => { w with faults }) happen

/-! ## The persisters -/

section Persisters

variable (S : ObjectStore (Workspace σ))

/-- `checkpoint t` makes the stored objects those of `t` (`MementoPersister.checkpoint`). -/
def checkpoint (t : Topology) : Action (Workspace σ) PersistenceError Unit := do
  let mementos ← (← get).mementos.checkpoint S t
  modify fun w => { w with mementos }

/-- `delta d` writes `d` to the stored objects (`MementoPersister.delta`). -/
def delta (d : Delta) : Action (Workspace σ) PersistenceError Unit := do
  let mementos ← (← get).mementos.delta S d
  modify fun w => { w with mementos }

/-- `load` reads the stored objects; the first one that cannot be understood fails the load. -/
def load (l : Lookup) : Action (Workspace σ) PersistenceError Topology := do
  (← get).mementos.load S l

/-- `loadLenient` reads the stored objects that can be understood. -/
def loadLenient (l : Lookup) : Action (Workspace σ) PersistenceError Loaded := do
  (← get).mementos.loadLenient S l

/-- `loadManifest` reads the ids and types of the stored objects. -/
def loadManifest : Action (Workspace σ) PersistenceError Manifest := do
  (← get).mementos.loadManifest S

/-- `stopMementos` stops the memento persister. -/
def stopMementos (w : Workspace σ) : Workspace σ :=
  let (mementos, w) := w.mementos.stop S w
  { w with mementos }

/-- `loadPlane` reads the `Plane` from the stored records. -/
def loadPlane : Action (Workspace σ) PersistenceError Plane := do
  (← get).records.load S

/-- `checkpointPlane p` makes the stored records those of `p`. -/
def checkpointPlane (p : Plane) : Action (Workspace σ) PersistenceError Unit := do
  (← get).records.checkpoint S p

/-- `planeDelta d` writes `d` to the stored records. -/
def planeDelta (d : PlaneDelta) : Action (Workspace σ) PersistenceError Unit := do
  (← get).records.delta S d

/-- `stopRecords` stops the record persister. -/
def stopRecords (w : Workspace σ) : Workspace σ :=
  let (records, w) := w.records.stop S w
  { w with records }

/-! ## Rebinding -/

/-- `rebind` rebuilds the graph from the store (`Rebuilt.load`). Once the objects have been rebuilt
they are in the graph, even if the rebind then fails for those that could not be; an earlier end
leaves the graph as it was. -/
def rebind (registry : Registry) (mode : FailureMode) (readOnly : Bool) :
    Action (Workspace σ) RebindError RebindReport := do
  let w ← get
  if w.isPersisting then throw .whilePersisting
  let b ← Rebuilt.load S w.mementos registry mode
  -- From here on the graph is the new one, whether or not the rebind succeeds.
  modify fun w => w.replaceAll b.objects readOnly
  if mode = .failAtEnd ∧ b.log.failures ≠ [] then throw (.failAtEnd b.log.failures)
  return .ofRebuilt b readOnly

/-! ## Persisting -/

/-- `checkpointNow` writes all of the graph to the store (`ManagedGraph.snapshot`). -/
def checkpointNow : Action (Workspace σ) PersistenceError Unit := do
  checkpoint S (← get).graph.snapshot

/-- `startPersisting` starts writing back changes, beginning with all of the graph. The `listener`
is set before that, so that no change in between is missed. -/
def startPersisting : Action (Workspace σ) PersistenceError Unit := do
  if (← get).isPersisting then return
  modify (·.startWriter .persisting)
  match ← (checkpointNow S).attempt with
  | .ok () => return
  | .error e =>
    modify stopPersisting
    throw e

/-- How long a writer waits from one flush to the next, unless `Setting.persistPeriod` is set. -/
def defaultPersistPeriod : Duration := .ofMillis 1000

/-- `flushWriter` writes what is pending with a writer as one delta (`Pending.delta`) and counts its
changes. If that fails the changes stay pending. -/
def flushWriter (role : WriterRole) : Action (Workspace σ) PersistenceError Nat := do
  let w ← get
  let writer := w.writer role
  if !writer.isRunning || writer.pending.isEmpty then return 0
  let d := writer.pending.delta w.graph
  -- What is reported from here on waits for the next flush.
  set (w.updateWriter role (·.taken))
  match ← (delta S d).attempt with
  | .ok () => return d.size
  | .error e =>
    modify (·.updateWriter role (·.giveBack writer.pending))
    throw e

/-- `flush` writes the pending changes of a node that is persisting (`flushWriter`). -/
def flush : Action (Workspace σ) PersistenceError Nat := flushWriter S .persisting

/-- A `period` passes: the writers that run flush in the order of `turns`, and a failure waits for
the next period. -/
def period (w : Workspace σ) : Workspace σ :=
  w.turns.foldl (fun w role => ((flushWriter S role).run w).2) w

end Persisters

/-! ## Listening -/

/-- `listen` sets the `listener`. -/
def listen (w : Workspace σ) (l : Option Listener) : Workspace σ := { w with listener := l }

/-- What the `journal` holds, and the workspace with an empty one. -/
def takeJournal (w : Workspace σ) : List Change × Workspace σ :=
  (w.journal, { w with journal := [] })

/-- The `Workspace` of a node that starts again over what is stored: with new persisters, an empty
graph and no writer running. -/
def restart (w : Workspace σ) : Workspace σ :=
  { store := w.store, faults := w.faults, journal := w.journal,
    mementos := { verifies := w.mementos.verifies } }

end Workspace

end Failover
