import Failover.Persistence.Objects

/-! # The memento persister

Keeps the topology of a management plane in a store, one object for each memento, under the
sub-path of its kind and its id. A checkpoint makes the stored objects exactly those of a topology;
a delta writes and removes what it lists. Of what it has written the persister keeps a working copy,
which changes only when a checkpoint or delta succeeds as a whole.

There are two ways to load: a strict one, which fails at the first record that cannot be
understood, and a lenient one, which reports such records and goes on. The manifest looks only at
the ids and types of the stored objects. -/

namespace Failover

/-- A `LoadFailure` names a stored object that could not be loaded, and why. -/
structure LoadFailure where
  ref : ObjectRef
  error : PersistenceError
deriving DecidableEq, Repr

/-- A `Loaded` is what `loadLenient` found. -/
structure Loaded where
  topology : Topology := {}
  failures : List LoadFailure := []
deriving DecidableEq

/-- A `Manifest` has the types of the stored objects, by kind and id. -/
structure Manifest where
  types : ByRef String := .empty
  failures : List LoadFailure := []
deriving DecidableEq

/-- The state of a `MementoPersister`. -/
structure MementoPersister where
  /-- The topology as this persister last wrote it. -/
  working : Topology := {}
  /-- Whether every text is read back before it is written. -/
  verifies : Bool := false
  isStopped : Bool := false
deriving DecidableEq, Inhabited

namespace MementoPersister

/-- The `MementoPersister` to use over memory, where reading each text back costs little. -/
def inMemory : MementoPersister := { verifies := true }

variable {σ : Type} (S : ObjectStore σ) (p : MementoPersister)

/-- The path of an object: its id below the `subPath` of its kind. -/
def path (r : ObjectRef) : String := Path.object r.kind.subPath r.id

/-- `checkRunning` fails once the persister `isStopped`. -/
def checkRunning : Action σ PersistenceError Unit :=
  .lift (if p.isStopped then .error .stopped else .ok ())

/-! ## Writing -/

/-- The text to store for a memento; where the persister `verifies`, one that reads back. -/
def textOf (m : Memento) : Except PersistenceError String :=
  let text := Memento.codec.toText m
  if p.verifies then
    match Memento.load .placeholders text with
    | .ok _ => .ok text
    | .error e => .error (.format (path m.ref) (.selfCheck e))
  else .ok text

/-- `write` stores a memento under its own kind and id (`path`). -/
def write (m : Memento) : Action σ PersistenceError Unit := do
  let text ← .lift (p.textOf m)
  Stored.write S (path m.ref) text

/-- `remove` removes the stored object of a kind and id. -/
def remove (k : Kind) (id : String) : Action σ PersistenceError Unit :=
  Stored.remove S (path ⟨k, id⟩)

/-- `checkpointKind` makes the stored objects of the kind `k` exactly those of `t`. -/
def checkpointKind (t : Topology) (k : Kind) : Action σ PersistenceError Unit := do
  Stored.create S k.subPath
  -- What is stale is known before anything is written.
  let listed ← Stored.list S k.subPath
  let wanted := t.objects.get k
  Stored.each (p.write S) wanted.values
  Stored.each (remove S k) (listed.filter fun id => !wanted.contains id)

/-- `checkpoint` makes the stored objects exactly those of a topology, by `checkpointKind` for each
kind. -/
def checkpoint (t : Topology) : Action σ PersistenceError MementoPersister := do
  p.checkRunning
  Stored.each (p.checkpointKind S t) Kind.all
  return { p with working := t }

/-- `deltaKind` writes and removes what a `Delta` lists for one kind. -/
def deltaKind (d : Delta) (k : Kind) : Action σ PersistenceError Unit := do
  Stored.each (p.write S) (d.changed.get k)
  Stored.each (remove S k) (d.removed.get k)

/-- `delta` writes and removes what a `Delta` lists, and folds it into `working` (`Topology.fold`).
-/
def delta (d : Delta) : Action σ PersistenceError MementoPersister := do
  p.checkRunning
  if d.isEmpty then return p
  Stored.each (p.deltaKind S d) Kind.all
  return { p with working := p.working.fold d }

/-! ## Reading -/

/-- `parse` reads a stored text as the `Memento` of a given object. -/
def parse (l : Lookup) (r : ObjectRef) (text : String) : Except PersistenceError Memento :=
  match Memento.load l text with
  | .error e => .error (.format (path r) (.unreadable e))
  | .ok m => if m.ref = r then .ok m else .error (.format (path r) (.holds m.ref))

/-- `takeStrict` takes up a stored text into a strict load, which fails with it. -/
def takeStrict (l : Lookup) (k : Kind) (t : Topology) (id text : String) :
    Except PersistenceError Topology :=
  (parse l ⟨k, id⟩ text).map fun m => { t with objects := Topology.file t.objects m }

/-- `takeLenient` takes up a stored text into a lenient load, or notes its failure. -/
def takeLenient (l : Lookup) (k : Kind) (loaded : Loaded) (id text : String) :
    Except PersistenceError Loaded :=
  match parse l ⟨k, id⟩ text with
  | .ok m =>
    .ok { loaded with
      topology := { loaded.topology with objects := Topology.file loaded.topology.objects m } }
  | .error e => .ok { loaded with failures := loaded.failures ++ [⟨⟨k, id⟩, e⟩] }

/-- `takeEntry` takes up the type of a stored text into the `Manifest`, or notes its failure. -/
def takeEntry (k : Kind) (m : Manifest) (id text : String) : Except PersistenceError Manifest :=
  match ManifestEntry.ofText text with
  | .ok entry => .ok { m with types := m.types.insert ⟨k, id⟩ entry.objectType }
  | .error e =>
    .ok { m with
      failures := m.failures ++ [⟨⟨k, id⟩, .format (path ⟨k, id⟩) (.unreadable (.json e))⟩] }

/-- `load` reads everything; the first record that cannot be understood fails the load
(`takeStrict`). -/
def load (l : Lookup) : Action σ PersistenceError Topology := do
  p.checkRunning
  Stored.foldKinds S (takeStrict l) Kind.all {}

/-- `loadLenient` reads everything that can be understood and reports the rest (`takeLenient`). -/
def loadLenient (l : Lookup) : Action σ PersistenceError Loaded := do
  p.checkRunning
  Stored.foldKinds S (takeLenient l) Kind.all {}

/-- `loadManifest` reads the id and type of every stored object (`takeEntry`). -/
def loadManifest : Action σ PersistenceError Manifest := do
  p.checkRunning
  Stored.foldKinds S takeEntry Kind.all {}

/-! ## Stopping -/

/-- `stop` stops the persister; the first time, its store is closed. -/
def stop (s : σ) : MementoPersister × σ :=
  if p.isStopped then (p, s) else ({ p with isStopped := true }, (S.step .close s).2)

end MementoPersister

end Failover
