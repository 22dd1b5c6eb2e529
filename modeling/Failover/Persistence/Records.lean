import Failover.Persistence.Objects

/-! # The record persister

Keeps the heartbeat records of the management nodes in a store, one object for each node, under the
node's id. Loading reads them all and makes a plane of them; records that cannot be understood or
stand under another name are passed over. -/

namespace Failover

/-- The state of a `RecordPersister`. -/
structure RecordPersister where
  isStopped : Bool := false
deriving DecidableEq, Repr, Inhabited

namespace RecordPersister

variable {σ : Type} (S : ObjectStore σ) (p : RecordPersister)

/-- The sub-path of the heartbeat records; `Kind.subPath` has others. -/
def subPath : String := "plane"

/-- The path of a node's record: its id below `subPath`. -/
def path (nodeId : String) : String := Path.object subPath nodeId

/-- `checkRunning` fails once the persister `isStopped`. -/
def checkRunning : Action σ PersistenceError Unit :=
  .lift (if p.isStopped then .error .stopped else .ok ())

/-- `write` stores a record under its node's id (`path`). -/
def write (r : NodeRecord) : Action σ PersistenceError Unit :=
  Stored.write S (path r.nodeId) (NodeRecord.codec.toText r)

/-- `remove` removes the record of a node. -/
def remove (nodeId : String) : Action σ PersistenceError Unit := Stored.remove S (path nodeId)

/-- `take` takes up a stored text, if it is the record of the node it is stored for. -/
def take (rs : List NodeRecord) (nodeId text : String) : Except PersistenceError (List NodeRecord) :=
  match NodeRecord.codec.ofText text with
  | .ok r => .ok (if r.nodeId = nodeId then rs ++ [r] else rs)
  | .error _ => .ok rs

/-- `load` reads all records and makes a `Plane` of them (`take`). -/
def load : Action σ PersistenceError Plane := do
  p.checkRunning
  let rs ← Stored.foldObjects S subPath take []
  return Plane.ofRecords rs

/-- `checkpoint` makes the stored records exactly those of a `Plane`. -/
def checkpoint (plane : Plane) : Action σ PersistenceError Unit := do
  p.checkRunning
  Stored.create S subPath
  let listed ← Stored.list S subPath
  Stored.each (write S) plane.nodes.values
  Stored.each (remove S) (listed.filter fun id => !plane.nodes.contains id)

/-- `delta` writes and removes the records that a `PlaneDelta` lists. -/
def delta (d : PlaneDelta) : Action σ PersistenceError Unit := do
  p.checkRunning
  Stored.each (write S) d.nodes
  Stored.each (remove S) d.removed

/-- `stop` stops the persister; the first time, its store is closed. -/
def stop (s : σ) : RecordPersister × σ :=
  if p.isStopped then (p, s) else (⟨true⟩, (S.step .close s).2)

end RecordPersister

end Failover
