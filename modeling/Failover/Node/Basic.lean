import Failover.Node.Config
import Failover.Plane.Basic

/-! # A management node

A node takes part in the election of the master of its plane. Its `state` is what it believes about
itself; `reported` and `plane` are what it answers to those who ask, brought up to date by `observe`
at the end of everything that it does.

What a node has around it (`Surroundings`) is a clock, the store of the heartbeat records, someone
to announce a promotion to, and a `Rebinder`, which rebuilds the node's objects and writes back
their changes. Everything there may fail and may change the surroundings, a `ω`. -/

namespace Failover

/-- A `NodeError` is why a node did not do what it was asked to. -/
inductive NodeError where
  | alreadyStarted
  | notStarted
  | stopped
  | masterAlreadyPresent (nodeId : String)
  | noMasterPresent
  | persistence (cause : PersistenceError)
  | rebind (cause : RebindError)
deriving DecidableEq, Repr

namespace NodeError

/-- The text of a `NodeError`. -/
def message : NodeError → String
  | .alreadyStarted => "high availability manager already started"
  | .notStarted => "high availability manager not started"
  | .stopped => "high availability manager stopped"
  | .masterAlreadyPresent nodeId =>
    "cannot start as master: node " ++ nodeId ++ " is already master"
  | .noMasterPresent => "cannot start as standby: no live master present"
  | .persistence cause => "sync record error: " ++ cause.message
  | .rebind cause => "promotion failed: " ++ cause.message

/-- Whether another try is pointless: state is there that cannot be rebuilt
(`RebindError.isTransient`). -/
def isFinal : NodeError → Bool
  | .rebind cause => !cause.isTransient
  | _ => false

end NodeError

/-- A `Rebinder` does what a node needs done with its objects. -/
structure Rebinder (ω : Type) where
  /-- Rebuilds the objects from the store, `readOnly` as the warm copy of a standby. -/
  rebind : (readOnly : Bool) → Action ω RebindError Unit
  /-- Starts writing back the changes of the objects. -/
  startPersisting : Action ω PersistenceError Unit
  /-- Stops writing back the changes of the objects. -/
  stopPersisting : ω → ω

/-- The `Surroundings` are what a node has around it, over a state `ω`. -/
structure Surroundings (ω : Type) where
  /-- The time on the clock. -/
  now : ω → Timestamp
  /-- Stores a heartbeat record. -/
  publish : NodeRecord → Action ω PersistenceError Unit
  /-- Reads the records of all nodes. -/
  loadPlane : Action ω PersistenceError Plane
  /-- What rebuilds the objects and writes back their changes; a node may do without. -/
  rebinder : Option (Rebinder ω)
  /-- Announces a promotion. -/
  announce : ω → ω

namespace Surroundings

variable {ω : Type} (env : Surroundings ω)

/-- `tell` publishes a heartbeat record if that can be done; a failure of `publish` is passed over.
-/
def tell (r : NodeRecord) (w : ω) : ω := ((env.publish r).run w).2

/-- `takeOver` rebuilds the objects and starts writing back their changes, as the master does. -/
def takeOver (w : ω) : Except NodeError Unit × ω :=
  match env.rebinder with
  | none => (.ok (), w)
  | some rebinder =>
    match (rebinder.rebind false).run w with
    | (.error e, w) => (.error (.rebind e), w)
    | (.ok (), w) =>
      match rebinder.startPersisting.run w with
      | (.error e, w) => (.error (.persistence e), w)
      | (.ok (), w) => (.ok (), w)

/-- `stopPersisting` stops the `rebinder` writing back changes, if there is one. -/
def stopPersisting (w : ω) : ω :=
  match env.rebinder with
  | none => w
  | some rebinder => rebinder.stopPersisting w

/-- `refresh` rebuilds the warm copy of a standby if that can be done. -/
def refresh (w : ω) : ω :=
  match env.rebinder with
  | none => w
  | some rebinder => ((rebinder.rebind true).run w).2

end Surroundings

/-- A `Node` is a management node: what it has been told, what it believes and what it reports. -/
structure Node where
  id : String
  uri : Option String := none
  /-- How old a heartbeat may become before it has expired. -/
  timeout : Duration := NodeConfig.defaultHeartbeatTimeout
  /-- How the node was started; `none` before that. -/
  mode : Option StartMode := none
  /-- What the node believes about itself. -/
  state : NodeState := .initializing
  /-- When the node last became master. -/
  masterSince : Option Timestamp := none
  /-- When the node last stored its record and read the others in one poll. -/
  lastSync : Option Timestamp := none
  /-- The state that the node reports. -/
  reported : NodeState := .initializing
  /-- The plane that the node reports. -/
  plane : Plane := {}
  /-- Whether the node polls period by period. -/
  isPolling : Bool := false
  /-- Whether the node has been told to stop. -/
  isStopping : Bool := false
deriving DecidableEq, Inhabited

namespace Node

/-- The heartbeat record of a node at a time; only a master's has its `masterSince`. -/
def record (n : Node) (now : Timestamp) : NodeRecord where
  nodeId := n.id
  state := n.state
  timestamp := now
  uri := n.uri
  masterSince := if n.state = .master then n.masterSince else none

/-- `observe` brings up to date what a node reports: a plane, or the one reported so far, with the
node's own `record` as it is now. -/
def observe (n : Node) (now : Timestamp) (plane : Option Plane) : Node :=
  { n with
    plane := (plane.getD n.plane).apply (.node (n.record now))
    reported := n.state }

/-- The node as a `standby`, without a time of promotion. -/
def asStandby (n : Node) : Node := { n with state := .standby, masterSince := none }

/-- The node as `master` since `now`. -/
def asMaster (n : Node) (now : Timestamp) : Node :=
  { n with state := .master, masterSince := some now }

/-- The node as one that has `failed`. -/
def asFailed (n : Node) : Node := { n with state := .failed, masterSince := none }

/-- The master elected from a plane (`Plane.elect`), if it is another node whose record claims
mastership. -/
def otherMaster? (n : Node) (plane : Plane) (now : Timestamp) : Option String :=
  (plane.elect now n.timeout).master.filter fun id =>
    id ≠ n.id && ((plane.nodes.get? id).map (·.claims)).getD false

/-- Whether `lastSync` is longer ago than the heartbeat `timeout`. -/
def hasLostSync (n : Node) (now : Timestamp) : Bool :=
  n.timeout.asTimestamp < now.since (n.lastSync.getD Int64.minValue)

end Node

end Failover
