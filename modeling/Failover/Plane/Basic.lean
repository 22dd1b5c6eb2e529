import Failover.SortedMap
import Failover.Text.Case
import Failover.Time
import Failover.Topology.Basic

/-! # Node records and the management plane

Every management node publishes a `NodeRecord`, its heartbeat. A `Plane` is what one observer has
read: the records of all nodes and the recorded master. `Plane.ofRecords` names as master the node
whose record claims mastership with the latest claim; of equal claims the smallest node id wins.
Reading a plane again after a `PlaneDelta` names the master anew. -/

namespace Failover

/-- A `NodeState` is what a management node believes about itself. -/
inductive NodeState where
  | initializing
  | standby
  | master
  | failed
  | terminated
deriving DecidableEq, Repr, Inhabited

namespace NodeState

/-- All states, in the order in which `NodeState` lists them. -/
def all : List NodeState := [.initializing, .standby, .master, .failed, .terminated]

/-- The name of a state, as records have it (`NodeState.codec`). -/
def label : NodeState → String
  | .initializing => "INITIALIZING"
  | .standby => "STANDBY"
  | .master => "MASTER"
  | .failed => "FAILED"
  | .terminated => "TERMINATED"

/-- Whether a node in this state may become master: `failed` and `terminated` nodes may not. -/
def isEligible : NodeState → Bool
  | .failed | .terminated => false
  | _ => true

end NodeState

/-- A `StartMode` is how a node takes part in the election when it starts. -/
inductive StartMode where
  | auto
  | master
  | standby
  | hotStandby
  | disabled
deriving DecidableEq, Repr, Inhabited

namespace StartMode

/-- All modes, in the order in which `StartMode` lists them. -/
def all : List StartMode := [.auto, .master, .standby, .hotStandby, .disabled]

/-- The name of a mode, as settings have it. -/
def label : StartMode → String
  | .auto => "auto"
  | .master => "master"
  | .standby => "standby"
  | .hotStandby => "hot-standby"
  | .disabled => "disabled"

/-- The mode that a setting names; capitals and underscores are allowed (`Text.hyphenated`). -/
def ofName? (s : String) : Option StartMode :=
  all.find? fun m => m.label = Text.hyphenated s

/-- The text of the error for a setting that `ofName?` does not know. -/
def unknownText (s : String) : String := "unknown high availability mode: " ++ s

end StartMode

/-- A `NodeRecord` is one node's heartbeat. -/
structure NodeRecord where
  nodeId : String
  state : NodeState
  timestamp : Timestamp
  version : String := platformVersion
  uri : Option String := none
  /-- When the node last became master; only a master's record has it. -/
  masterSince : Option Timestamp := none
deriving DecidableEq, Repr, Inhabited

namespace NodeRecord

/-- The time that orders competing claims to mastership: `masterSince`, or else the `timestamp`. -/
def claimTime (r : NodeRecord) : Timestamp := r.masterSince.getD r.timestamp

/-- The milliseconds since the record was written, clamped (`Timestamp.since`). -/
def age (r : NodeRecord) (now : Timestamp) : Timestamp := now.since r.timestamp

/-- Whether the `age` of the record is above the heartbeat timeout. -/
def isExpired (r : NodeRecord) (now : Timestamp) (timeout : Duration) : Bool :=
  timeout.asTimestamp < r.age now

/-- Whether the record claims mastership: its `state` is `master`. -/
def claims (r : NodeRecord) : Bool := r.state = .master

/-- `a.outranks b` if the claim of `a` is later, or as late and of a smaller node id. -/
def outranks (a b : NodeRecord) : Bool :=
  b.claimTime < a.claimTime || (a.claimTime = b.claimTime && a.nodeId < b.nodeId)

/-- The record whose claim no other of the list `outranks`. -/
def leading : List NodeRecord → Option NodeRecord
  | [] => none
  | r :: rs =>
    match leading rs with
    | none => some r
    | some best => if r.outranks best then some r else some best

end NodeRecord

/-- An `Ambiguity` is that more than one node claims to be master. -/
structure Ambiguity where
  claimants : List String
deriving DecidableEq, Repr, Inhabited

namespace Ambiguity

/-- The `Ambiguity` of a list of claims, if there are several. -/
def ofClaims (claims : List NodeRecord) : Option Ambiguity :=
  if 1 < claims.length then some ⟨claims.map (·.nodeId)⟩ else none

/-- How an `Ambiguity` is reported. -/
def text (a : Ambiguity) : String :=
  "election ambiguity: " ++ Nat.repr a.claimants.length ++ " nodes claim master ("
    ++ ", ".intercalate a.claimants ++ ")"

end Ambiguity

/-- A `PlaneDelta` is a change to the node records of a plane. -/
structure PlaneDelta where
  nodes : List NodeRecord := []
  removed : List String := []
deriving DecidableEq, Repr, Inhabited

namespace PlaneDelta

/-- The change that puts in the one record `r`. -/
def node (r : NodeRecord) : PlaneDelta := ⟨[r], []⟩

/-- Whether a `PlaneDelta` lists nothing. -/
def isEmpty (d : PlaneDelta) : Bool := d.nodes.isEmpty && d.removed.isEmpty

end PlaneDelta

/-- A `Plane` is what one observer has read: the records of all nodes, and the recorded master. -/
structure Plane where
  nodes : SortedMap String NodeRecord := .empty
  masterId : Option String := none
deriving DecidableEq, Inhabited

namespace Plane

/-- The records of a plane that claim mastership (`NodeRecord.claims`), in the order of their keys.
-/
def claims (p : Plane) : List NodeRecord := p.nodes.values.filter (·.claims)

/-- The `Plane` of a list of records, filed by node id; of two for one node the later stays. The
master is that of the `leading` claim. -/
def ofRecords (rs : List NodeRecord) : Plane :=
  let nodes := SortedMap.ofList (rs.map fun r => (r.nodeId, r))
  { nodes, masterId := (NodeRecord.leading (nodes.values.filter (·.claims))).map (·.nodeId) }

/-- The record of the master that `masterId` names. -/
def master? (p : Plane) : Option NodeRecord := p.masterId.bind p.nodes.get?

/-- The `Ambiguity` of the `claims` of a plane, if there are several. -/
def ambiguity? (p : Plane) : Option Ambiguity := Ambiguity.ofClaims p.claims

/-- The records after a `PlaneDelta`: those listed are put in, then ids are taken out. -/
def changeNodes (nodes : SortedMap String NodeRecord) (d : PlaneDelta) :
    SortedMap String NodeRecord :=
  (nodes.insertAll (d.nodes.map fun r => (r.nodeId, r))).eraseAll d.removed

/-- The plane after a `PlaneDelta`, with its master named anew by `ofRecords`. -/
def apply (p : Plane) (d : PlaneDelta) : Plane := ofRecords (changeNodes p.nodes d).values

end Plane

/-! ## Election -/

/-- An `Election` is the outcome as one observer sees it. -/
structure Election where
  master : Option String
  ambiguity : Option Ambiguity
deriving DecidableEq, Repr, Inhabited

/-- `p.elect now timeout` elects a master among the nodes whose record has not expired and whose
state `isEligible`: the `leading` claim, or without a claim the first node in the order of keys. -/
def Plane.elect (p : Plane) (now : Timestamp) (timeout : Duration) : Election :=
  let live := p.nodes.values.filter fun r => !r.isExpired now timeout && r.state.isEligible
  let claims := live.filter (·.claims)
  { master := ((NodeRecord.leading claims).or live.head?).map (·.nodeId)
    ambiguity := Ambiguity.ofClaims claims }

end Failover
