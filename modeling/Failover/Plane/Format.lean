import Failover.Json.Record
import Failover.Plane.Basic

/-! # The stored form of node records and planes -/

namespace Failover

/-- The `label` of a state as an alternative. -/
def NodeState.codec : Codec NodeState := .enum (all.map fun s => (s.label, s)) label

/-- The `label` of a mode as an alternative. -/
def StartMode.codec : Codec StartMode := .enum (all.map fun m => (m.label, m)) label

/-- The stored form of a `NodeRecord`; its last two members may be missing. -/
def NodeRecord.codec : Codec NodeRecord :=
  Schema.codec
    (.cons (.required "node_id" .string)
      (.cons (.required "state" NodeState.codec)
        (.cons (.required "timestamp_utc" .int64)
          (.cons (.required "platform_version" .string)
            (.cons (.optional "uri" .string)
              (.cons (.optional "master_since_utc" .int64) .nil))))))
    "ManagementNodeRecord"
    (fun r => (r.nodeId, r.state, r.timestamp, r.version, r.uri, r.masterSince, ()))
    (fun (nodeId, state, timestamp, version, uri, masterSince, ()) =>
      { nodeId, state, timestamp, version, uri, masterSince })

/-- The stored form of a `Plane`. -/
def Plane.codec : Codec Plane :=
  Schema.codec
    (.cons (.required "nodes" (.map NodeRecord.codec))
      (.cons (.nullable "master_node_id" .string) .nil))
    "PlaneSyncRecord"
    (fun p => (p.nodes, p.masterId, ()))
    (fun (nodes, masterId, ()) => { nodes, masterId })

/-- The stored form of a `PlaneDelta`. -/
def PlaneDelta.codec : Codec PlaneDelta :=
  Schema.codec
    (.cons (.required "nodes" (.list NodeRecord.codec))
      (.cons (.required "removed_node_ids" (.list .string)) .nil))
    "SyncRecordDelta"
    (fun d => (d.nodes, d.removed, ()))
    (fun (nodes, removed, ()) => { nodes, removed })

end Failover
