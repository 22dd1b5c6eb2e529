import Failover.Memento.Format
import Failover.Topology.Basic

/-! # The stored form of topologies and deltas

All members have to be there; the objects of a topology are filed under their ids. -/

namespace Failover

/-- The stored form of a `Topology`. -/
def Topology.codec : Codec Topology :=
  Schema.codec
    (.cons (.required "platform_version" .string)
      (.cons (.required "entities" (.map Memento.codec))
        (.cons (.required "locations" (.map Memento.codec))
          (.cons (.required "policies" (.map Memento.codec)) .nil))))
    "TopologyMemento"
    (fun t => (t.version, t.objects.entities, t.objects.locations, t.objects.policies, ()))
    (fun (version, entities, locations, policies, ()) =>
      { version, objects := { entities, locations, policies } })

/-- The stored form of a `Delta`. -/
def Delta.codec : Codec Delta :=
  Schema.codec
    (.cons (.required "changed_entities" (.list Memento.codec))
      (.cons (.required "changed_locations" (.list Memento.codec))
        (.cons (.required "changed_policies" (.list Memento.codec))
          (.cons (.required "removed_entity_ids" (.list .string))
            (.cons (.required "removed_location_ids" (.list .string))
              (.cons (.required "removed_policy_ids" (.list .string)) .nil))))))
    "Delta"
    (fun d => (d.changed.entities, d.changed.locations, d.changed.policies, d.removed.entities,
      d.removed.locations, d.removed.policies, ()))
    (fun (ce, cl, cp, re, rl, rp, ()) => { changed := ⟨ce, cl, cp⟩, removed := ⟨re, rl, rp⟩ })

end Failover
