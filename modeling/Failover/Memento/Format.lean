import Failover.Memento.Basic

/-! # The stored form of mementos

Mementos are stored as JSON objects. `Memento.codec` and the codecs of its parts fix the names and
order of the members; config, attributes and relations may be missing when read. A stored text also
reads as a `ManifestEntry`, which looks at the id and the type only. -/

namespace Failover

namespace Value

/-- The names of the alternatives of a `Value`. -/
def names : List String := ["plain", "entity_ref", "location_ref", "list"]

mutual

/-- A `Value` as an object with the name of its alternative as the one key. -/
def write : Value → Json
  | .plain p => .object [("plain", p.json)]
  | .entityRef id => .object [("entity_ref", .string id)]
  | .locationRef id => .object [("location_ref", .string id)]
  | .list items => .object [("list", .array (writeItems items))]

/-- The items of a list of `Value`s, each as `write` has it. -/
def writeItems : List Value → List Json
  | [] => []
  | v :: vs => v.write :: writeItems vs

end

/-- A bare name where a `Value` should be is an error. -/
def readBare (_ : String) : Except ReadError Value :=
  .error (.invalidType .unitVariant "newtype variant")

/-- `readLeaf` reads what belongs to the name of an alternative other than `list`. -/
def readLeaf (depth : Nat) (name : String) (s : Scan) : Except ReadError Value :=
  match name with
  | "plain" => (Codec.plain.read depth s).map .plain
  | "entity_ref" => (Scan.readString depth s).map .entityRef
  | "location_ref" => (Scan.readString depth s).map .locationRef
  | _ => .error .malformed

mutual

/-- `Value.read` reads an object with the name of its alternative as the one key. -/
def read : Nat → Scan → Except ReadError Value
  -- The alternative that holds values again; the others are leaves.
  | depth, .object ((some "list", s) :: rest) closed => do
    let depth ← Scan.descend depth
    let items ← readList depth s
    if rest.isEmpty && closed then return .list items else throw .malformed
  | depth, s => Scan.readVariant names readBare readLeaf depth s

/-- `readList` reads the array of a `list`. -/
def readList : Nat → Scan → Except ReadError (List Value)
  | depth, .array items closed => do
    let depth ← Scan.descend depth
    let vs ← readItems depth items
    if closed then return vs else throw .malformed
  | _, s => .error (s.mismatch "a sequence")

/-- `readItems` reads the items of a `list` in turn. -/
def readItems (depth : Nat) : List Scan → Except ReadError (List Value)
  | [] => .ok []
  | s :: ss => do
    let v ← read depth s
    let vs ← readItems depth ss
    return v :: vs

end

/-- The stored form of a `Value`. -/
def codec : Codec Value := ⟨write, read⟩

end Value

/-- The stored form of `Relations`; every member may be missing. -/
def Relations.codec : Codec Relations :=
  Schema.codec
    (.cons (.optional "parent_id" .string)
      (.cons (.default "child_ids" (.list .string) [])
        (.cons (.default "location_ids" (.list .string) [])
          (.cons (.default "tag_ids" (.list .string) [])
            (.cons (.default "policy_ids" (.list .string) []) .nil)))))
    "Relations"
    (fun r => (r.parent, r.children, r.locations, r.tags, r.policies, ()))
    (fun (parent, children, locations, tags, policies, ()) =>
      { parent, children, locations, tags, policies })

/-- The stored form of a `Memento`; `config`, `attributes` and `relations` may be missing. -/
def Memento.codec : Codec Memento :=
  Schema.codec
    (.cons (.required "id" .string)
      (.cons (.required "kind" Kind.codec)
        (.cons (.required "type" .string)
          (.cons (.required "display_name" .string)
            (.cons (.default "config" (.map Value.codec) .empty)
              (.cons (.default "attributes" (.map Value.codec) .empty)
                (.cons (.default "relations" Relations.codec {}) .nil)))))))
    "Memento"
    (fun m => (m.id, m.kind, m.objectType, m.displayName, m.config, m.attributes, m.relations, ()))
    (fun (id, kind, objectType, displayName, config, attributes, relations, ()) =>
      { id, kind, objectType, displayName, config, attributes, relations })

/-- The part of a stored `Memento` that the manifest needs; all other members are skipped. -/
def ManifestEntry.codec : Codec ManifestEntry :=
  Schema.codec
    (.cons (.required "id" .string) (.cons (.required "type" .string) .nil))
    "ManifestEntry"
    (fun e => (e.id, e.objectType, ()))
    (fun (id, objectType, ()) => { id, objectType })

/-- `ManifestEntry.ofText` reads the id and type of a stored memento. -/
def ManifestEntry.ofText (s : String) : Except ReadError ManifestEntry := codec.ofText s

end Failover
