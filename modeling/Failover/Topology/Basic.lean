import Failover.Memento.Basic

/-! # Topologies

A `Topology` is the durable state of one management plane: the mementos of all its objects, filed by
kind and id. A `Delta` lists mementos to put in and ids to take out, kind by kind; `Topology.fold`
folds it in.

`DeltaBuilder` makes a delta of a sequence of calls in which the last call for an object wins. It
keeps two maps, of the objects that were called changed and of those that were called removed; a
call files its object in one of them and strikes it from the other. `DeltaBuilder.build` lists what
the maps hold, and `Delta.ofChanges` is the delta of a whole sequence of calls. -/

namespace Failover

/-- The version that is written into every `Topology` and `NodeRecord`. -/
def platformVersion : String := "0.1.0"

/-- A `Topology` is the mementos of all objects of a management plane. -/
structure Topology where
  version : String := platformVersion
  objects : ByRef Memento := .empty
deriving DecidableEq, Inhabited

namespace Topology

/-- `file objects m` has the memento `m` filed under its own kind and id. -/
def file (objects : ByRef Memento) (m : Memento) : ByRef Memento := objects.insert m.ref m

/-- The `Topology` of a list of mementos; of two for one object the later stays. -/
def ofMementos (ms : List Memento) (version : String := platformVersion) : Topology :=
  ⟨version, ms.foldl file .empty⟩

/-- The memento of the object that `r` refers to. -/
def get? (t : Topology) (r : ObjectRef) : Option Memento := t.objects.get? r

/-- All mementos: entities, then locations, then policies (`Kind.all`). -/
def mementos (t : Topology) : List Memento := t.objects.values

/-- How many objects a `Topology` has. -/
def size (t : Topology) : Nat := t.objects.size

/-- Whether a `Topology` has no objects. -/
def isEmpty (t : Topology) : Bool := t.objects.isEmpty

/-- The ids of the objects of a kind that have no `parent`. -/
def roots (t : Topology) (k : Kind) : List String :=
  ((t.objects.get k).values.filter (·.relations.parent.isNone)).map (·.id)

end Topology

/-- A `Delta` is a change to a topology: mementos to put in and ids to take out, listed by kind. -/
structure Delta where
  changed : PerKind (List Memento) := .const []
  removed : PerKind (List String) := .const []
deriving DecidableEq, Inhabited

namespace Delta

/-- Whether a `Delta` lists nothing. -/
def isEmpty (d : Delta) : Bool :=
  Kind.all.all fun k => (d.changed.get k).isEmpty && (d.removed.get k).isEmpty

/-- How many changes a `Delta` lists for a kind. -/
def count (d : Delta) (k : Kind) : Nat := (d.changed.get k).length + (d.removed.get k).length

/-- How many changes a `Delta` lists. -/
def size (d : Delta) : Nat := d.count .entity + d.count .location + d.count .policy

end Delta

namespace Topology

/-- The objects of one kind after a change: mementos are put in under their ids, then ids are taken
out. -/
def foldKind (objects : SortedMap String Memento) (changed : List Memento) (removed : List String) :
    SortedMap String Memento :=
  (objects.insertAll (changed.map fun m => (m.id, m))).eraseAll removed

/-- `t.fold d` is the topology `t` with `d` folded in. A memento goes to the kind in whose list it
stands (`foldKind`). -/
def fold (t : Topology) (d : Delta) : Topology :=
  { t with objects := .ofFn fun k => foldKind (t.objects.get k) (d.changed.get k) (d.removed.get k) }

end Topology

/-- An `ObjectChange` is a change to one object. -/
inductive ObjectChange where
  | changed (m : Memento)
  | removed (r : ObjectRef)
deriving DecidableEq, Inhabited

namespace ObjectChange

/-- The object that changes. -/
def ref : ObjectChange → ObjectRef
  | .changed m => m.ref
  | .removed r => r

/-- The memento of the object afterwards, if it is still there; `removed` leaves none. -/
def memento? : ObjectChange → Option Memento
  | .changed m => some m
  | .removed _ => none

end ObjectChange

namespace Delta

/-- `d.listChanged k m` has one more memento at the end of the list of the kind `k`. -/
def listChanged (d : Delta) (k : Kind) (m : Memento) : Delta :=
  { d with changed := d.changed.modify k (· ++ [m]) }

/-- `d.listRemoved k id` has one more id to take out at the end of the list of the kind `k`. -/
def listRemoved (d : Delta) (k : Kind) (id : String) : Delta :=
  { d with removed := d.removed.modify k (· ++ [id]) }

end Delta

/-- A `DeltaBuilder` is a delta in the making: the mementos of the objects to put in, and the
objects to take out. -/
structure DeltaBuilder where
  changed : ByRef Memento := .empty
  removed : ByRef Unit := .empty
deriving DecidableEq, Inhabited

namespace DeltaBuilder

/-- `b.call c` files the object of `c` in one map and strikes it from the other, so that an earlier
call of the other sort for the same object is cancelled. -/
def call (b : DeltaBuilder) : ObjectChange → DeltaBuilder
  | .changed m => { changed := b.changed.insert m.ref m, removed := b.removed.erase m.ref }
  | .removed r => { changed := b.changed.erase r, removed := b.removed.insert r () }

/-- `b.callAll cs` makes the calls `cs` in turn. -/
def callAll (b : DeltaBuilder) (cs : List ObjectChange) : DeltaBuilder := cs.foldl call b

/-- `b.build` lists both maps in the order of kinds and then of ids; each of their entries goes to
the list of the kind under which it was filed. -/
def build (b : DeltaBuilder) : Delta :=
  let d := b.changed.toList.foldl (fun d e => d.listChanged e.1.kind e.2) {}
  b.removed.refs.foldl (fun d r => d.listRemoved r.kind r.id) d

end DeltaBuilder

/-- `ofChanges cs` is the delta that a new `DeltaBuilder` makes of the calls `cs`. -/
def Delta.ofChanges (cs : List ObjectChange) : Delta := (DeltaBuilder.callAll {} cs).build

end Failover
