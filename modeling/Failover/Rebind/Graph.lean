import Failover.Rebind.Object

/-! # The graph of managed objects

The objects that are live on a node, by kind and id. Every edit yields the `Change` that is to be
reported of it; delivering the report is a step of its own. A graph that is read-only, the warm copy
of a standby, refuses edits. -/

namespace Failover

/-- A `GraphError` is why a graph refused an edit. -/
inductive GraphError where
  | readOnly
  | notManaged (r : ObjectRef)
deriving DecidableEq, Repr

/-- The text of a `GraphError`. -/
def GraphError.message : GraphError → String
  | .readOnly => "graph is read-only (hot standby copy)"
  | .notManaged r => r.text ++ " is not managed"

/-- A `Change` is what is reported of an edit. -/
inductive Change where
  | changed (r : ObjectRef)
  | removed (r : ObjectRef)
deriving DecidableEq, Repr

/-- The object that a `Change` is about. -/
def Change.ref : Change → ObjectRef
  | .changed r | .removed r => r

/-- A `ManagedGraph` has the live objects of a node. -/
structure ManagedGraph where
  objects : ByRef ManagedObject := .empty
  isReadOnly : Bool := false
deriving DecidableEq, Inhabited

/-- A `GraphEdit` is an edit of a graph. -/
inductive GraphEdit where
  /-- An object is taken into the graph, in place of one of the same kind and id. -/
  | manage (o : ManagedObject)
  | unmanage (r : ObjectRef)
  /-- An object of the graph has been changed in place. -/
  | mark (r : ObjectRef)
deriving DecidableEq

namespace ManagedGraph

/-- The graph after a `GraphEdit`, and the `Change` that is to be reported of it. -/
def edit (g : ManagedGraph) (e : GraphEdit) : Except GraphError (ManagedGraph × Change) :=
  if g.isReadOnly then .error .readOnly
  else match e with
    | .manage o => .ok ({ g with objects := g.objects.insert o.ref o }, .changed o.ref)
    | .unmanage r =>
      if g.objects.contains r then .ok ({ g with objects := g.objects.erase r }, .removed r)
      else .error (.notManaged r)
    | .mark r =>
      if g.objects.contains r then .ok (g, .changed r) else .error (.notManaged r)

/-- A graph of the objects `os`, each under its own kind and id; of two the later stays. -/
def ofObjects (os : List ManagedObject) (readOnly : Bool) : ManagedGraph :=
  ⟨os.foldl (fun objects o => objects.insert o.ref o) .empty, readOnly⟩

/-- The object that `r` refers to. -/
def get? (g : ManagedGraph) (r : ObjectRef) : Option ManagedObject := g.objects.get? r

/-- `setObject` puts an object back after it was changed in place; nothing is reported. -/
def setObject (g : ManagedGraph) (o : ManagedObject) : ManagedGraph :=
  { g with objects := g.objects.insert o.ref o }

/-- `editObject` changes an object in place (`ManagedObject.edit`); nothing is reported. -/
def editObject (g : ManagedGraph) (r : ObjectRef) (e : ManagedObject.Edit) : ManagedGraph :=
  match g.objects.get? r with
  | some o => g.setObject (o.edit e)
  | none => g

/-- The mementos of all objects, as a `Topology`. -/
def snapshot (g : ManagedGraph) : Topology :=
  Topology.ofMementos (g.objects.values.map (·.toMemento))

/-- `handle?` answers references with the objects of the graph. -/
def handle? (g : ManagedGraph) (r : ObjectRef) : Option Handle :=
  (g.objects.get? r).map fun o => .live o.identity

end ManagedGraph

end Failover
