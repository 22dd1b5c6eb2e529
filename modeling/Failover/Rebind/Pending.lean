import Failover.Rebind.Graph

/-! # Changes waiting to be written

A delta writer collects what is reported of a graph until it flushes. For each object the latest
report counts. A flush takes all that is pending and makes one delta of it; what a failed flush had
taken is put back, except where a newer report has come in meanwhile. -/

namespace Failover

/-- A `Pending` has the objects of which a change or a removal is waiting to be written. -/
structure Pending where
  changed : ByRef Unit := .empty
  removed : ByRef Unit := .empty
deriving DecidableEq, Inhabited

namespace Pending

/-- The `Pending` in which nothing is waiting. -/
def none : Pending := {}

/-- Whether nothing is waiting, neither a change nor a removal. -/
def isEmpty (p : Pending) : Bool := p.changed.isEmpty && p.removed.isEmpty

/-- `p.note c` takes note of the report `c`; it replaces an earlier one of the same object. -/
def note (p : Pending) : Change → Pending
  | .changed r => ⟨p.changed.insert r (), p.removed.erase r⟩
  | .removed r => ⟨p.changed.erase r, p.removed.insert r ()⟩

/-- `p.requeue failed` puts back what a failed flush had taken, except where something newer is
waiting. -/
def requeue (p failed : Pending) : Pending :=
  let changed := failed.changed.refs.foldl
    (fun changed r => if p.removed.contains r then changed else changed.insert r ()) p.changed
  let removed := failed.removed.refs.foldl
    (fun removed r => if changed.contains r then removed else removed.insert r ()) p.removed
  ⟨changed, removed⟩

/-- What is to be written of one changed object: its memento, or its removal if the graph no longer
has it. -/
def changeOf (g : ManagedGraph) (r : ObjectRef) : ObjectChange :=
  match g.get? r with
  | some o => .changed o.toMemento
  | .none => .removed r

/-- The `Delta` that brings a store up to date with a graph. -/
def delta (p : Pending) (g : ManagedGraph) : Delta :=
  .ofChanges (p.changed.refs.map (changeOf g) ++ p.removed.refs.map .removed)

end Pending

/-- A `DeltaWriter` collects what is reported to it until the next flush; stopping drops it. -/
structure DeltaWriter where
  isRunning : Bool := false
  pending : Pending := {}
deriving DecidableEq, Inhabited

namespace DeltaWriter

/-- The `DeltaWriter` that has just been started. -/
def started : DeltaWriter := { isRunning := true }

/-- `w.note c` has the report `c` among what is `pending`. -/
def note (w : DeltaWriter) (c : Change) : DeltaWriter := { w with pending := w.pending.note c }

/-- The writer after a flush has taken what is `pending`. -/
def taken (w : DeltaWriter) : DeltaWriter := { w with pending := .none }

/-- The writer after a flush failed (`Pending.requeue`); one that has been stopped meanwhile keeps
nothing. -/
def giveBack (w : DeltaWriter) (failed : Pending) : DeltaWriter :=
  if w.isRunning then { w with pending := w.pending.requeue failed } else w

end DeltaWriter

end Failover
