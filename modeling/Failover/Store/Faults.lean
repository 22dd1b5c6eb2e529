import Failover.Store.Basic

/-! # Calls that go wrong

A faulty store answers as the store inside it does, except where a `Fault` decides: then it answers
with an error, or as if an object were missing, without asking. Before that, things may happen
elsewhere that a caller would see as the work of another thread; what they are is left to whoever
plans the fault.

Faults are tried in the order in which they were planned. One that is used up is passed over; one
that still lets calls through lets this one through to the next fault. -/

namespace Failover

namespace Store

/-- A `FaultyCall` is a sort of calls that can go wrong. -/
inductive FaultyCall where
  | createSubPath
  | list
  | openObject
  | get
  | put
  | delete
  /-- Any of the others. -/
  | any
deriving DecidableEq, Repr, Inhabited

/-- The path that a `Call` is about, if a call of this sort is meant. -/
def FaultyCall.path? : FaultyCall → Call → Option String
  | .createSubPath, .createSubPath p | .any, .createSubPath p => some p
  | .list, .list p | .any, .list p => some p
  | .openObject, .openObject p | .any, .openObject p => some p
  | .get, .get p | .any, .get p => some p
  | .put, .put p _ | .any, .put p _ => some p
  | .delete, .delete p | .any, .delete p => some p
  | _, _ => none

/-- A `FaultOutcome` is what a fault makes of a call. -/
inductive FaultOutcome where
  | fail (error : StoreError)
  /-- The path counts as invalid. -/
  | invalidPath
  /-- The object that is asked for counts as missing. -/
  | missing
  /-- Nothing goes wrong after all. -/
  | pass
deriving DecidableEq, Repr, Inhabited

/-- The answer that a fault gives in place of the store, if it gives one; `pass` does not. -/
def FaultOutcome.answer? (o : FaultOutcome) (c : Call) (path : String) :
    Option (Except StoreError c.Answer) :=
  match o with
  | .fail e => some (.error e)
  | .invalidPath => some (.error (.invalidPath path))
  | .missing =>
    match c with
    | .get _ => some (.ok none)
    | _ => none
  | .pass => none

/-- A `Fault` is a plan for calls that go wrong. What happens elsewhere meanwhile is a list of `ι`.
-/
structure Fault (ι : Type) where
  call : FaultyCall := .any
  /-- The path that a call has to be about. -/
  path : Option String := none
  /-- What the path that a call is about has to start with. -/
  start : Option String := none
  /-- How many calls are still let through. -/
  skip : Nat := 0
  /-- How many calls may still go wrong. -/
  times : Option Nat := none
  outcome : FaultOutcome := .fail (.io (.other "injected"))
  meanwhile : List ι := []
deriving DecidableEq, Inhabited

namespace Fault

variable {ι : Type}

/-- The path that a call is about, if the fault is for it (`FaultyCall.path?`). -/
def path? (f : Fault ι) (c : Call) : Option String :=
  (f.call.path? c).filter fun p =>
    f.path.all (· = p) && f.start.all fun s => s.toList.isPrefixOf p.toList

/-- Whether the fault is used up: its `times` have come down to zero. -/
def isSpent (f : Fault ι) : Bool := f.times = some 0

/-- The fault that decides a call, with the path of the call, and what is left of the faults. -/
def hit (c : Call) : List (Fault ι) → Option (Fault ι × String) × List (Fault ι)
  | [] => (none, [])
  | f :: fs =>
    match if f.isSpent then none else f.path? c with
    | none => let (d, fs) := hit c fs; (d, f :: fs)
    | some p =>
      if f.skip = 0 then (some (f, p), { f with times := f.times.map (· - 1) } :: fs)
      else let (d, fs) := hit c fs; (d, { f with skip := f.skip - 1 } :: fs)

end Fault

end Store

open Store

/-- `S.faulty` is the store `S` whose calls go wrong as planned. The plans are a part of the state,
and so is what the happenings of a fault change. -/
def ObjectStore.faulty {σ ι : Type} (S : ObjectStore σ) (plans : σ → List (Fault ι))
    (setPlans : σ → List (Fault ι) → σ) (happen : σ → ι → σ) : ObjectStore σ :=
  ⟨S.summary, fun c s =>
    let (hit, left) := Fault.hit c (plans s)
    -- The count goes down before anything else happens, as more calls may come meanwhile.
    let s := setPlans s left
    match hit with
    | none => S.step c s
    | some (f, p) =>
      let s := f.meanwhile.foldl happen s
      match f.outcome.answer? c p with
      | some r => (r, s)
      | none => S.step c s⟩

end Failover
