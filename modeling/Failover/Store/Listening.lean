import Failover.Store.Accessor

/-! # Counting the traffic of a store

A listening store answers as the store inside it does and notes every transfer: the bytes of texts
and paths that go out, the bytes of texts and names that come in, and how many transfers of each
kind there were. Outgoing transfers count whether the call succeeds or not, incoming ones only when
it does. The accessors that it hands out do the same. -/

namespace Failover

/-- A `Traffic` has the totals of the transfers so far; they wrap around at 64 bits. -/
structure Traffic where
  bytesIn : UInt64 := 0
  bytesOut : UInt64 := 0
  queriesOut : UInt64 := 0
  dataOut : UInt64 := 0
  dataIn : UInt64 := 0
deriving DecidableEq, Repr, Inhabited

namespace Traffic

open Store

/-- One more question of `size` bytes, among `queriesOut`. -/
def queryOut (t : Traffic) (size : Nat) : Traffic :=
  { t with bytesOut := t.bytesOut + .ofNat size, queriesOut := t.queriesOut + 1 }

/-- One more text of `size` bytes sent, among `dataOut`. -/
def sent (t : Traffic) (size : Nat) : Traffic :=
  { t with bytesOut := t.bytesOut + .ofNat size, dataOut := t.dataOut + 1 }

/-- One more text of `size` bytes received, among `dataIn`. -/
def received (t : Traffic) (size : Nat) : Traffic :=
  { t with bytesIn := t.bytesIn + .ofNat size, dataIn := t.dataIn + 1 }

/-- What a `Call` sends, before it is answered. -/
def before (t : Traffic) : Call → Traffic
  | .createSubPath p | .list p | .get p | .delete p | .contains p | .lastModified p =>
    t.queryOut p.utf8ByteSize
  | .put _ s | .append _ s => t.sent s.utf8ByteSize
  | .deleteAll => t.sent 0
  | .prepare _ | .close | .openObject _ => t

/-- What a `Call` that succeeds brings in. -/
def after (t : Traffic) : (c : Call) → c.Answer → Traffic
  | .list _, names => t.received (names.foldl (fun n name => n + name.utf8ByteSize) 0)
  | .get _, contents => t.received ((contents.map (·.utf8ByteSize)).getD 0)
  | _, _ => t

/-- The totals after a `Call` and its outcome: `before`, and `after` if it succeeds. -/
def note (t : Traffic) (c : Call) (r : Except StoreError c.Answer) : Traffic :=
  match r with
  | .ok a => (t.before c).after c a
  | .error _ => t.before c

end Traffic

namespace ObjectStore

/-- The `ObjectStore` that notes its `Traffic` in the second part of the state. -/
def listening {σ : Type} (S : ObjectStore σ) : ObjectStore (σ × Traffic) :=
  ⟨"listening " ++ S.summary, fun c (s, t) =>
    let (r, s) := S.step c s
    (r, (s, t.note c r))⟩

end ObjectStore

/-- The `Accessor` that notes its `Traffic`. -/
def Accessor.listening {σ : Type} (A : Accessor σ) : Accessor (σ × Traffic) :=
  ⟨A.path, fun a (s, t) =>
    let (r, s) := A.step a s
    (r, (s, t.note (a.on A.path) r))⟩

/-- The `Storage` that notes its `Traffic`, and that of the accessors that it hands out. -/
def Storage.listening {σ : Type} (S : Storage σ) : Storage (σ × Traffic) :=
  ⟨S.store.listening, fun path (s, t) =>
    let (r, s) := S.openObject path s
    (r.map Accessor.listening, (s, t))⟩

end Failover
