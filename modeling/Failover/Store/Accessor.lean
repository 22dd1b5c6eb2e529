import Failover.Store.Basic

/-! # Accessors

To open an object is to be handed an accessor, through which the object is then read and written. An
accessor stays usable whatever else is done with the store, also after the store was closed, and
accessors that were opened for one path may answer differently. A `Storage` is a store with the
accessors that it hands out; a client makes a `Request` at a time, and keeps every accessor that it
is handed. -/

namespace Failover

namespace Store

/-- An `Access` is what can be asked of an accessor. -/
inductive Access where
  | get
  | put (contents : String)
  | append (contents : String)
  | delete
  | contains
  | lastModified
deriving DecidableEq, Repr, Inhabited

/-- The `Call` that an `Access` makes on the object of a path. -/
def Access.on (path : String) : Access → Call
  | .get => .get path
  | .put contents => .put path contents
  | .append contents => .append path contents
  | .delete => .delete path
  | .contains => .contains path
  | .lastModified => .lastModified path

/-- A `Request` is what a client of a store does. -/
inductive Request where
  /-- Makes a call on the store itself. -/
  | call (c : Call)
  /-- Opens an object and keeps the accessor. -/
  | hold (path : String)
  /-- Asks one of the accessors that it has kept, counted in the order in which they came. -/
  | ask (held : Nat) (a : Access)
deriving DecidableEq, Repr, Inhabited

/-- A `Reply` is a `Call` with its outcome. -/
abbrev Reply := (c : Call) × Except StoreError c.Answer

end Store

open Store

/-- An `Accessor` has the path that it goes by, and what it answers. -/
structure Accessor (σ : Type) where
  path : String
  step : (a : Access) → σ → Except StoreError (a.on path).Answer × σ

/-- A `Storage` is a store with the accessors that it hands out. -/
structure Storage (σ : Type) where
  /-- What answers the calls on the store itself. -/
  store : ObjectStore σ
  /-- Opens the object of a path. -/
  openObject : String → σ → Except StoreError (Accessor σ) × σ

/-- A `Session` is a client with the accessors that it holds, and the state of the store. -/
structure Session (σ : Type) where
  held : List (Accessor σ)
  state : σ

namespace Storage

variable {σ : Type}

/-- The `Reply` to a `Request`, and what is then held and stored. An accessor that was never handed
out does not reply. -/
def request (S : Storage σ) (q : Request) (u : Session σ) : Option Reply × Session σ :=
  match q with
  | .call c =>
    let (r, s) := S.store.step c u.state
    (some ⟨c, r⟩, { u with state := s })
  | .hold path =>
    match S.openObject path u.state with
    | (.ok A, s) => (some ⟨.openObject path, .ok ()⟩, ⟨u.held ++ [A], s⟩)
    | (.error e, s) => (some ⟨.openObject path, .error e⟩, { u with state := s })
  | .ask i a =>
    match u.held[i]? with
    | some A =>
      let (r, s) := A.step a u.state
      (some ⟨a.on A.path, r⟩, { u with state := s })
    | none => (none, u)

/-- The replies to a sequence of requests, made in turn (`request`). -/
def run (S : Storage σ) : List Request → Session σ → List Reply × Session σ
  | [], u => ([], u)
  | q :: qs, u =>
    let (r, u) := S.request q u
    let (rs, u) := S.run qs u
    (r.toList ++ rs, u)

end Storage

namespace ObjectStore

variable {σ : Type} (S : ObjectStore σ)

/-- The `Accessor` of a path through which the store itself is asked. -/
def accessor (path : String) : Accessor σ := ⟨path, fun a => S.step (a.on path)⟩

/-- The `Storage` of a store, with its own accessors (`accessor`). -/
def storage : Storage σ :=
  ⟨S, fun path s =>
    let (r, s) := S.step (.openObject path) s
    (r.map fun _ => S.accessor path, s)⟩

end ObjectStore

end Failover
