import Failover.Node.Mastership

/-! # Nodes that share a store and a clock

A cluster is a set of nodes over one store and one clock. Each member acts in turn on its `Site`:
its own workspace, laid over what the members share. What it leaves behind there is what the next
one finds.

A member that rebuilds no objects may only pretend to; a `RebinderPlan` lets calls of its rebinder
go wrong before anything is done. -/

namespace Failover

/-- A `Rebinding` is how a member of a cluster takes over objects. -/
inductive Rebinding where
  /-- The member has no objects to take over. -/
  | absent
  /-- The member keeps count, and does nothing else. -/
  | pretended
  /-- The member rebuilds the objects of its `Workspace`. -/
  | real (registry : Registry) (mode : FailureMode)

/-- A `RebinderPlan` is what will go wrong with the calls of a rebinder. -/
structure RebinderPlan where
  /-- How many rebinds will not get through to the store. -/
  unreachable : Nat := 0
  /-- How the rebinds after them will fail, if they are to. -/
  rebindError : Option RebindError := none
  /-- Whether changes cannot be written back. -/
  refusesPersisting : Bool := false
deriving DecidableEq, Inhabited

/-- A `Site` is what a member of a cluster has around it. -/
structure Site (σ : Type) where
  workspace : Workspace σ
  clock : ManualClock
  plan : RebinderPlan := {}
  /-- Whether a member that only pretends says that it is writing back changes. -/
  pretendsToPersist : Bool := false
  /-- How often the objects were rebuilt to take over. -/
  rebinds : Nat := 0
  /-- How often the warm copy was rebuilt. -/
  refreshes : Nat := 0
  /-- How often a promotion was announced. -/
  promotions : Nat := 0

namespace Site

variable {σ τ ε α : Type}

/-- `inWorkspace x` does `x` on the `workspace` of a site. -/
def inWorkspace (x : Action (Workspace σ) ε α) : Action (Site σ) ε α :=
  x.focus (·.workspace) fun s workspace => { s with workspace }

/-- The error of a rebind that is to go wrong, if it is, and the `RebinderPlan` for those after it.
-/
def planned (p : RebinderPlan) : Option RebindError × RebinderPlan :=
  if 0 < p.unreachable then
    (some (.persistence (.timeout ⟨0⟩)), { p with unreachable := p.unreachable - 1 })
  else (p.rebindError, p)

/-- `rebind readOnly x` rebuilds objects as `x` does, unless it is `planned` that this goes wrong,
and counts. -/
def rebind (readOnly : Bool) (x : Action (Site σ) RebindError Unit) :
    Action (Site σ) RebindError Unit := do
  let (error?, plan) := planned (← get).plan
  modify fun s => { s with plan }
  if let some e := error? then throw e
  x
  modify fun s =>
    if readOnly then { s with refreshes := s.refreshes + 1 } else { s with rebinds := s.rebinds + 1 }

/-- `startPersisting x` starts writing back changes as `x` does, unless the plan
`refusesPersisting`. -/
def startPersisting (x : Action (Site σ) PersistenceError Unit) :
    Action (Site σ) PersistenceError Unit := do
  if (← get).plan.refusesPersisting then throw .stopped
  x

/-- The `Rebinder` of a member, over the store of its mementos. -/
def rebinder? (mementos : ObjectStore (Workspace σ)) : Rebinding → Option (Rebinder (Site σ))
  | .absent => none
  | .pretended => some
    { rebind := fun readOnly => rebind readOnly (pure ())
      startPersisting := startPersisting (modify fun s => { s with pretendsToPersist := true })
      stopPersisting := fun s => { s with pretendsToPersist := false } }
  | .real registry mode => some
    { rebind := fun readOnly => rebind readOnly do
        let _ ← inWorkspace (Workspace.rebind mementos registry mode readOnly)
      startPersisting := startPersisting (inWorkspace (Workspace.startPersisting mementos))
      stopPersisting := fun s => { s with workspace := s.workspace.stopPersisting } }

/-- The `Surroundings` of a member's node: its `Site`, over the stores of its mementos and records.
-/
def surroundings (mementos records : ObjectStore (Workspace σ)) (r : Rebinding) :
    Surroundings (Site σ) where
  now s := s.clock.now
  publish record := inWorkspace (Workspace.planeDelta records (.node record))
  loadPlane := inWorkspace (Workspace.loadPlane records)
  rebinder := rebinder? mementos r
  announce s := { s with promotions := s.promotions + 1 }

/-- Whether changes are being written back, or said to be. -/
def isPersisting (s : Site σ) : Bool := s.pretendsToPersist || s.workspace.isPersisting

/-- The same `Site` over another store and clock. -/
def withShared (s : Site σ) (store : τ) (clock : ManualClock) : Site τ :=
  { s with workspace := s.workspace.withStore store, clock }

end Site

/-- A `Member` of a cluster, over a store whose state is a `σ`. -/
structure Member (σ : Type) where
  node : Node
  rebinding : Rebinding
  site : Site σ

namespace Member

variable {σ : Type}

/-- The same `Member` after its node has done something. -/
def updated (m : Member σ) (n : Node) (s : Site σ) : Member σ := { m with node := n, site := s }

/-- `run x m` does `x` on the workspace of the member `m`. -/
def run {ε α : Type} (x : Action (Workspace σ) ε α) (m : Member σ) : Except ε α × Member σ :=
  let (r, site) := (Site.inWorkspace x).run m.site
  (r, { m with site })

variable (mementos records : ObjectStore (Workspace σ))

/-- The `Surroundings` of the member's node (`Site.surroundings`). -/
def surroundings (m : Member σ) : Surroundings (Site σ) :=
  Site.surroundings mementos records m.rebinding

/-- The member's node starts (`Node.start`). -/
def start (mode : StartMode) (m : Member σ) : Except NodeError Unit × Member σ :=
  let (r, n, s) := m.node.start (m.surroundings mementos records) mode m.site
  (r, m.updated n s)

/-- The member's node polls once (`Node.poll`). -/
def poll (m : Member σ) : Except NodeError NodeState × Member σ :=
  let (r, n, s) := m.node.poll (m.surroundings mementos records) m.site
  (r, m.updated n s)

/-- The member's node stops (`Node.stop`). -/
def stop (m : Member σ) : Unit × Member σ :=
  let (n, s) := m.node.stop (m.surroundings mementos records) m.site
  ((), m.updated n s)

end Member

/-- A `Cluster` is any number of nodes that share a store and a clock. -/
structure Cluster (σ : Type) where
  store : σ
  clock : ManualClock
  /-- The members, without what is shared. -/
  members : List (Member Unit)
  /-- The ids of the nodes in the order in which they started to poll. -/
  pollingOrder : List String := []

namespace Cluster

variable {σ α : Type}

/-- The `Member` whose node has the given id. -/
def member? (c : Cluster σ) (id : String) : Option (Member Unit) :=
  c.members.find? fun m => m.node.id = id

/-- `c.setMember m` puts `m` in the place of the member with the same id. -/
def setMember (c : Cluster σ) (m : Member Unit) : Cluster σ :=
  { c with members := c.members.map fun o => if o.node.id = m.node.id then m else o }

/-- `c.act id f` lets the member whose node is `id` act on what is shared. -/
def act (c : Cluster σ) (id : String) (f : Member σ → α × Member σ) : Option α × Cluster σ :=
  match c.member? id with
  | none => (none, c)
  | some m =>
    let (a, m) := f { m with site := m.site.withShared c.store c.clock }
    let c := { c with store := m.site.workspace.store, clock := m.site.clock }
    (some a, c.setMember { m with site := m.site.withShared () m.site.clock })

/-- The `Stores` as a member sees them, of its mementos and of the heartbeat records. -/
structure Stores (σ : Type) where
  mementos : ObjectStore σ
  records : ObjectStore σ

variable (stores : String → Stores σ)

/-- `c.start stores id mode` starts a node. One that polls from now on does so after those that
started before. -/
def start (c : Cluster σ) (id : String) (mode : StartMode) :
    Option (Except NodeError Unit) × Cluster σ :=
  let S := stores id
  let (r, c) := c.act id
    (Member.start (Workspace.faulty S.mementos) (Workspace.faulty S.records) mode)
  match r with
  | some (.ok ()) => (r, { c with pollingOrder := c.pollingOrder ++ [id] })
  | _ => (r, c)

/-- `c.poll stores id` lets a node poll once. -/
def poll (c : Cluster σ) (id : String) : Option (Except NodeError NodeState) × Cluster σ :=
  let S := stores id
  c.act id (Member.poll (Workspace.faulty S.mementos) (Workspace.faulty S.records))

/-- `c.stop stores id` stops a node. -/
def stop (c : Cluster σ) (id : String) : Cluster σ :=
  let S := stores id
  (c.act id (Member.stop (Workspace.faulty S.mementos) (Workspace.faulty S.records))).2

/-- Whether a node polls `period` by period. -/
def isPolling (c : Cluster σ) (id : String) : Bool :=
  ((c.member? id).map fun m => m.node.isPolling).getD false

/-- A `period` passes: time goes on, and then every node that polls does so, in `pollingOrder`. -/
def period (c : Cluster σ) (length : Duration) : Cluster σ :=
  let c := { c with clock := c.clock.advance length }
  c.pollingOrder.foldl (fun c id => if c.isPolling id then (c.poll stores id).2 else c) c

/-- `stopAll` stops all nodes, in the order of the members. -/
def stopAll (c : Cluster σ) : Cluster σ :=
  c.members.foldl (fun c m => c.stop stores m.node.id) c

end Cluster

end Failover
