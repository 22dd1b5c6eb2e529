import Failover.Node.Basic

/-! # Becoming and staying master

A node polls: it stores its heartbeat, reads those of the others and holds the election on what it
read. One that is elected is promoted; a master that is not elected is demoted. The order matters. A
node rebuilds its objects and writes back their changes before it claims mastership, and it stops
writing before it gives up the claim (`promote`, `demote`). A master that has not been able to store
its heartbeat and read the others for longer than the heartbeat timeout gives up by itself
(`checkSync`).

`start` joins the plane, `poll` is one round, and `stop` leaves. -/

namespace Failover.Node

variable {ω : Type} (env : Surroundings ω)

/-! ## Changes of state -/

/-- `stayStandby` gives up a promotion that may be tried again: a node that has just joined is a
`standby` now. -/
def stayStandby (n : Node) (now : Timestamp) (w : ω) : Node × ω :=
  if n.state = .initializing then
    let n := { n with state := .standby }
    (n, env.tell (n.record now) w)
  else (n, w)

/-- `promote` makes a node master, if `takeOver` succeeds. Only then is the claim published and
announced. -/
def promote (n : Node) (now : Timestamp) (w : ω) : Except NodeError Unit × Node × ω :=
  match env.takeOver w with
  | (.ok (), w) =>
    let n := { n.asMaster now with lastSync := some now }
    (.ok (), n, env.announce (env.tell (n.record now) w))
  | (.error e, w) =>
    if e.isFinal then
      let n := n.asFailed
      (.error e, n, env.tell (n.record now) w)
    else (.error e, n.stayStandby env now w)

/-- `demote` makes a master a `standby`; it stops persisting before it gives up its claim. -/
def demote (n : Node) (now : Timestamp) (w : ω) : Node × ω :=
  let w := env.stopPersisting w
  let n := n.asStandby
  (n, env.tell (n.record now) w)

/-- `checkSync` makes a master that `hasLostSync` a `standby`. -/
def checkSync (n : Node) (now : Timestamp) (w : ω) : Node × ω :=
  if n.state = .master && n.hasLostSync now then (n.asStandby, env.stopPersisting w) else (n, w)

/-! ## Polling -/

/-- `settle` acts on the outcome of an election. -/
def settle (n : Node) (now : Timestamp) (isElected : Bool) (w : ω) : Node × ω :=
  match n.state with
  | .master => if isElected then (n, w) else n.demote env now w
  | .failed | .terminated => (n, w)
  | .initializing | .standby =>
    if isElected then (n.promote env now w).2
    else
      let (n, w) := n.stayStandby env now w
      (n, if n.mode = some .hotStandby then env.refresh w else w)

/-- One `round`: stores the heartbeat, reads the others and acts on the election by `settle`. -/
def round (n : Node) (w : ω) : Node × ω :=
  let now := env.now w
  let own := n.record now
  let (published, w) := (env.publish own).run w
  let (loaded, w) := env.loadPlane.run w
  match published, loaded with
  | .ok (), .ok plane =>
    -- Somebody else may have replaced the record just stored.
    let plane := plane.apply (.node own)
    let isElected : Bool := (plane.elect now n.timeout).master = some n.id
    let (n, w) := { n with lastSync := some now }.settle env now isElected w
    (n.observe now (some plane), w)
  -- Without a complete sync there is no election.
  | _, _ =>
    let (n, w) := n.checkSync env now w
    (n.observe now none, w)

/-- A `poll` is one `round` on demand: the state of the node afterwards. -/
def poll (n : Node) (w : ω) : Except NodeError NodeState × Node × ω :=
  match n.mode with
  | none => (.error .notStarted, n, w)
  | some mode =>
    if n.state = .terminated then (.error .stopped, n, w)
    else if mode = .disabled then (.ok n.state, n, w)
    else
      let (n, w) := n.round env w
      (.ok n.state, n, w)

/-! ## Joining -/

/-- `acceptMaster` lets a node in that is to take over at once, if `otherMaster?` finds no other
master. -/
def acceptMaster (n : Node) (w : ω) : Except NodeError Unit × Node × ω :=
  match env.loadPlane.run w with
  | (.error e, w) => (.error (.persistence e), n, w)
  | (.ok plane, w) =>
    match n.otherMaster? plane (env.now w) with
    | some id => (.error (.masterAlreadyPresent id), n, w)
    | none =>
      -- From here on the node counts as started, even if the promotion fails.
      let n := { n with mode := some .master }
      let now := env.now w
      match n.promote env now w with
      | (.error e, n, w) => (.error e, n, w)
      | (.ok (), n, w) => (.ok (), n.observe now (some plane), w)

/-- `acceptStandby` lets a node in that is to wait, if `otherMaster?` finds a master to wait for. -/
def acceptStandby (n : Node) (mode : StartMode) (w : ω) : Except NodeError Unit × Node × ω :=
  match env.loadPlane.run w with
  | (.error e, w) => (.error (.persistence e), n, w)
  | (.ok plane, w) =>
    match n.otherMaster? plane (env.now w) with
    | none => (.error .noMasterPresent, n, w)
    | some _ => (.ok (), { n with mode := some mode }, w)

/-- `accept` lets a node in that has not started before. Only then does it have a `mode`. -/
def accept (n : Node) (mode : StartMode) (w : ω) : Except NodeError Unit × Node × ω :=
  if n.mode.isSome then (.error .alreadyStarted, n, w)
  else match mode with
    | .disabled | .auto => (.ok (), { n with mode := some mode }, w)
    | .master => n.acceptMaster env w
    | .standby | .hotStandby => n.acceptStandby env mode w

/-- `startDisabled` makes a node master without an election. -/
def startDisabled (n : Node) (w : ω) : Except NodeError Unit × Node × ω :=
  let now := env.now w
  match env.takeOver w with
  | (.ok (), w) => (.ok (), (n.asMaster now).observe now none, env.announce w)
  | (.error e, w) =>
    (.error e, if e.isFinal then { n with state := .failed }.observe now none else n, w)

/-- `join` is the first `round` of a node that was let in; from then on it polls, unless it has been
told to stop already. -/
def join (n : Node) (w : ω) : Except NodeError Unit × Node × ω :=
  let (n, w) := n.round env w
  (.ok (), { n with isPolling := !n.isStopping }, w)

/-- `start` joins the plane: `accept` lets the node in, and `startDisabled` makes it master or
`join` holds its first round. -/
def start (n : Node) (mode : StartMode) (w : ω) : Except NodeError Unit × Node × ω :=
  match n.accept env mode w with
  | (.error e, n, w) => (.error e, n, w)
  | (.ok (), n, w) => if mode = .disabled then n.startDisabled env w else n.join env w

/-! ## Leaving -/

/-- `stop` leaves the plane: the last record lets others take over at once. -/
def stop (n : Node) (w : ω) : Node × ω :=
  let n := { n with isStopping := true, isPolling := false }
  if n.mode.isNone || n.state = .terminated then (n, w)
  else
    -- Nothing is written any more by the time others are told.
    let w := env.stopPersisting w
    let now := env.now w
    let n := { n with state := .terminated, masterSince := none }
    let w := if n.mode = some .disabled then w else env.tell (n.record now) w
    (n.observe now none, w)

end Failover.Node
