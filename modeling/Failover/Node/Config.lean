import Failover.Plane.Basic
import Failover.Rebind.Failure
import Failover.Rebind.Workspace
import Failover.Text.Blank

/-! # The configuration of a node

A node is configured by variables; each has a default. A configuration is valid if a heartbeat
cannot expire between two polls of a live node, and if no period is zero. -/

namespace Failover

/-- A `Setting` is a variable that configures a node. -/
inductive Setting where
  | home
  | nodeId
  | startMode
  | pollPeriod
  | heartbeatTimeout
  | persistPeriod
  | failureMode
deriving DecidableEq, Repr, Inhabited

/-- The name of the variable that a `Setting` is read from. -/
def Setting.name : Setting → String
  | .home => "KEELSON_HOME"
  | .nodeId => "KEELSON_NODE_ID"
  | .startMode => "KEELSON_HA_MODE"
  | .pollPeriod => "KEELSON_POLL_PERIOD_MS"
  | .heartbeatTimeout => "KEELSON_HEARTBEAT_TIMEOUT_MS"
  | .persistPeriod => "KEELSON_PERSIST_PERIOD_MS"
  | .failureMode => "KEELSON_REBIND_FAILURE_MODE"

/-- A `ConfigError` is why a configuration is not valid. -/
inductive ConfigError where
  | invalid (setting : Setting) (value : String)
  /-- A heartbeat could expire between two polls; both times are in milliseconds. -/
  | timeoutNotAbovePollPeriod (timeout poll : UInt64)
deriving DecidableEq, Repr

/-- The text of a `ConfigError`. -/
def ConfigError.message : ConfigError → String
  | .invalid setting value => setting.name ++ " is not valid: " ++ value
  | .timeoutNotAbovePollPeriod timeout poll =>
    "heartbeat timeout (" ++ Nat.repr timeout.toNat
      ++ "ms) must be longer than the poll period (" ++ Nat.repr poll.toNat ++ "ms)"

/-- A `NodeConfig` is the configuration of one management node. -/
structure NodeConfig where
  /-- The directory of durable state. -/
  home : String
  /-- The id of the node; without one it goes by a new id of `NodeConfig.newIdLength` characters. -/
  nodeId : Option String
  startMode : StartMode
  pollPeriod : Duration
  heartbeatTimeout : Duration
  persistPeriod : Duration
  failureMode : FailureMode
deriving DecidableEq, Repr

namespace NodeConfig

/-- How long an id is that a node without `nodeId` makes for itself. -/
def newIdLength : Nat := 26

/-- How often a node polls, unless `Setting.pollPeriod` is set. -/
def defaultPollPeriod : Duration := .ofSeconds 5 0

/-- How old a heartbeat may become, unless `Setting.heartbeatTimeout` is set. -/
def defaultHeartbeatTimeout : Duration := .ofSeconds 30 0

/-- `join dir name` is the path of `name` below the directory `dir`. -/
def join (dir name : String) : String :=
  if dir.isEmpty || dir.toList.getLast? = some '/' then dir ++ name else dir ++ "/" ++ name

/-- The value of a decimal number that fits an unsigned word of 64 bits (`UInt64.size`); a plus sign
may stand before it. -/
def word? (cs : List Char) : Option Nat :=
  let ds := match cs with
    | '+' :: ds => ds
    | ds => ds
  if ds.isEmpty || !ds.all Char.isDigit then none
  else
    let n := ds.foldl (fun n d => n * 10 + (d.toNat - '0'.toNat)) 0
    if n < UInt64.size then some n else none

/-- The span given in milliseconds by `word?`, with blanks around it allowed, or the `default`. -/
def millis (value? : Option String) (setting : Setting) (default : Duration) :
    Except ConfigError Duration :=
  match value? with
  | none => .ok default
  | some value =>
    match word? (Text.trimmed value) with
    | some n => .ok (.ofMillis n)
    | none => .error (.invalid setting value)

/-- One of several alternatives, given by a name that `ofName?` knows, or the `default`. -/
def choice {α : Type} (value? : Option String) (setting : Setting) (ofName? : String → Option α)
    (default : α) : Except ConfigError α :=
  match value? with
  | none => .ok default
  | some value =>
    match ofName? value with
    | some a => .ok a
    | none => .error (.invalid setting value)

/-- `validate` checks that `heartbeatTimeout` is longer than `pollPeriod` and that no period is
zero. -/
def validate (c : NodeConfig) : Except ConfigError Unit :=
  if c.heartbeatTimeout.nanos ≤ c.pollPeriod.nanos then
    .error (.timeoutNotAbovePollPeriod (.ofNat c.heartbeatTimeout.millis)
      (.ofNat c.pollPeriod.millis))
  else if c.pollPeriod.nanos = 0 then .error (.invalid .pollPeriod "0")
  else if c.persistPeriod.nanos = 0 then .error (.invalid .persistPeriod "0")
  else .ok ()

/-- The directory of durable state: as `Setting.home` says, or one of its own in the user's home
directory. -/
def homeOf (vars : String → Option String) : String :=
  (vars Setting.home.name).getD (join ((vars "HOME").getD "/tmp") ".keelson")

/-- The `NodeConfig` that variables give, if they are well-formed and it passes `validate`. -/
def ofVariables (vars : String → Option String) : Except ConfigError NodeConfig := do
  let value? := fun (s : Setting) => vars s.name
  let startMode ← choice (value? .startMode) .startMode StartMode.ofName? .auto
  let pollPeriod ← millis (value? .pollPeriod) .pollPeriod defaultPollPeriod
  let heartbeatTimeout ←
    millis (value? .heartbeatTimeout) .heartbeatTimeout defaultHeartbeatTimeout
  let persistPeriod ←
    millis (value? .persistPeriod) .persistPeriod Workspace.defaultPersistPeriod
  let failureMode ← choice (value? .failureMode) .failureMode FailureMode.ofName? .failAtEnd
  let config : NodeConfig :=
    { home := homeOf vars, nodeId := value? .nodeId, startMode, pollPeriod, heartbeatTimeout,
      persistPeriod, failureMode }
  config.validate
  return config

/-- The `NodeConfig` that the environment of a process gives: `ofVariables`, where an empty variable
counts as not set. -/
def ofEnvironment (vars : String → Option String) : Except ConfigError NodeConfig :=
  ofVariables fun name => (vars name).filter fun value => !value.isEmpty

end NodeConfig

end Failover
