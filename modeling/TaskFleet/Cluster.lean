import TaskFleet.Identifier
import TaskFleet.Json.Codec
import TaskFleet.Resource

/-!
# What the cluster reports

Nodes and their health, containers and how they ended, and the words exchanged when an
application registers and unregisters.
-/

namespace TaskFleet

/-- The health of a node. -/
inductive NodeState where
  | new
  | running
  | unhealthy
  | decommissioned
  | lost
  | rebooted
deriving DecidableEq, Repr, Inhabited

namespace NodeState

/-- Every state of a node. -/
def all : List NodeState := [new, running, unhealthy, decommissioned, lost, rebooted]

/-- The word for a state. -/
def name : NodeState → String
  | new => "new"
  | running => "running"
  | unhealthy => "unhealthy"
  | decommissioned => "decommissioned"
  | lost => "lost"
  | rebooted => "rebooted"

end NodeState

/-- How far a container has come. -/
inductive ContainerState where
  | new
  | running
  | complete
deriving DecidableEq, Repr, Inhabited

namespace ContainerState

/-- Every state of a container. -/
def all : List ContainerState := [new, running, complete]

/-- The word for a state. -/
def name : ContainerState → String
  | new => "new"
  | running => "running"
  | complete => "complete"

end ContainerState

/-- How an application ended. -/
inductive FinalStatus where
  | undefined
  | succeeded
  | failed
  | killed
deriving DecidableEq, Repr, Inhabited

namespace FinalStatus

/-- Every final status. -/
def all : List FinalStatus := [undefined, succeeded, failed, killed]

/-- The word for a status. -/
def name : FinalStatus → String
  | undefined => "undefined"
  | succeeded => "succeeded"
  | failed => "failed"
  | killed => "killed"

end FinalStatus

/-- What an access list grants. -/
inductive AccessType where
  | viewApp
  | modifyApp
deriving DecidableEq, Repr, Inhabited

namespace AccessType

/-- Every kind of access. -/
def all : List AccessType := [viewApp, modifyApp]

/-- The word for a kind of access. -/
def name : AccessType → String
  | viewApp => "view_app"
  | modifyApp => "modify_app"

end AccessType

/-- The state of one node. -/
structure NodeReport where
  node : NodeId
  rack : String
  state : NodeState
  capability : Resource
  used : Resource
  healthReport : String
deriving DecidableEq, Repr, Inhabited

/-- How one container ended. -/
structure ContainerStatus where
  container : ContainerId
  state : ContainerState
  exitStatus : Int32
  diagnostics : String
deriving DecidableEq, Repr

/-- What an application says when it unregisters. -/
structure AppFinalStatus where
  status : FinalStatus
  message : String
  trackingUrl : String
deriving DecidableEq, Repr, Inhabited

/-- What the cluster answers on registration. -/
structure Registration where
  maxCapability : Resource
  accessLists : List (AccessType × String)
  clientToken : List UInt8
deriving DecidableEq, Repr, Inhabited

/-! ## JSON forms -/

instance : Codec TaskId where
  encode t := encode t.val
  decode? j := (decode? j).map TaskId.mk

instance : Codec Cookie where
  encode c := encode c.val
  decode? j := (decode? j).map Cookie.mk

instance : Codec ContainerId where
  encode c := encode c.text
  decode? j := (decode? j).map ContainerId.mk

instance : Codec Priority where
  encode p := encode p.val
  decode? j := (decode? j).map Priority.mk

instance : Codec NodeId where
  encode n := .record [("host", encode n.host), ("port", encode n.port)]
  decode? j := do
    let [host, port] ← j.fields? ["host", "port"] false | none
    return { host := ← required? host, port := ← required? port }

instance : Codec Resource where
  encode r := .record [("memory_mb", encode r.memoryMb), ("vcores", encode r.vcores)]
  decode? j := do
    let [memoryMb, vcores] ← j.fields? ["memory_mb", "vcores"] false | none
    return { memoryMb := ← required? memoryMb, vcores := ← required? vcores }

instance : Codec NodeState where
  encode s := .ofString s.name
  decode? j := j.caseOf? NodeState.all NodeState.name

instance : Codec ContainerState where
  encode s := .ofString s.name
  decode? j := j.caseOf? ContainerState.all ContainerState.name

instance : Codec FinalStatus where
  encode s := .ofString s.name
  decode? j := j.caseOf? FinalStatus.all FinalStatus.name

instance : Codec AccessType where
  encode a := .ofString a.name
  decode? j := j.caseOf? AccessType.all AccessType.name

instance : Codec NodeReport where
  encode r := .record [
    ("node_id", encode r.node),
    ("rack", encode r.rack),
    ("state", encode r.state),
    ("capability", encode r.capability),
    ("used", encode r.used),
    ("health_report", encode r.healthReport)]
  decode? j := do
    let [node, rack, state, capability, used, healthReport] ← j.fields?
      ["node_id", "rack", "state", "capability", "used", "health_report"] false | none
    return {
      node := ← required? node
      rack := ← required? rack
      state := ← required? state
      capability := ← required? capability
      used := ← required? used
      healthReport := ← required? healthReport }

instance : Codec ContainerStatus where
  encode s := .record [
    ("container_id", encode s.container),
    ("state", encode s.state),
    ("exit_status", encode s.exitStatus),
    ("diagnostics", encode s.diagnostics)]
  decode? j := do
    let [container, state, exitStatus, diagnostics] ← j.fields?
      ["container_id", "state", "exit_status", "diagnostics"] false | none
    return {
      container := ← required? container
      state := ← required? state
      exitStatus := ← required? exitStatus
      diagnostics := ← required? diagnostics }

instance : Codec AppFinalStatus where
  encode s := .record [
    ("status", encode s.status),
    ("message", encode s.message),
    ("tracking_url", encode s.trackingUrl)]
  decode? j := do
    let [status, message, trackingUrl] ← j.fields?
      ["status", "message", "tracking_url"] false | none
    return {
      status := ← required? status
      message := ← required? message
      trackingUrl := ← required? trackingUrl }

end TaskFleet
