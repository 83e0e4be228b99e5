import TaskFleet.Container
import TaskFleet.Error

/-!
# What the application is told and asked

A `Notice` follows from a decision of the scheduler or from news of the cluster.  A
`Callback` is a notice, the data of the registration, or a question whose answer somebody
waits for.  Notices about one container carry its name as a key, so that they arrive in
the order in which they were sent.
-/

namespace TaskFleet

/-- News for the application. -/
inductive Notice where
  | taskAllocated (task : TaskId) (cookie : Cookie) (container : Container)
  | containerCompleted (task : Option TaskId) (status : ContainerStatus)
  | containerBeingReleased (id : ContainerId)
  | nodesUpdated (reports : List NodeReport)
  | shutdownRequested
  | failure (cause : Failure)
deriving DecidableEq

/-- A call of the application. -/
inductive Callback where
  | notice (notice : Notice)
  | registration (data : Registration)
  | askProgress
  | askFinalStatus
deriving DecidableEq

namespace Notice

/-- The name of a notice in messages. -/
def name : Notice → String
  | taskAllocated .. => "task_allocated"
  | containerCompleted .. => "container_completed"
  | containerBeingReleased _ => "container_being_released"
  | nodesUpdated _ => "nodes_updated"
  | shutdownRequested => "app_shutdown_requested"
  | failure _ => "on_error"

/-- The container that a notice is about. -/
def container? : Notice → Option ContainerId
  | taskAllocated _ _ container => some container.id
  | containerCompleted _ status => some status.container
  | containerBeingReleased id => some id
  | _ => none

end Notice

namespace Callback

/-- The name of a callback in messages. -/
def name : Callback → String
  | notice n => n.name
  | registration _ => "set_application_registration_data"
  | askProgress => "get_progress"
  | askFinalStatus => "get_final_app_status"

/-- The key under which a callback is queued. -/
def key? : Callback → Option String
  | notice n => n.container?.map ContainerId.text
  | _ => none

end Callback

end TaskFleet
