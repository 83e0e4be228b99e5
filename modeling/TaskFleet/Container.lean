import TaskFleet.Request

/-!
# Containers and what they are held for

A `Container` is a grant as the cluster describes it.  A `Holding` is a granted
container in the fleet's hands together with its assignment: it runs a request, is
idle, is being taken from a request, or has been given back and only its completion is
awaited.
-/

namespace TaskFleet

/-- A container as the cluster grants it. -/
structure Container where
  id : ContainerId
  node : NodeId
  rack : Option String
  resource : Resource
  priority : Priority
  cookie : Option Cookie
  signature : Option Signature
deriving DecidableEq, Inhabited

/-- What a held container is in use for. -/
inductive Assignment where
  | active (cookie : Cookie)
  | idle (since : Instant)
  | beingReleased (cookie : Cookie)
  | released (task : Option TaskId)
deriving DecidableEq, Inhabited

namespace Assignment

/-- No request runs in the container and the next one may. -/
def isIdle : Assignment → Bool
  | idle _ => true
  | _ => false

/-- The container is on its way out. -/
def isLeaving : Assignment → Bool
  | beingReleased _ | released _ => true
  | _ => false

/-- The request that runs in the container undisturbed. -/
def activeCookie? : Assignment → Option Cookie
  | active cookie => some cookie
  | _ => none

/-- The request that owns the container. -/
def owner? : Assignment → Option Cookie
  | active cookie | beingReleased cookie => some cookie
  | _ => none

end Assignment

/-- A container in the fleet's hands. -/
structure Holding where
  container : Container
  signature : Signature
  assignment : Assignment
  assignedAt : Instant
  lastTask : TaskId
deriving DecidableEq, Inhabited

namespace Holding

/-- The holding may be handed to a request. -/
def isIdle (h : Holding) : Bool := h.assignment.isIdle

/-- The holding is on its way back to the cluster. -/
def isLeaving (h : Holding) : Bool := h.assignment.isLeaving

end Holding

end TaskFleet
