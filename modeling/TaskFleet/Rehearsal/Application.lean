import TaskFleet.Dispatch.Panic
import TaskFleet.Scheduler.Operation

/-!
# The scripted application

In a rehearsal the application does what its script says: which answers it gives, in
which callbacks it panics, and when it calls the scheduler.  What it hears is noted.

Whether it will call the scheduler, the application decides when a callback begins, before
the gate; whether it panics, it decides after the gate.  A script that changes in between
changes only the latter.
-/

namespace TaskFleet.Rehearsal

/-- What the application does when it is called. -/
structure Script where
  progress : Progress := .zero
  finalStatus : AppFinalStatus := ⟨.succeeded, "done", ""⟩
  panicsIn : List String := []
  payload : String → PanicPayload := fun name => .text s!"boom in {name}"
  acknowledges : Bool := false
  finishes : Option Bool := none
  stopsOnShutdown : Bool := false

/-- What the application heard, and how a stop from inside a callback ended. -/
inductive Heard where
  | notice (notice : Notice)
  | registration (data : Registration)
  | stoppedInside (answer : Except SchedulerError Unit)

/-- What a callback leaves in the notes of the application; a question leaves nothing. -/
def Heard.of? : Callback → Option Heard
  | .notice n => some (.notice n)
  | .registration data => some (.registration data)
  | .askProgress | .askFinalStatus => none

/-- The container that something heard is about. -/
def Heard.container? : Heard → Option ContainerId
  | .notice n => n.container?
  | _ => none

/-- What several workers delivered, in an order that does not depend on which of them was
faster: by container, each container's in the order of delivery, and what is about no
container last, by a text. -/
def arrange (text : Heard → String) (hs : List Heard) : List Heard :=
  hs.mergeSort fun a b =>
    match a.container?, b.container? with
    | some x, some y => decide (¬ y < x)
    | some _, none => true
    | none, some _ => false
    | none, none => decide (¬ text b < text a)

/-- How the application calls the scheduler from a callback. -/
inductive Reaction where
  | nothing
  | finish (cookie : Cookie) (succeeded : Bool)
  | acknowledge (id : ContainerId)
  | stop

/-- What the application means to do about a callback. -/
def Script.reaction (script : Script) : Callback → Reaction
  | .notice (.taskAllocated _ cookie _) =>
    match script.finishes with
    | some succeeded => .finish cookie succeeded
    | none => .nothing
  | .notice (.containerBeingReleased id) =>
    if script.acknowledges then .acknowledge id else .nothing
  | .notice .shutdownRequested => if script.stopsOnShutdown then .stop else .nothing
  | _ => .nothing

/-- What a worker runs: a callback, or the report of a callback that panicked.  The
reaction is decided when it begins. -/
structure Errand where
  callback : Callback
  isReport : Bool
  reaction : Reaction := .nothing

/-- The report that a callback panicked. -/
def panicReport (name : String) (payload : PanicPayload) : Errand where
  callback := .notice (.failure
    (.ofRoot s!"application callback `{name}` panicked: {payload.message}"))
  isReport := true

end TaskFleet.Rehearsal
