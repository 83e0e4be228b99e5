import TaskFleet.Config.Scheduler
import TaskFleet.Ledger.Error

/-!
# Why an operation of the scheduler fails

Causes are kept apart from their wording.  A `Failure` from outside the scheduler is a
root cause with the contexts that were put around it; people are shown the outermost
one, a report shows all of them.
-/

namespace TaskFleet

/-- The wording of a missing signature. -/
def MatchError.message : MatchError → String
  | .missingSignature argument =>
    s!"invalid matcher input: {argument.name} signature is absent"

/-- Why a callback was not delivered or not waited for. -/
inductive DispatchError where
  | queueFull
  | timeout
  | drainTimeout (pending : Nat)
  | callbackPanicked (name : String)
  | shutdown
  | invalidConfig (text : String)
  | internal (text : String)
deriving DecidableEq, Repr

/-- The wording of a delivery failure. -/
def DispatchError.message : DispatchError → String
  | .queueFull => "callback queue is full"
  | .timeout => "callback timed out"
  | .drainTimeout pending => s!"timed out while draining callbacks: {pending} still pending"
  | .callbackPanicked name => s!"callback `{name}` panicked"
  | .shutdown => "dispatcher has been shut down"
  | .invalidConfig text => s!"invalid configuration: {text}"
  | .internal text => s!"internal error: {text}"

/-- A root cause and the contexts around it, the outermost last. -/
structure Failure where
  root : String
  contexts : List String
deriving DecidableEq, Repr, Inhabited

namespace Failure

/-- A failure without context. -/
def ofRoot (root : String) : Failure := ⟨root, []⟩

/-- The outermost context, or the root cause if there is none. -/
def message (f : Failure) : String :=
  f.contexts.getLast?.getD f.root

/-- All contexts from the outermost one inward, then the root cause. -/
def chain (f : Failure) : String :=
  ": ".intercalate (f.contexts.reverse ++ [f.root])

end Failure

/-- What is missing or wrong when a scheduler is put together. -/
inductive SetupError where
  | noClient
  | noApplication
  | invalid (fault : ConfigError)
  | described (text : String)
deriving DecidableEq, Repr

/-- The wording of a set-up error. -/
def SetupError.message : SetupError → String
  | .noClient => "resource manager client is required"
  | .noApplication => "application callback is required"
  | .invalid fault => fault.message
  | .described text => text

/-- Why an operation of the scheduler fails. -/
inductive SchedulerError where
  | ledger (cause : LedgerError)
  | matching (cause : MatchError)
  | dispatch (cause : DispatchError)
  | registration (cause : Failure)
  | unregistration (cause : Failure)
  | capabilityExceeded (requested max : Resource)
  | config (cause : SetupError)
  | stopped
deriving DecidableEq, Repr

/-- The wording of a scheduler error. -/
def SchedulerError.message : SchedulerError → String
  | .ledger cause => cause.message
  | .matching cause => cause.message
  | .dispatch cause => cause.message
  | .registration cause => s!"registration failed: {cause.message}"
  | .unregistration cause => s!"unregistration failed: {cause.message}"
  | .capabilityExceeded requested max =>
    s!"requested {requested.display} exceeds maximum container capability {max.display}"
  | .config cause => s!"invalid configuration: {cause.message}"
  | .stopped => "scheduler is stopped"

end TaskFleet
