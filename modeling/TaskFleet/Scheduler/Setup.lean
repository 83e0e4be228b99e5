import TaskFleet.Scheduler.Basic

/-!
# Putting a scheduler together

A scheduler needs a client and an application.  Without a policy of its own it follows
the one that its configuration names.
-/

namespace TaskFleet

/-- The parts from which a scheduler is put together. -/
structure Setup (κ α : Type) where
  config : SchedulerConfig
  matcher : Option Matcher
  client : Option κ
  application : Option α

namespace Setup

variable {κ α : Type}

/-- The policy, the client and the application of a scheduler, or what is missing or
wrong: first the parts, then the configuration. -/
def assemble (parts : Setup κ α) : Except SetupError (Policy × κ × α) :=
  match parts.client, parts.application with
  | none, _ => .error .noClient
  | some _, none => .error .noApplication
  | some client, some application =>
    match parts.config.validated with
    | .error fault => .error (.invalid fault)
    | .ok config =>
      .ok (⟨config, parts.matcher.getD config.matcher.matcher⟩, client, application)

end Setup

end TaskFleet
