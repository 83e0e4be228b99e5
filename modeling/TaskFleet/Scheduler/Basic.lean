import TaskFleet.Audit
import TaskFleet.Callback
import TaskFleet.Client
import TaskFleet.Preemption
import TaskFleet.Progress

/-!
# The state of the scheduler

Decisions of the scheduler change its ledger and have effects: calls to the cluster and
notices to the application.  A decision only queues its effects; they are carried out
afterwards, strictly in the order in which they were decided.  The journal, what was
carried out followed by what is pending, tells all that was ever decided: deciding adds
to its end (`journal_queue`), and carrying out leaves it as it is (`journal_takeUp?`).

Each decision that concerns a request or a container is also recorded in the trail.
-/

namespace TaskFleet

/-- What follows from a decision. -/
inductive Effect where
  | call (call : ContainerCall)
  | notify (notice : Notice)
deriving DecidableEq

/-- The settings and the matching policy of a scheduler. -/
structure Policy where
  config : SchedulerConfig
  matcher : Matcher

/-- What a decision depends on besides the scheduler's state: the policy, the time, and
what the cluster says it can still grant.

The time is one reading of the clock for a whole decision.  A running scheduler looks at its
clock for every row that it writes and every record that it makes, so what one decision writes
may bear times some milliseconds apart; none of them is compared with another one before the
decision is over. -/
structure Context where
  policy : Policy
  now : Instant
  headroom : Option Resource

/-- The scheduler's bookkeeping. -/
structure Scheduler where
  ledger : Ledger
  carriedOut : List Effect
  pending : List Effect
  trail : List AuditRecord
  maxCapability : Option Resource
  awaiting : SortedMap ContainerId Instant
  reports : List String
  progress : Progress
  registered : Bool
  stopped : Bool
  applying : Bool

namespace Scheduler

/-- A scheduler that was asked for nothing. -/
def fresh : Scheduler where
  ledger := .empty
  carriedOut := []
  pending := []
  trail := []
  maxCapability := none
  awaiting := .empty
  reports := []
  progress := .zero
  registered := false
  stopped := false
  applying := false

instance : Inhabited Scheduler := ⟨fresh⟩

/-! ## The journal and the trail -/

/-- Every effect that was decided, in order. -/
def journal (s : Scheduler) : List Effect :=
  s.carriedOut ++ s.pending

/-- Decide on an effect. -/
def queue (s : Scheduler) (e : Effect) : Scheduler :=
  { s with pending := s.pending ++ [e] }

/-- The next effect to carry out, and the scheduler that has taken it up. -/
def takeUp? (s : Scheduler) : Option (Effect × Scheduler) :=
  match s.pending with
  | [] => none
  | e :: rest => some (e, { s with carriedOut := s.carriedOut ++ [e], pending := rest })

@[simp] theorem pending_queue (s : Scheduler) (e : Effect) :
    (s.queue e).pending = s.pending ++ [e] := rfl

@[simp] theorem journal_queue (s : Scheduler) (e : Effect) :
    (s.queue e).journal = s.journal ++ [e] := by
  simp [journal, queue]

theorem takeUp?_eq_none_iff {s : Scheduler} : s.takeUp? = none ↔ s.pending = [] := by
  unfold takeUp?
  split <;> simp [*]

theorem pending_takeUp? {s t : Scheduler} {e : Effect} (h : s.takeUp? = some (e, t)) :
    s.pending = e :: t.pending := by
  unfold takeUp? at h
  split at h
  · cases h
  · next hpending =>
    cases h
    exact hpending

theorem journal_takeUp? {s t : Scheduler} {e : Effect} (h : s.takeUp? = some (e, t)) :
    t.journal = s.journal := by
  unfold takeUp? at h
  split at h
  · cases h
  · next hpending =>
    cases h
    simp [journal, hpending]

/-- Record a decision. -/
def note (s : Scheduler) (now : Instant) (action : AuditAction) (cookie : Option Cookie)
    (task : Option TaskId) (container : Option ContainerId) (detail : Option String) :
    Scheduler :=
  { s with trail := s.trail ++ [⟨action, cookie, task, container, detail, now⟩] }

/-- The records made since an earlier state of the scheduler. -/
def recordsSince (s earlier : Scheduler) : List AuditRecord :=
  s.trail.drop earlier.trail.length

/-- Queue the withdrawal of what the cluster was asked for, if it was asked. -/
def withdrawAfter (s : Scheduler) (previous : RequestState) (cookie : Cookie) : Scheduler :=
  if previous = .requested then s.queue (.call (.withdraw cookie)) else s

/-! ## Text -/

/-- The text of a scheduler in diagnostics. -/
def diagnostic (s : Scheduler) (config : SchedulerConfig) : String :=
  s!"TaskScheduler \x7b config: {config.diagnostic}, registered: {s.registered}, " ++
  s!"stopped: {s.stopped}, .. \x7d"

end Scheduler

end TaskFleet
