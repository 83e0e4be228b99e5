import TaskFleet.Scheduler.Release

/-!
# Taking containers back for waiting requests

`preempt` walks the waiting requests in the order in which they are served.  Each claims
its capability from a budget: what the cluster can still grant and what is already on its
way back.  A request that the budget does not cover has containers taken back for it, and
what those free joins the budget.  The walk ends at the first request for which nothing
can be done.
-/

namespace TaskFleet.Scheduler

/-- Take a running container from its request. -/
def takeRunning (s : Scheduler) (now : Instant) (beneficiary : Cookie) (id : ContainerId) :
    Scheduler :=
  match s.ledger.beginRelease id with
  | (.error _, ledger) => { s with ledger }
  | (.ok victim, ledger) =>
    let task := (ledger.lookup victim).toOption.map TaskRequest.task
    ({ s with ledger }.note now .preempted (some victim) task (some id)
      (some s!"for {beneficiary.display}")).queue (.notify (.containerBeingReleased id))

/-- Carry out a plan for a waiting request: idle containers go back at once, running ones
are announced. -/
def takeBack (s : Scheduler) (now : Instant) (beneficiary : Cookie) (plan : PreemptionPlan) :
    Scheduler :=
  plan.preemptActive.foldl (fun s id => s.takeRunning now beneficiary id)
    (s.releaseEach now "preempted while idle" plan.releaseIdle).2

/-- Walk waiting requests with a budget. -/
def claim (s : Scheduler) (cx : Context) (budget : Resource) :
    List (Cookie × TaskRequest) → Except MatchError Unit × Scheduler
  | [] => (.ok (), s)
  | (cookie, request) :: rest =>
    if budget.covers request.capability then
      s.claim cx (budget - request.capability) rest
    else
      match planWithin cx.policy.matcher s.ledger request budget with
      | .error cause => (.error cause, s)
      | .ok plan =>
        if plan.isEmpty then (.ok (), s)
        else
          (s.takeBack cx.now cookie plan).claim cx (budget + plan.freed - request.capability)
            rest

/-- Take containers back for the waiting requests.  Nothing is taken while the cluster
does not say what it can grant. -/
def preempt (s : Scheduler) (cx : Context) : Except MatchError Unit × Scheduler :=
  match cx.headroom with
  | none => (.ok (), s)
  | some headroom =>
    s.claim cx (headroom + s.ledger.releasingResources) s.ledger.outstanding

/-- Take containers back, if that is enabled, as part of another decision, which does not
fail when the walk does. -/
def preemptQuietly (s : Scheduler) (cx : Context) : Scheduler :=
  if cx.policy.config.preemptionEnabled then (s.preempt cx).2 else s

end TaskFleet.Scheduler
