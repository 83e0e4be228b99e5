import TaskFleet.Ledger.Basic

/-!
# What can be read off a ledger

Requests in the order in which they are served, the request that a grant without a
cookie is meant for, containers that have been idle too long, and the totals.
-/

namespace TaskFleet.Ledger

/-! ## Containers -/

/-- The holdings, by container. -/
def holdings (l : Ledger) : List Holding :=
  l.held.values

/-- The containers that no request runs in and that may be handed out. -/
def idleContainers (l : Ledger) : List Container :=
  (l.holdings.filter Holding.isIdle).map Holding.container

/-- The holding has been idle for at least `timeout` milliseconds. -/
def isExpired (now : Instant) (timeout : UInt64) (h : Holding) : Bool :=
  match h.assignment with
  | .idle since => decide (timeout.toNat ≤ now.since since)
  | _ => false

/-- The containers that have been idle for too long. -/
def expiredIdle (l : Ledger) (now : Instant) (timeout : UInt64) : List ContainerId :=
  (l.holdings.filter (isExpired now timeout)).map fun h => h.container.id

/-! ## Requests -/

/-- `a` is served no later than `b`: the more important first, then the older. -/
def servedBefore (a b : Cookie × TaskRequest) : Bool :=
  decide (a.2.priority.val < b.2.priority.val) ||
    (decide (a.2.priority = b.2.priority) && decide (a.1.val ≤ b.1.val))

/-- The requests that wait for a container, in the order in which they are served. -/
def outstanding (l : Ledger) : List (Cookie × TaskRequest) :=
  ((l.entries.rows.filter fun row => row.2.phase.isOutstanding).map
    fun row => (row.1, row.2.request)).mergeSort servedBefore

/-- How near a place is to a container: on its node, on its rack, anywhere. -/
def nearness? (container : Container) : LocalityTier → Option Nat
  | .node host => if host = container.node.host then some 0 else none
  | .rack name => if some name = container.rack then some 1 else none
  | .any => some 2

/-- How near a request wants to be to a container, judged by its best place. -/
def rank? (container : Container) (entry : Entry) : Option Nat :=
  if entry.phase.state = .requested ∧ entry.request.priority = container.priority ∧
      container.resource.covers entry.request.capability = true then
    (entry.phase.asked.filterMap fun r => nearness? container r.tier).min?
  else none

/-- The better of two ranked requests; of equally near ones the first. -/
def nearer (best : Option (Nat × Cookie)) (row : Option Nat × Cookie) :
    Option (Nat × Cookie) :=
  match row.1, best with
  | none, _ => best
  | some rank, none => some (rank, row.2)
  | some rank, some (least, cookie) =>
    if rank < least then some (rank, row.2) else some (least, cookie)

/-- The request that a container without a cookie is meant for: among those of its
priority that it covers the nearest, and of these the oldest. -/
def matchOutstanding (l : Ledger) (container : Container) : Option Cookie :=
  ((l.entries.rows.map fun row => (rank? container row.2, row.1)).foldl nearer none).map
    Prod.snd

/-! ## Totals -/

/-- How many live requests are in a state. -/
def countIn (l : Ledger) (state : RequestState) : Nat :=
  (l.entries.values.filter fun entry => decide (entry.phase.state = state)).length

/-- The capability that waiting requests ask for. -/
def outstandingResources (l : Ledger) : Resource :=
  .total ((l.entries.values.filter fun entry => entry.phase.isOutstanding).map
    fun entry => entry.request.capability)

/-- The allotment of the containers that stay. -/
def heldResources (l : Ledger) : Resource :=
  .total ((l.holdings.filter fun h => !h.isLeaving).map fun h => h.container.resource)

/-- The allotment of the containers on their way back. -/
def releasingResources (l : Ledger) : Resource :=
  .total ((l.holdings.filter Holding.isLeaving).map fun h => h.container.resource)

end TaskFleet.Ledger
