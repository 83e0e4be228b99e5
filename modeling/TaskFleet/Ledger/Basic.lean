import TaskFleet.Ledger.Error

/-!
# The ledger of requests and containers

The ledger keeps two tables that point at each other: live requests by cookie and held
containers by identifier.  A request's `Phase` says where it stands and carries exactly
what that stage needs, so a request without a container cannot name one and only a
submitted request remembers what the cluster was asked for.  `RawLedger` has the same as
separate fields, which each operation writes one by one.

Cookies are issued from a counter and never again; a request that ends leaves the table,
and `Ledger.classify` tells an ended request from one that never was.

Every operation answers, or refuses with a `LedgerError`, and in either case leaves a
ledger, which stands beside the answer.  Removal and completion drop a row before they know
whether there was one, so that a refusal changes nothing is not a matter of form.
-/

namespace TaskFleet

/-- Where a live request stands. -/
inductive Phase where
  | pending
  | requested (asked : List ContainerRequest)
  | allocated (container : ContainerId)
  | releasing (container : ContainerId)
deriving DecidableEq, Inhabited

namespace Phase

/-- The stage of a request's life. -/
def state : Phase → RequestState
  | pending => .pending
  | requested _ => .requested
  | allocated _ => .allocated
  | releasing _ => .releasing

/-- The container that the request owns. -/
def container? : Phase → Option ContainerId
  | allocated id | releasing id => some id
  | _ => none

/-- What the cluster is being asked for on behalf of the request. -/
def asked : Phase → List ContainerRequest
  | requested rs => rs
  | _ => []

/-- The request still waits for a container. -/
def isOutstanding (p : Phase) : Bool := p.state.isOutstanding

/-- A request that waits has no container, and one that has none waits. -/
theorem isOutstanding_iff (p : Phase) : p.isOutstanding = true ↔ p.container? = none := by
  cases p <;> simp [isOutstanding, state, RequestState.isOutstanding, container?]

end Phase

/-- A live request and where it stands. -/
structure Entry where
  request : TaskRequest
  phase : Phase
deriving DecidableEq, Inhabited

/-- The bookkeeping of requests and containers. -/
structure Ledger where
  nextCookie : UInt64
  entries : SortedMap Cookie Entry
  held : SortedMap ContainerId Holding
deriving DecidableEq

/-- What is known of a cookie. -/
inductive CookieStatus where
  | live (state : RequestState)
  | retired
  | unknown
deriving DecidableEq, Repr

/-- A request that was taken off the ledger. -/
structure RemovedRequest where
  cookie : Cookie
  request : TaskRequest
  previousState : RequestState
  idledContainer : Option ContainerId
deriving DecidableEq

/-- A holding that came to its end. -/
structure CompletedContainer where
  container : Container
  task : Option TaskId
  cookie : Option Cookie
deriving DecidableEq

namespace Ledger

/-- The ledger on which nothing was recorded. -/
def empty : Ledger := ⟨1, .empty, .empty⟩

instance : Inhabited Ledger := ⟨empty⟩

/-! ## Looking things up -/

/-- The request recorded under a cookie. -/
def lookup (l : Ledger) (cookie : Cookie) : Except LedgerError TaskRequest :=
  match l.entries.get? cookie with
  | some entry => .ok entry.request
  | none => .error (.unknownCookie cookie)

/-- The stage of a live request. -/
def state? (l : Ledger) (cookie : Cookie) : Option RequestState :=
  (l.entries.get? cookie).map fun entry => entry.phase.state

/-- The container that a live request owns. -/
def containerOf? (l : Ledger) (cookie : Cookie) : Option ContainerId :=
  (l.entries.get? cookie).bind fun entry => entry.phase.container?

/-- What the cluster is being asked for on behalf of a request. -/
def askedFor (l : Ledger) (cookie : Cookie) : List ContainerRequest :=
  match l.entries.get? cookie with
  | some entry => entry.phase.asked
  | none => []

/-- The holding of a container. -/
def holding? (l : Ledger) (id : ContainerId) : Option Holding :=
  l.held.get? id

/-- The cookie was issued by this ledger. -/
def wasIssued (l : Ledger) (cookie : Cookie) : Bool :=
  decide (0 < cookie.val) && decide (cookie.val < l.nextCookie)

/-- What is known of a cookie: live, ended, or never issued. -/
def classify (l : Ledger) (cookie : Cookie) : CookieStatus :=
  match l.entries.get? cookie with
  | some entry => .live entry.phase.state
  | none => if l.wasIssued cookie then .retired else .unknown

/-! ## Requests -/

/-- Record a request under a fresh cookie. -/
def add (l : Ledger) (request : TaskRequest) : Cookie × Ledger :=
  let cookie : Cookie := ⟨l.nextCookie⟩
  (cookie, { l with
      nextCookie := l.nextCookie + 1
      entries := l.entries.insert cookie ⟨request, .pending⟩ })

/-- Note that the cluster was asked for a container on behalf of a pending request. -/
def markRequested (l : Ledger) (cookie : Cookie) (asked : List ContainerRequest) :
    Except LedgerError Unit × Ledger :=
  match l.entries.get? cookie with
  | none => (.error (.unknownCookie cookie), l)
  | some entry =>
    if entry.phase = .pending then
      (.ok (), { l with
        entries := l.entries.insert cookie { entry with phase := .requested asked } })
    else (.error (.invalidTransition cookie entry.phase.state .requested), l)

/-- What becomes of a container whose request leaves the ledger: a running one is idle,
one that is being taken away is given back. -/
def vacate (now : Instant) (task : TaskId) : Assignment → Assignment
  | .active _ => .idle now
  | .beingReleased _ => .released (some task)
  | other => other

/-- Take a request off the ledger.  A container that ran it is kept idle. -/
def remove (l : Ledger) (now : Instant) (cookie : Cookie) :
    Except LedgerError RemovedRequest × Ledger :=
  let rest := { l with entries := l.entries.erase cookie }
  match l.entries.get? cookie with
  | none => (.error (.unknownCookie cookie), rest)
  | some entry =>
    let owned := entry.phase.container?.bind fun id => (l.held.get? id).map fun h => (id, h)
    let held := match owned with
      | some (id, h) =>
        l.held.insert id { h with assignment := vacate now entry.request.task h.assignment }
      | none => l.held
    let idled := match owned with
      | some (id, h) => if h.assignment.activeCookie?.isSome then some id else none
      | none => none
    (.ok { cookie, request := entry.request, previousState := entry.phase.state,
           idledContainer := idled },
      { rest with held })

/-! ## Containers -/

/-- Hold a granted container and give it to an outstanding request.  A grant without a
signature takes the request's. -/
def allocate (l : Ledger) (now : Instant) (cookie : Cookie) (container : Container) :
    Except LedgerError RequestState × Ledger :=
  if l.held.contains container.id then (.error (.duplicateContainer container.id), l)
  else
    match l.entries.get? cookie with
    | none => (.error (.unknownCookie cookie), l)
    | some entry =>
      match entry.phase.container? with
      | some existing => (.error (.alreadyAllocated cookie existing), l)
      | none =>
        if entry.phase.isOutstanding then
          let signature := container.signature.getD entry.request.signature
          let holding : Holding := {
            container := { container with cookie := some cookie, signature := some signature }
            signature
            assignment := .active cookie
            assignedAt := now
            lastTask := entry.request.task }
          (.ok entry.phase.state, { l with
            entries := l.entries.insert cookie { entry with phase := .allocated container.id }
            held := l.held.insert container.id holding })
        else (.error (.invalidTransition cookie entry.phase.state .allocated), l)

/-- Give an idle container to an outstanding request. -/
def assignIdle (l : Ledger) (now : Instant) (cookie : Cookie) (id : ContainerId) :
    Except LedgerError (Container × RequestState) × Ledger :=
  match l.held.get? id with
  | none => (.error (.unknownContainer id), l)
  | some h =>
    if h.isIdle then
      match l.entries.get? cookie with
      | none => (.error (.unknownCookie cookie), l)
      | some entry =>
        match entry.phase.container? with
        | some existing => (.error (.alreadyAllocated cookie existing), l)
        | none =>
          let container := { h.container with cookie := some cookie }
          let holding := { h with
            container
            assignment := .active cookie
            assignedAt := now
            lastTask := entry.request.task }
          (.ok (container, entry.phase.state), { l with
            entries := l.entries.insert cookie { entry with phase := .allocated id }
            held := l.held.insert id holding })
    else (.error (.notIdle id), l)

/-- Begin to take a running container from its request. -/
def beginRelease (l : Ledger) (id : ContainerId) : Except LedgerError Cookie × Ledger :=
  match l.held.get? id with
  | none => (.error (.unknownContainer id), l)
  | some h =>
    match h.assignment with
    | .active cookie =>
      (.ok cookie, { l with
        entries := l.entries.modify cookie fun entry => { entry with phase := .releasing id }
        held := l.held.insert id { h with assignment := .beingReleased cookie } })
    | _ => (.error (.notActive id), l)

/-- Give a held container back; the request that owned it ends.  Answers the task that
the container was running. -/
def release (l : Ledger) (id : ContainerId) : Except LedgerError (Option TaskId) × Ledger :=
  match l.held.get? id with
  | none => (.error (.unknownContainer id), l)
  | some h =>
    match h.assignment with
    | .active cookie | .beingReleased cookie =>
      let task := some h.lastTask
      (.ok task, { l with
        entries := l.entries.erase cookie
        held := l.held.insert id { h with assignment := .released task } })
    | .idle _ =>
      (.ok none, { l with held := l.held.insert id { h with assignment := .released none } })
    | .released _ => (.error (.alreadyReleased id), l)

/-- A container has finished: its holding ends, and so does the request it still ran. -/
def complete (l : Ledger) (id : ContainerId) :
    Except LedgerError CompletedContainer × Ledger :=
  let rest := { l with held := l.held.erase id }
  match l.held.get? id with
  | none => (.error (.unknownContainer id), rest)
  | some h =>
    match h.assignment with
    | .active cookie | .beingReleased cookie =>
      let task := match l.entries.get? cookie with
        | some entry => entry.request.task
        | none => h.lastTask
      (.ok { container := h.container, task := some task, cookie := some cookie },
        { rest with entries := l.entries.erase cookie })
    | .released task => (.ok { container := h.container, task, cookie := none }, rest)
    | .idle _ => (.ok { container := h.container, task := none, cookie := none }, rest)

end Ledger

end TaskFleet
