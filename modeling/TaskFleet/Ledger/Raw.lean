import TaskFleet.Ledger.Basic

/-!
# The ledger field by field

A `Phase` cannot name a container without saying which one, and cannot remember what the
cluster was asked for once a container is there.  The tables themselves know no such rule:
the state of a request, its container and what was asked for are three fields, and every
operation writes those that it means to change, one after the other, and trusts the others
to be right already.

`RawLedger` is the ledger with these fields, and its operations make the same checks and the
same writes in the same order.  `Ledger.raw` spreads a phase over the fields.  Where the two
tables agree, an operation does the same in both; `beginRelease`, which writes the state
alone, is the one that depends on it.
-/

namespace TaskFleet

/-- A live request, field by field. -/
structure RawEntry where
  request : TaskRequest
  state : RequestState
  container : Option ContainerId
  asked : List ContainerRequest
deriving DecidableEq

/-- A container in the fleet's hands, field by field. -/
structure RawHolding where
  container : Container
  signature : Signature
  assignment : Assignment
  assignedAt : Instant
  lastTask : Option TaskId
deriving DecidableEq

/-- The bookkeeping of requests and containers, field by field. -/
structure RawLedger where
  nextCookie : UInt64
  entries : SortedMap Cookie RawEntry
  held : SortedMap ContainerId RawHolding
deriving DecidableEq

/-! ## A ledger as it is stored -/

/-- The phase spread over the fields. -/
def Entry.raw (entry : Entry) : RawEntry where
  request := entry.request
  state := entry.phase.state
  container := entry.phase.container?
  asked := entry.phase.asked

/-- Whoever is held has run a task. -/
def Holding.raw (h : Holding) : RawHolding where
  container := h.container
  signature := h.signature
  assignment := h.assignment
  assignedAt := h.assignedAt
  lastTask := some h.lastTask

/-- The tables with the fields in their rows. -/
def Ledger.raw (l : Ledger) : RawLedger where
  nextCookie := l.nextCookie
  entries := l.entries.map Entry.raw
  held := l.held.map Holding.raw

namespace RawLedger

/-- The ledger on which nothing was recorded. -/
def empty : RawLedger := ⟨1, .empty, .empty⟩

/-! ## Writing in place -/

/-- Write a field of the entry under a cookie, if there is one. -/
def writeEntry (l : RawLedger) (cookie : Cookie) (write : RawEntry → RawEntry) : RawLedger :=
  { l with entries := l.entries.modify cookie write }

/-- Write a field of the holding of a container, if there is one. -/
def writeHeld (l : RawLedger) (id : ContainerId) (write : RawHolding → RawHolding) :
    RawLedger :=
  { l with held := l.held.modify id write }

/-! ## Requests -/

/-- Record a request under a fresh cookie. -/
def add (l : RawLedger) (request : TaskRequest) : Cookie × RawLedger :=
  let cookie : Cookie := ⟨l.nextCookie⟩
  let l := { l with nextCookie := l.nextCookie + 1 }
  let entry : RawEntry := { request, state := .pending, container := none, asked := [] }
  (cookie, { l with entries := l.entries.insert cookie entry })

/-- Note that the cluster was asked for a container on behalf of a pending request. -/
def markRequested (l : RawLedger) (cookie : Cookie) (asked : List ContainerRequest) :
    Except LedgerError Unit × RawLedger :=
  match l.entries.get? cookie with
  | none => (.error (.unknownCookie cookie), l)
  | some entry =>
    if entry.state = .pending then
      let l := l.writeEntry cookie fun entry => { entry with state := .requested }
      let l := l.writeEntry cookie fun entry => { entry with asked }
      (.ok (), l)
    else (.error (.invalidTransition cookie entry.state .requested), l)

/-- What becomes of the container of an entry that was taken off the table.  Answers the
container if it is idle now. -/
def vacate (l : RawLedger) (now : Instant) (entry : RawEntry) :
    Option ContainerId × RawLedger :=
  match entry.container with
  | none => (none, l)
  | some id =>
    match l.held.get? id with
    | none => (none, l)
    | some h =>
      match h.assignment with
      | .active _ => (some id, l.writeHeld id fun h => { h with assignment := .idle now })
      | .beingReleased _ =>
        (none, l.writeHeld id fun h =>
          { h with assignment := .released (some entry.request.task) })
      | .idle _ | .released _ => (none, l)

/-- Take a request off the ledger.  A container that ran it is kept idle. -/
def remove (l : RawLedger) (now : Instant) (cookie : Cookie) :
    Except LedgerError RemovedRequest × RawLedger :=
  let rest := { l with entries := l.entries.erase cookie }
  match l.entries.get? cookie with
  | none => (.error (.unknownCookie cookie), rest)
  | some entry =>
    let (idled, rest) := rest.vacate now entry
    (.ok { cookie, request := entry.request, previousState := entry.state,
           idledContainer := idled },
      rest)

/-! ## Containers -/

/-- Hold a granted container and give it to an outstanding request.  A grant without a
signature takes the request's. -/
def allocate (l : RawLedger) (now : Instant) (cookie : Cookie) (container : Container) :
    Except LedgerError RequestState × RawLedger :=
  if l.held.contains container.id then (.error (.duplicateContainer container.id), l)
  else
    match l.entries.get? cookie with
    | none => (.error (.unknownCookie cookie), l)
    | some entry =>
      match entry.container with
      | some existing => (.error (.alreadyAllocated cookie existing), l)
      | none =>
        if entry.state.isOutstanding then
          let signature := container.signature.getD entry.request.signature
          let container := { container with signature := some signature }
          let container := { container with cookie := some cookie }
          let l := l.writeEntry cookie fun entry => { entry with state := .allocated }
          let l := l.writeEntry cookie fun entry => { entry with container := some container.id }
          let l := l.writeEntry cookie fun entry => { entry with asked := [] }
          let holding : RawHolding := {
            container
            signature
            assignment := .active cookie
            assignedAt := now
            lastTask := some entry.request.task }
          (.ok entry.state, { l with held := l.held.insert container.id holding })
        else (.error (.invalidTransition cookie entry.state .allocated), l)

/-- Give an idle container to an outstanding request. -/
def assignIdle (l : RawLedger) (now : Instant) (cookie : Cookie) (id : ContainerId) :
    Except LedgerError (Container × RequestState) × RawLedger :=
  match l.held.get? id with
  | none => (.error (.unknownContainer id), l)
  | some h =>
    if h.assignment.isIdle then
      match l.entries.get? cookie with
      | none => (.error (.unknownCookie cookie), l)
      | some entry =>
        match entry.container with
        | some existing => (.error (.alreadyAllocated cookie existing), l)
        | none =>
          let l := l.writeEntry cookie fun entry => { entry with state := .allocated }
          let l := l.writeEntry cookie fun entry => { entry with container := some id }
          let l := l.writeEntry cookie fun entry => { entry with asked := [] }
          let container := { h.container with cookie := some cookie }
          let l := l.writeHeld id fun h => { h with assignment := .active cookie }
          let l := l.writeHeld id fun h => { h with assignedAt := now }
          let l := l.writeHeld id fun h => { h with lastTask := some entry.request.task }
          let l := l.writeHeld id fun h => { h with container }
          (.ok (container, entry.state), l)
    else (.error (.notIdle id), l)

/-- Begin to take a running container from its request.  Of the request only the state is
written. -/
def beginRelease (l : RawLedger) (id : ContainerId) : Except LedgerError Cookie × RawLedger :=
  match l.held.get? id with
  | none => (.error (.unknownContainer id), l)
  | some h =>
    match h.assignment with
    | .active cookie =>
      let l := l.writeHeld id fun h => { h with assignment := .beingReleased cookie }
      let l := l.writeEntry cookie fun entry => { entry with state := .releasing }
      (.ok cookie, l)
    | _ => (.error (.notActive id), l)

/-- Give a held container back; the request that owned it ends.  Answers the task that
the container was running. -/
def release (l : RawLedger) (id : ContainerId) :
    Except LedgerError (Option TaskId) × RawLedger :=
  match l.held.get? id with
  | none => (.error (.unknownContainer id), l)
  | some h =>
    match h.assignment with
    | .active cookie | .beingReleased cookie =>
      let l := { l with entries := l.entries.erase cookie }
      (.ok h.lastTask, l.writeHeld id fun h' => { h' with assignment := .released h.lastTask })
    | .idle _ => (.ok none, l.writeHeld id fun h => { h with assignment := .released none })
    | .released _ => (.error (.alreadyReleased id), l)

/-- A container has finished: its holding ends, and so does the request it still ran. -/
def complete (l : RawLedger) (id : ContainerId) :
    Except LedgerError CompletedContainer × RawLedger :=
  let rest := { l with held := l.held.erase id }
  match l.held.get? id with
  | none => (.error (.unknownContainer id), rest)
  | some h =>
    match h.assignment with
    | .active cookie | .beingReleased cookie =>
      let task := ((l.entries.get? cookie).map fun entry => entry.request.task) <|> h.lastTask
      (.ok { container := h.container, task, cookie := some cookie },
        { rest with entries := l.entries.erase cookie })
    | .released task => (.ok { container := h.container, task, cookie := none }, rest)
    | .idle _ => (.ok { container := h.container, task := none, cookie := none }, rest)

end RawLedger

end TaskFleet
