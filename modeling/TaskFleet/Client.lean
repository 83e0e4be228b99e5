import TaskFleet.Request

/-!
# The in-memory client of the cluster

The client keeps every call that was made of it and, by cookie, the container requests
that are outstanding.  It grants nothing; what the cluster grants and how much it has
left is told to the scheduler by whoever plays the cluster.
-/

namespace TaskFleet

/-- A call about containers; the cluster does not answer it. -/
inductive ContainerCall where
  | submit (request : ContainerRequest)
  | withdraw (cookie : Cookie)
  | giveBack (id : ContainerId)
deriving DecidableEq, Repr

/-- A call that the client keeps. -/
inductive ClientCall where
  | register (host : String) (port : UInt16) (trackingUrl : String)
  | container (call : ContainerCall)
  | unregister (status : AppFinalStatus)
deriving DecidableEq, Repr

/-- The client and what it was told. -/
structure Client where
  maxCapability : Resource
  calls : List ClientCall
  outstanding : SortedMap Cookie (List ContainerRequest)
  headroom : Option Resource
  registered : Bool
  refusal : Option String

namespace Client

/-- A client of a cluster that grants containers up to `maxCapability`. -/
def connect (maxCapability : Resource) : Client :=
  ⟨maxCapability, [], .empty, none, false, none⟩

/-- Keep a call. -/
def keep (c : Client) (call : ClientCall) : Client :=
  { c with calls := c.calls ++ [call] }

/-- Register the application, unless the client was told to refuse.  Everybody may view
and change the application, and the token has sixteen bytes. -/
def register (c : Client) (host : String) (port : UInt16) (trackingUrl : String) :
    Except String Registration × Client :=
  let c := c.keep (.register host port trackingUrl)
  match c.refusal with
  | some message => (.error message, c)
  | none =>
    (.ok {
      maxCapability := c.maxCapability
      accessLists := [(.viewApp, "*"), (.modifyApp, "*")]
      clientToken := List.replicate 16 0 },
      { c with registered := true })

/-- The container requests that are outstanding for a cookie. -/
def outstandingFor (c : Client) (cookie : Cookie) : List ContainerRequest :=
  (c.outstanding.get? cookie).getD []

/-- The outstanding requests after a call about containers. -/
def afterCall (outstanding : SortedMap Cookie (List ContainerRequest)) :
    ContainerCall → SortedMap Cookie (List ContainerRequest)
  | .submit r => outstanding.insert r.cookie ((outstanding.get? r.cookie).getD [] ++ [r])
  | .withdraw cookie => outstanding.erase cookie
  | .giveBack _ => outstanding

/-- Make a call about containers. -/
def call (c : Client) (call : ContainerCall) : Client :=
  { c.keep (.container call) with outstanding := afterCall c.outstanding call }

/-- Unregister the application. -/
def unregister (c : Client) (status : AppFinalStatus) : Except String Unit × Client :=
  let c := c.keep (.unregister status)
  if c.registered then (.ok (), { c with registered := false })
  else (.error "application master is not registered", c)

/-- The containers given back, in order, as far as calls are still kept. -/
def givenBack (c : Client) : List ContainerId :=
  c.calls.filterMap fun
    | .container (.giveBack id) => some id
    | _ => none

/-- Forget the calls; what is outstanding stays so. -/
def forgetCalls (c : Client) : Client := { c with calls := [] }

end Client

end TaskFleet
