import TaskFleet.Matcher

/-!
# Task requests and the requests made of the cluster for them

A `TaskRequest` asks for one container, perhaps near some nodes or racks.  The cluster
is asked once per place: `TaskRequest.tiers` lists the nodes, then the racks, then
anywhere, the last unless the request is strict and names a place.
-/

namespace TaskFleet

/-- Where a container is wanted. -/
structure Locality where
  nodes : List String
  racks : List String
  relaxed : Bool
deriving DecidableEq, Repr, Inhabited

/-- One place at which the cluster is asked for a container. -/
inductive LocalityTier where
  | node (host : String)
  | rack (name : String)
  | any
deriving DecidableEq, Repr, Inhabited

/-- A request for a container to run one task in. -/
structure TaskRequest where
  task : TaskId
  capability : Resource
  priority : Priority
  locality : Locality
  signature : Signature
deriving DecidableEq, Inhabited

/-- What the cluster is asked for on behalf of one task request. -/
structure ContainerRequest where
  cookie : Cookie
  priority : Priority
  capability : Resource
  tier : LocalityTier
deriving DecidableEq, Repr, Inhabited

namespace TaskRequest

/-- The places at which the cluster is asked, the nearest first. -/
def places (r : TaskRequest) : List LocalityTier :=
  let near := r.locality.nodes.map LocalityTier.node ++ r.locality.racks.map LocalityTier.rack
  if r.locality.relaxed || near.isEmpty then near ++ [.any] else near

/-- The requests that go to the cluster for `r` under its cookie. -/
def tiers (cookie : Cookie) (r : TaskRequest) : List ContainerRequest :=
  r.places.map fun tier =>
    { cookie, priority := r.priority, capability := r.capability, tier }

end TaskRequest

/-- The stages of a request's life. -/
inductive RequestState where
  | pending
  | requested
  | allocated
  | releasing
  | completed
  | released
deriving DecidableEq, Repr, Inhabited

namespace RequestState

/-- Every state of a request. -/
def all : List RequestState := [pending, requested, allocated, releasing, completed, released]

/-- The word for a state. -/
def name : RequestState → String
  | pending => "pending"
  | requested => "requested"
  | allocated => "allocated"
  | releasing => "releasing"
  | completed => "completed"
  | released => "released"

/-- The word for a state in messages. -/
def title : RequestState → String
  | pending => "Pending"
  | requested => "Requested"
  | allocated => "Allocated"
  | releasing => "Releasing"
  | completed => "Completed"
  | released => "Released"

/-- The request still waits for a container. -/
def isOutstanding : RequestState → Bool
  | pending | requested => true
  | _ => false

end RequestState

/-! ## JSON forms -/

instance : Codec Locality where
  encode l := .record [
    ("nodes", encode l.nodes),
    ("racks", encode l.racks),
    ("relax_locality", encode l.relaxed)]
  decode? j := do
    let [nodes, racks, relaxed] ← j.fields? ["nodes", "racks", "relax_locality"] false | none
    return {
      nodes := ← required? nodes
      racks := ← required? racks
      relaxed := ← required? relaxed }

instance : Codec LocalityTier where
  encode := fun
    | .node host => .record [("node", encode host)]
    | .rack name => .record [("rack", encode name)]
    | .any => .ofString "any"
  decode? := fun
    | .object [(some "node", j)] => (decode? j).map LocalityTier.node
    | .object [(some "rack", j)] => (decode? j).map LocalityTier.rack
    | j => j.caseOf? [LocalityTier.any] fun _ => "any"

instance : Codec ContainerRequest where
  encode r := .record [
    ("cookie", encode r.cookie),
    ("priority", encode r.priority),
    ("capability", encode r.capability),
    ("tier", encode r.tier)]
  decode? j := do
    let [cookie, priority, capability, tier] ← j.fields?
      ["cookie", "priority", "capability", "tier"] false | none
    return {
      cookie := ← required? cookie
      priority := ← required? priority
      capability := ← required? capability
      tier := ← required? tier }

instance : Codec RequestState where
  encode s := .ofString s.name
  decode? j := j.caseOf? RequestState.all RequestState.name

end TaskFleet
