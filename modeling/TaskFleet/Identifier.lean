import TaskFleet.SortedMap

/-!
# Names of tasks, requests, containers and nodes

Each kind of name is a type of its own, so a task is never taken for a request.  A
`Cookie` names one request over the whole life of the fleet; a `ContainerId` is given
by the cluster.  Both are keys of sorted maps: cookies in order of issue, containers
in order of their text.
-/

namespace TaskFleet

/-- A logical task of the application. -/
structure TaskId where
  val : UInt64
deriving DecidableEq, Repr, Inhabited

/-- The name of a task in messages. -/
def TaskId.display (t : TaskId) : String :=
  s!"task_{t.val.toNat}"

/-- The token that ties one task request to everything asked for on its behalf. -/
structure Cookie where
  val : UInt64
deriving DecidableEq, Repr, Inhabited

namespace Cookie

instance : LT Cookie := ⟨fun a b => a.val < b.val⟩

instance (a b : Cookie) : Decidable (a < b) :=
  inferInstanceAs (Decidable (a.val < b.val))

theorem eq_of_val {a b : Cookie} (h : a.val = b.val) : a = b := by
  cases a
  cases b
  cases h
  rfl

instance : Key Cookie where
  decEq := inferInstance
  decLt := inferInstance
  irrefl a := Key.irrefl a.val
  trans h h' := Key.trans (κ := UInt64) h h'
  total h h' := eq_of_val (Key.total (κ := UInt64) h h')

/-- The name of a request in messages. -/
def display (c : Cookie) : String :=
  s!"cookie_{c.val.toNat}"

end Cookie

/-- The cluster's name for a container. -/
structure ContainerId where
  text : String
deriving DecidableEq, Repr, Inhabited

namespace ContainerId

instance : LT ContainerId := ⟨fun a b => a.text < b.text⟩

instance (a b : ContainerId) : Decidable (a < b) :=
  inferInstanceAs (Decidable (a.text < b.text))

theorem eq_of_text {a b : ContainerId} (h : a.text = b.text) : a = b := by
  cases a
  cases b
  cases h
  rfl

instance : Key ContainerId where
  decEq := inferInstance
  decLt := inferInstance
  irrefl a := Key.irrefl a.text
  trans h h' := Key.trans (κ := String) h h'
  total h h' := eq_of_text (Key.total (κ := String) h h')

end ContainerId

/-- Host and port of a cluster node. -/
structure NodeId where
  host : String
  port : UInt16
deriving DecidableEq, Repr, Inhabited

/-- The name of a node in messages. -/
def NodeId.display (n : NodeId) : String :=
  s!"{n.host}:{n.port.toNat}"

/-- The importance of a request: the smaller the value, the more important. -/
structure Priority where
  val : UInt32
deriving DecidableEq, Repr, Inhabited

namespace Priority

/-- `p` is served before `q`. -/
def outranks (p q : Priority) : Bool :=
  decide (p.val < q.val)

/-- The order of two priorities by value. -/
def compare (p q : Priority) : Ordering :=
  compareOfLessAndEq p.val q.val

/-- A priority in messages. -/
def display (p : Priority) : String :=
  s!"{p.val.toNat}"

end Priority

end TaskFleet
