import TaskFleet.Signature

/-!
# Matching policies

A `Matcher` answers two questions about signatures: may a container with one signature
run a request with another (`superset`), and is a container as good as made for a
request (`exact`).  A signature may be absent; then there is no answer, and the error
names the absent argument, the first one when both are.
-/

namespace TaskFleet

/-- The argument of a comparison that had no signature.  A policy from outside this
library may name its arguments otherwise. -/
inductive MatchArgument where
  | candidate
  | required
  | left
  | right
  | named (text : String)
deriving DecidableEq, Repr

/-- The word for an argument. -/
def MatchArgument.name : MatchArgument → String
  | .candidate => "candidate"
  | .required => "required"
  | .left => "left"
  | .right => "right"
  | .named text => text

/-- Why a comparison has no answer. -/
inductive MatchError where
  | missingSignature (argument : MatchArgument)
deriving DecidableEq, Repr

/-- A policy for comparing signatures. -/
structure Matcher where
  superset : Option Signature → Option Signature → Except MatchError Bool
  exact : Option Signature → Option Signature → Except MatchError Bool

namespace Matcher

/-- A comparison of two signatures that must both be there. -/
def comparing (first second : MatchArgument) (test : Signature → Signature → Bool) :
    Option Signature → Option Signature → Except MatchError Bool
  | none, _ => .error (.missingSignature first)
  | some _, none => .error (.missingSignature second)
  | some s, some t => .ok (test s t)

/-- The policy given by two tests on signatures that are there. -/
def ofTests (superset exact : Signature → Signature → Bool) : Matcher where
  superset := comparing .candidate .required superset
  exact := comparing .left .right exact

/-- Any container serves any request. -/
def alwaysMatch : Matcher :=
  ofTests (fun _ _ => true) (fun _ _ => true)

/-- Any container serves any request, but only the same instance is exact. -/
def identity : Matcher :=
  ofTests (fun _ _ => true) Signature.sameInstance

/-- `outer` holds every row of `inner`. -/
def containsAll (outer inner : SortedMap String String) : Bool :=
  inner.rows.all fun row => decide (outer.get? row.1 = some row.2)

/-- A container serves a request if it is at least as large and was launched with all
of its files and variables; it is exact if it was launched with nothing else. -/
def launchContext : Matcher :=
  ofTests
    (fun s t =>
      s.spec.resource.covers t.spec.resource &&
      containsAll s.spec.files t.spec.files &&
      containsAll s.spec.environment t.spec.environment)
    (fun s t => s.sameInstance t || decide (s.spec = t.spec))

end Matcher

/-- The policies that a configuration can name. -/
inductive MatcherKind where
  | alwaysMatch
  | identity
  | launchContext
deriving DecidableEq, Repr, Inhabited

namespace MatcherKind

/-- Every policy that has a name. -/
def all : List MatcherKind := [alwaysMatch, identity, launchContext]

/-- The name of a policy. -/
def name : MatcherKind → String
  | alwaysMatch => "always_match"
  | identity => "identity"
  | launchContext => "launch_context"

/-- The policy that a name stands for. -/
def matcher : MatcherKind → Matcher
  | alwaysMatch => Matcher.alwaysMatch
  | identity => Matcher.identity
  | launchContext => Matcher.launchContext

/-- The word for a policy in diagnostics. -/
def diagnostic : MatcherKind → String
  | alwaysMatch => "AlwaysMatch"
  | identity => "Identity"
  | launchContext => "LaunchContext"

end MatcherKind

instance : Codec MatcherKind where
  encode k := .ofString k.name
  decode? j := j.caseOf? MatcherKind.all MatcherKind.name

end TaskFleet
