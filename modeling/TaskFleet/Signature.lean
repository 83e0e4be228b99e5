import TaskFleet.Cluster

/-!
# Container signatures

A `LaunchSpec` says what a container was launched with: its allotment, the files put
beside it and its environment.  A `Signature` is one instance of such a specification.
Two requests may hold the same instance, and two instances may hold equal
specifications; the difference matters to matching.
-/

namespace TaskFleet

/-- What a container is launched with. -/
structure LaunchSpec where
  resource : Resource
  files : SortedMap String String
  environment : SortedMap String String
deriving DecidableEq, Inhabited

/-- One instance of a launch specification. -/
structure Signature where
  serial : Nat
  spec : LaunchSpec
deriving DecidableEq, Inhabited

namespace Signature

/-- `s` and `t` are one instance, not merely equal in content. -/
def sameInstance (s t : Signature) : Bool :=
  decide (s = t)

/-- The text of a signature in diagnostics: its allotment and how many files and
variables it has. -/
def diagnostic (s : Signature) : String :=
  let r := s.spec.resource
  s!"ContainerSignature \x7b resource: Resource \x7b memory_mb: {r.memoryMb.toNat}, " ++
  s!"vcores: {r.vcores.toNat} \x7d, local_resources: {s.spec.files.size}, " ++
  s!"environment: {s.spec.environment.size} \x7d"

end Signature

instance : Codec LaunchSpec where
  encode s := .record [
    ("resource", encode s.resource),
    ("local_resources", encode s.files),
    ("environment", encode s.environment)]
  decode? j := do
    let [resource, files, environment] ← j.fields?
      ["resource", "local_resources", "environment"] false | none
    return {
      resource := ← required? resource
      files := ← required? files
      environment := ← required? environment }

end TaskFleet
