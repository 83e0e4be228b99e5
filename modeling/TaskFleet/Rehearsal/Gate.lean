/-!
# The gate

In a rehearsal every callback passes a gate before it acts.  An open gate lets everyone
through.  A held gate lets one callback through for each permit, so that a rehearsal can
stop callbacks half way and let them go on one at a time.  Permits can be granted ahead of
holding the gate; opening it voids those that were not used.
-/

namespace TaskFleet.Rehearsal

/-- A gate and the permits that it honours while it is held. -/
structure Gate where
  held : Bool
  permits : Nat
deriving DecidableEq, Repr

namespace Gate

/-- The gate that lets everyone through, without permits. -/
def opened : Gate := ⟨false, 0⟩

/-- Hold the gate.  Permits granted before still count. -/
def hold (g : Gate) : Gate := { g with held := true }

/-- Open the gate. -/
def unhold (_ : Gate) : Gate := opened

/-- Grant `n` more permits. -/
def grant (g : Gate) (n : Nat) : Gate := { g with permits := g.permits + n }

/-- The gate after one more callback went through; `none` if it has to wait. -/
def pass? (g : Gate) : Option Gate :=
  if g.held then
    match g.permits with
    | 0 => none
    | n + 1 => some { g with permits := n }
  else some g

end Gate

end TaskFleet.Rehearsal
