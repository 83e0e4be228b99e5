import TaskFleet.Container

/-!
# Why a ledger operation is refused

Each cause names what it is about; the wording is in `LedgerError.message`.
-/

namespace TaskFleet

/-- The causes for which a ledger operation is refused. -/
inductive LedgerError where
  | unknownCookie (cookie : Cookie)
  | unknownContainer (id : ContainerId)
  | alreadyAllocated (cookie : Cookie) (container : ContainerId)
  | duplicateContainer (id : ContainerId)
  | notIdle (id : ContainerId)
  | notActive (id : ContainerId)
  | alreadyReleased (id : ContainerId)
  | invalidTransition (cookie : Cookie) (source target : RequestState)
deriving DecidableEq, Repr

/-- The wording of a cause. -/
def LedgerError.message : LedgerError → String
  | .unknownCookie cookie => s!"unknown cookie: {cookie.display}"
  | .unknownContainer id => s!"unknown container: {id.text}"
  | .alreadyAllocated cookie container =>
    s!"{cookie.display} is already allocated to {container.text}"
  | .duplicateContainer id => s!"container {id.text} is already held"
  | .notIdle id => s!"container {id.text} is not idle"
  | .notActive id => s!"container {id.text} is not running a task"
  | .alreadyReleased id => s!"container {id.text} was already released"
  | .invalidTransition cookie source target =>
    s!"{cookie.display} cannot move from {source.title} to {target.title}"

end TaskFleet
