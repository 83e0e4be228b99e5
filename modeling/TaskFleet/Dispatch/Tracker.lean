import TaskFleet.Error

/-!
# Which invocations are still in flight

Every invocation gets a number when it asks to be queued and is settled once: abandoned
if there was no room for it, finished when it has run.  Numbers are given in increasing
order, so "everything asked for before now" is "every number below the next one": a
waiter notes the next number as its watermark and waits until no smaller number is in
flight, whatever is asked for meanwhile and in whatever order invocations finish.

A number and four counts are kept in 64 bits each and only grow.  Here they are without
bound; `Tracker.Fits` says that they are still those that 64 bits can hold.
-/

namespace TaskFleet

/-- The numbers in flight and the counts of what became of the others. -/
structure Tracker where
  nextSeq : Nat
  inFlight : List Nat
  dispatched : Nat
  completed : Nat
  failed : Nat
  rejected : Nat
deriving DecidableEq, Repr

namespace Tracker

/-- The tracker of a pool that was asked for nothing. -/
def empty : Tracker := ⟨0, [], 0, 0, 0, 0⟩

instance : Inhabited Tracker := ⟨empty⟩

/-- Give out the next number. -/
def reserve (t : Tracker) : Tracker × Nat :=
  ({ t with nextSeq := t.nextSeq + 1, inFlight := t.inFlight ++ [t.nextSeq] }, t.nextSeq)

/-- An invocation got its place in a queue. -/
def enqueued (t : Tracker) : Tracker :=
  { t with dispatched := t.dispatched + 1 }

/-- An invocation found no room. -/
def abandon (t : Tracker) (seq : Nat) : Tracker :=
  { t with inFlight := t.inFlight.filter (· ≠ seq), rejected := t.rejected + 1 }

/-- An invocation has run. -/
def finish (t : Tracker) (seq : Nat) (failed : Bool) : Tracker :=
  { t with
    inFlight := t.inFlight.filter (· ≠ seq)
    completed := t.completed + 1
    failed := if failed then t.failed + 1 else t.failed }

/-- No number and no count has run over its 64 bits. -/
structure Fits (t : Tracker) : Prop where
  nextSeq : t.nextSeq < UInt64.size
  dispatched : t.dispatched < UInt64.size
  completed : t.completed < UInt64.size
  failed : t.failed < UInt64.size
  rejected : t.rejected < UInt64.size

/-- The number that the next invocation will get. -/
def watermark (t : Tracker) : Nat := t.nextSeq

/-- How many invocations asked for before a watermark are in flight. -/
def pendingBefore (t : Tracker) (watermark : Nat) : Nat :=
  (t.inFlight.filter (· < watermark)).length

/-- Wait until nothing below a watermark is in flight.  The waiter finds the tracker as in
`looks` whenever it is woken, and as in `last` when its time is up. -/
def waitFor (watermark : Nat) (last : Tracker) : List Tracker → Except DispatchError Unit
  | [] =>
    match last.pendingBefore watermark with
    | 0 => .ok ()
    | pending => .error (.drainTimeout pending)
  | look :: looks =>
    if look.pendingBefore watermark = 0 then .ok () else waitFor watermark last looks

end Tracker

end TaskFleet
