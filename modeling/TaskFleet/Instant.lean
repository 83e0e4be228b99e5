/-!
# Instants of the wall clock

An `Instant` counts milliseconds since the epoch in 128 bits.  A wall clock may be
set before the epoch; it then reads as the epoch itself.  The time between two
instants stops at zero when the clock has run backwards.
-/

namespace TaskFleet

/-- Milliseconds since the epoch. -/
@[ext] structure Instant where
  ms : Nat
  ms_lt : ms < Nat.pow 2 128 := by decide
deriving DecidableEq, Repr

namespace Instant

/-- The instant `n` milliseconds after the epoch, if 128 bits can hold it. -/
def ofNat? (n : Nat) : Option Instant :=
  if h : n < Nat.pow 2 128 then some ⟨n, h⟩ else none

/-- The epoch. -/
def epoch : Instant := ⟨0, by decide⟩

instance : Inhabited Instant := ⟨epoch⟩

/-- What a clock that stands at `clock` milliseconds reads. -/
def ofClock (clock : Int) : Instant :=
  (ofNat? clock.toNat).getD epoch

/-- Milliseconds from `start` to `t`, none if `t` is the earlier one. -/
def since (t start : Instant) : Nat :=
  t.ms - start.ms

@[simp] theorem ofNat?_ms (t : Instant) : ofNat? t.ms = some t :=
  dif_pos t.ms_lt

end Instant

/-- A span in whole seconds and nanoseconds. -/
structure Duration where
  seconds : Nat
  nanoseconds : Nat
deriving DecidableEq, Repr

/-- A span in whole milliseconds; a part of a millisecond is dropped. -/
def Duration.milliseconds (d : Duration) : Nat :=
  d.seconds * 1000 + d.nanoseconds / 1000000

end TaskFleet
