import TaskFleet.Audit

/-!
# The latest events

A sink that is full drops its oldest event before it takes the next one, so what it keeps is
always an end of what it was given.  How long that end is depends on whether the sink has
filled up: while it has not, nothing was dropped and everything is kept; from then on each
event that comes makes one go.  A sink without room stays empty, and it is the one case in
which the event that came last is not kept.

`AuditLog.Latest` says this of one state.  It holds of an empty sink, each event keeps it
(`Latest.keep`), and so every sequence of events does (`Latest.keepAll`).
-/

namespace TaskFleet

/-- The events that records become, named in the order in which they are written. -/
def AuditRecord.named (names : Nat → String) (serial : Nat) : List AuditRecord → List AuditEvent
  | [] => []
  | r :: rs => r.event (names serial) :: named names (serial + 1) rs

namespace AuditLog

variable {log : AuditLog} {given : List AuditEvent}

/-- The sink after more events, the oldest first. -/
def keepAll (log : AuditLog) (es : List AuditEvent) : AuditLog :=
  es.foldl keep log

@[simp] theorem capacity_keep (log : AuditLog) (e : AuditEvent) :
    (log.keep e).capacity = log.capacity := rfl

@[simp] theorem capacity_keepAll (log : AuditLog) (es : List AuditEvent) :
    (log.keepAll es).capacity = log.capacity := by
  induction es generalizing log with
  | nil => rfl
  | cons e es ih => exact ih (log.keep e)

/-! ## One event -/

/-- Without room nothing is kept. -/
theorem events_keep_of_no_room (hroom : log.capacity = 0) (e : AuditEvent) :
    (log.keep e).events = log.events := by
  simp only [keep, hroom, if_true]

/-- Before the sink is full an event is added to the others. -/
theorem events_keep_of_lt (hlt : log.events.length < log.capacity) (e : AuditEvent) :
    (log.keep e).events = log.events ++ [e] := by
  have hroom : log.capacity ≠ 0 := Nat.ne_of_gt (Nat.zero_lt_of_lt hlt)
  simp only [keep, hroom, Nat.not_le.mpr hlt, if_false]

/-- From then on it takes the place of the oldest. -/
theorem events_keep_of_full (hroom : log.capacity ≠ 0)
    (hfull : log.capacity ≤ log.events.length) (e : AuditEvent) :
    (log.keep e).events = log.events.drop 1 ++ [e] := by
  simp only [keep, hroom, hfull, if_false, if_true]

/-! ## What a sink keeps of what it was given -/

/-- The sink keeps the end of what it was given, as much of it as it has room for. -/
structure Latest (log : AuditLog) (given : List AuditEvent) : Prop where
  suffix : log.events <:+ given
  length : log.events.length = min log.capacity given.length

theorem latest_empty (capacity : Nat) : (empty capacity).Latest [] where
  suffix := List.nil_suffix
  length := (Nat.min_zero capacity).symm

/-- A sink that is not full has dropped nothing. -/
theorem Latest.events_eq_of_lt (h : log.Latest given)
    (hlt : log.events.length < log.capacity) : log.events = given := by
  have hlength := h.length
  exact h.suffix.eq_of_length (by omega)

theorem Latest.keep (h : log.Latest given) (e : AuditEvent) :
    (log.keep e).Latest (given ++ [e]) := by
  have hlength := h.length
  by_cases hroom : log.capacity = 0
  · have hevents := events_keep_of_no_room hroom e
    have hnone : log.events = [] := List.length_eq_zero_iff.mp (by omega)
    constructor
    · rw [hevents, hnone]
      exact List.nil_suffix
    · rw [hevents, capacity_keep, List.length_append]
      omega
  rcases Nat.lt_or_ge log.events.length log.capacity with hlt | hfull
  · have hevents := events_keep_of_lt hlt e
    have hall := h.events_eq_of_lt hlt
    constructor
    · refine ⟨[], ?_⟩
      rw [hevents, hall, List.nil_append]
    · rw [hevents, capacity_keep, List.length_append, List.length_append, List.length_singleton]
      omega
  · have hevents := events_keep_of_full hroom hfull e
    obtain ⟨dropped, hgiven⟩ := (List.drop_suffix 1 log.events).trans h.suffix
    constructor
    · rw [hevents, ← hgiven]
      exact ⟨dropped, (List.append_assoc ..).symm⟩
    · rw [hevents, capacity_keep, List.length_append, List.length_append, List.length_drop,
        List.length_singleton]
      omega

/-! ## A sequence of events -/

theorem Latest.keepAll (h : log.Latest given) (es : List AuditEvent) :
    (log.keepAll es).Latest (given ++ es) := by
  induction es generalizing log given with
  | nil =>
      rw [List.append_nil]
      exact h
  | cons e es ih =>
      have hrest := ih (h.keep e)
      rw [List.append_assoc, List.singleton_append] at hrest
      exact hrest

/-- Writing records is keeping the events that they become. -/
theorem recordAll_log (names : Nat → String) (log : AuditLog) (rs : List AuditRecord) :
    (AuditSink.log log).recordAll names rs =
      .log (log.keepAll (AuditRecord.named names log.recorded rs)) := by
  induction rs generalizing log with
  | nil => rfl
  | cons r rs ih => exact ih (log.record names r)

/-- What a sink of some capacity shows after it was given some events: the last of them, as
many as it has room for, in the order in which they were given. -/
structure ShowsLatest (log : AuditLog) (capacity : Nat) (given : List AuditEvent) : Prop where
  suffix : log.events <:+ given
  length : log.events.length = min capacity given.length
  size : log.size = min capacity given.length
  isEmpty : log.isEmpty = true ↔ min capacity given.length = 0

theorem Latest.shows (h : log.Latest given) : log.ShowsLatest log.capacity given where
  suffix := h.suffix
  length := h.length
  size := h.length
  isEmpty := by
    rw [isEmpty, List.isEmpty_iff, ← List.length_eq_zero_iff, h.length]

/-- A new sink that is given events, however many and whatever its capacity, shows the latest
of them after each.  So it does with records that it makes events of, whatever their names. -/
theorem shows_latest (capacity : Nat) :
    (∀ given : List AuditEvent,
      ((empty capacity).keepAll given).ShowsLatest capacity given) ∧
    ∀ (names : Nat → String) (records : List AuditRecord), ∃ log,
      (AuditSink.log (empty capacity)).recordAll names records = .log log ∧
        log.ShowsLatest capacity (AuditRecord.named names 0 records) := by
  have hevents : ∀ given : List AuditEvent,
      ((empty capacity).keepAll given).ShowsLatest capacity given := by
    intro given
    have hlatest := ((latest_empty capacity).keepAll given).shows
    rw [capacity_keepAll] at hlatest
    exact hlatest
  refine ⟨hevents, fun names records => ?_⟩
  exact ⟨_, recordAll_log .., hevents _⟩

/-- The third event makes the first one go. -/
example (a b c : AuditEvent) : ((empty 2).keepAll [a, b, c]).events = [b, c] := rfl

end AuditLog

end TaskFleet
