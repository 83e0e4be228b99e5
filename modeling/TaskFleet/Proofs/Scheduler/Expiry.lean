import TaskFleet.Proofs.Ledger.Naming
import TaskFleet.Proofs.Scheduler.Draining

/-!
# Idle containers expire once

A container that has been idle for long enough is given back.  What is long enough depends on
the time that the caller names, and that time may run backwards: the clock by which a container
became idle may be ahead of it, and then the container has not been idle at all.

Expiry selects containers and gives them back one by one.  The selection is a part of the table
of holdings, so it is in the order of the names and names no container twice
(`Keyed.pairwise_expiredIdle`); hence every container is still idle when its turn comes, and all
of them go back (`GivesBack.of_idle`).  Nothing that was selected is idle afterwards, so the same
time, or an earlier one, selects nothing again.

A flush carries the calls out, and as calls cannot be refused nothing else comes of them
(`KeepsBooks.flush_calls`).
-/

namespace TaskFleet

/-! ## What has expired -/

namespace Ledger

variable {l : Ledger} {asOf : Instant} {timeout : UInt64} {id : ContainerId}

/-- The container is held, and has been idle for at least `timeout` milliseconds. -/
def HasExpired (l : Ledger) (asOf : Instant) (timeout : UInt64) (id : ContainerId) : Prop :=
  ∃ h since, l.held.get? id = some h ∧ h.assignment = .idle since ∧
    timeout.toNat ≤ asOf.ms - since.ms

theorem isExpired_iff {h : Holding} : isExpired asOf timeout h = true ↔
    ∃ since, h.assignment = .idle since ∧ timeout.toNat ≤ asOf.ms - since.ms := by
  unfold isExpired
  split
  · next since ha =>
    constructor
    · intro hlong
      exact ⟨since, ha, of_decide_eq_true hlong⟩
    · rintro ⟨since', ha', hlong⟩
      cases ha.symm.trans ha'
      exact decide_eq_true hlong
  · next hother =>
    constructor
    · nofun
    · rintro ⟨since, ha, -⟩
      exact absurd ha (hother since)

/-- As time passes, no container ceases to be expired. -/
theorem HasExpired.mono {later : Instant} (h : l.HasExpired asOf timeout id)
    (hle : asOf.ms ≤ later.ms) : l.HasExpired later timeout id := by
  obtain ⟨h, since, hheld, hidle, hlong⟩ := h
  exact ⟨h, since, hheld, hidle, Nat.le_trans hlong (Nat.sub_le_sub_right hle _)⟩

/-- What has expired is read off the rows of the table. -/
theorem Keyed.expiredIdle_eq (hl : l.Keyed) : l.expiredIdle asOf timeout =
    (l.held.rows.filter fun row => isExpired asOf timeout row.2).map Prod.fst := by
  rw [expiredIdle, holdings, SortedMap.values, List.filter_map, List.map_map]
  refine List.map_congr_left fun row hrow => ?_
  exact hl row.1 row.2 (l.held.mem_rows_iff.mp (List.mem_filter.mp hrow).1)

theorem Keyed.mem_expiredIdle_iff (hl : l.Keyed) :
    id ∈ l.expiredIdle asOf timeout ↔ l.HasExpired asOf timeout id := by
  rw [hl.expiredIdle_eq, List.mem_map]
  constructor
  · rintro ⟨⟨k, h⟩, hrow, rfl⟩
    obtain ⟨hmem, hexpired⟩ := List.mem_filter.mp hrow
    obtain ⟨since, hidle, hlong⟩ := isExpired_iff.mp hexpired
    exact ⟨h, since, l.held.mem_rows_iff.mp hmem, hidle, hlong⟩
  · rintro ⟨h, since, hheld, hidle, hlong⟩
    have hexpired : isExpired asOf timeout h = true := isExpired_iff.mpr ⟨since, hidle, hlong⟩
    exact ⟨(id, h), List.mem_filter.mpr ⟨l.held.mem_rows_iff.mpr hheld, hexpired⟩, rfl⟩

/-- What has expired is listed in the order of the names. -/
theorem Keyed.pairwise_expiredIdle (hl : l.Keyed) :
    (l.expiredIdle asOf timeout).Pairwise (· < ·) := by
  rw [hl.expiredIdle_eq, List.pairwise_map]
  exact l.held.sorted.filter _

theorem release_of_idle {h : Holding} {since : Instant} (hheld : l.held.get? id = some h)
    (hidle : h.assignment = .idle since) : l.release id =
      (.ok none, { l with held := l.held.insert id { h with assignment := .released none } }) := by
  simp only [release, hheld, hidle]

end Ledger

/-! ## Giving idle containers back -/

namespace Scheduler

variable {s t : Scheduler} {now : Instant} {reason : String} {id : ContainerId}
  {ids : List ContainerId}

/-- The record of an idle container that goes back. -/
def idleReleased (now : Instant) (reason : String) (id : ContainerId) : AuditRecord :=
  ⟨.released, none, none, some id, some reason, now⟩

/-- From `s` to `t` just the listed containers have been given back, each once and in the
order of the list, and none of them for a task. -/
structure GivesBack (now : Instant) (reason : String) (s : Scheduler) (ids : List ContainerId)
    (t : Scheduler) : Prop where
  held : ∀ id, t.ledger.held.get? id = if id ∈ ids
    then (s.ledger.held.get? id).map fun h => { h with assignment := .released none }
    else s.ledger.held.get? id
  requests : t.ledger.entries = s.ledger.entries
  cookies : t.ledger.nextCookie = s.ledger.nextCookie
  decided : t = { s with
    ledger := t.ledger
    pending := s.pending ++ ids.map fun id => .call (.giveBack id)
    trail := s.trail ++ ids.map (idleReleased now reason) }

namespace GivesBack

theorem nil (s : Scheduler) : GivesBack now reason s [] s where
  held id := by simp
  requests := rfl
  cookies := rfl
  decided := by simp

theorem append {u : Scheduler} {ids' : List ContainerId} (h : GivesBack now reason s ids t)
    (h' : GivesBack now reason t ids' u) : GivesBack now reason s (ids ++ ids') u where
  held id := by
    rw [h'.held, h.held]
    by_cases hfirst : id ∈ ids <;> by_cases hlater : id ∈ ids'
    · cases s.ledger.held.get? id <;> simp [hfirst, hlater]
    all_goals simp [hfirst, hlater]
  requests := h'.requests.trans h.requests
  cookies := h'.cookies.trans h.cookies
  decided := by
    rw [h'.decided, h.decided]
    simp

theorem single {h : Holding} {since : Instant} (hheld : s.ledger.held.get? id = some h)
    (hidle : h.assignment = .idle since) :
    (s.releaseHeld now id reason).1 = true ∧
      GivesBack now reason s [id] (s.releaseHeld now id reason).2 := by
  have hrelease := Ledger.release_of_idle hheld hidle
  refine ⟨by simp only [releaseHeld, hrelease], ?_⟩
  simp only [releaseHeld, hrelease]
  refine ⟨fun id' => ?_, rfl, rfl, by simp [sendBack, note, queue, idleReleased]⟩
  simp only [sendBack, note, queue, SortedMap.get?_insert, List.mem_singleton]
  split
  · next heq => rw [heq, hheld, Option.map_some]
  · rfl

/-- Containers that are idle are all given back, if none of them is listed twice. -/
theorem of_idle (hnodup : ids.Nodup)
    (hidle : ∀ id ∈ ids, ∃ h since, s.ledger.held.get? id = some h ∧ h.assignment = .idle since) :
    ∃ t, s.releaseEach now reason ids = (ids.length, t) ∧ GivesBack now reason s ids t := by
  induction ids generalizing s with
  | nil => exact ⟨s, rfl, nil s⟩
  | cons id ids ih =>
      obtain ⟨hnew, hnodup⟩ := List.nodup_cons.mp hnodup
      obtain ⟨h, since, hheld, hsince⟩ := hidle id List.mem_cons_self
      obtain ⟨hdone, hfirst⟩ : (s.releaseHeld now id reason).1 = true ∧
          GivesBack now reason s [id] (s.releaseHeld now id reason).2 := single hheld hsince
      -- the others are as idle as they were, for the one that went back is none of them
      have hstill : ∀ id' ∈ ids, ∃ h since,
          (s.releaseHeld now id reason).2.ledger.held.get? id' = some h ∧
            h.assignment = .idle since := by
        intro id' hid'
        have hne : id' ∉ [id] := fun hmem => hnew (List.mem_singleton.mp hmem ▸ hid')
        rw [hfirst.held, if_neg hne]
        exact hidle id' (List.mem_cons_of_mem _ hid')
      obtain ⟨t, hrest, hothers⟩ := ih hnodup hstill
      refine ⟨t, ?_, hfirst.append hothers⟩
      simp only [releaseEach, hrest, hdone, if_true, List.length_cons]

theorem journal (h : GivesBack now reason s ids t) :
    t.journal = s.journal ++ ids.map fun id => .call (.giveBack id) := by
  rw [h.decided]
  simp [Scheduler.journal]

end GivesBack

/-! ## Expiry -/

variable {policy : Policy} {timeout : UInt64} {asOf : Instant}

/-- From `s` to `t` just the containers that have expired have been given back. -/
structure Expires (timeout : UInt64) (asOf now : Instant) (s : Scheduler)
    (ids : List ContainerId) (t : Scheduler) : Prop
    extends GivesBack now "idle timeout" s ids t where
  expired : ∀ id, id ∈ ids ↔ s.ledger.HasExpired asOf timeout id
  ordered : ids.Pairwise (· < ·)

theorem Underway.keyed (hs : Underway policy s) : s.ledger.Keyed :=
  hs.coherent.keyed

theorem Underway.expires (hs : Underway policy s) (cx : Context) (timeout : UInt64)
    (asOf : Instant) : ∃ ids t, s.releaseExpired cx timeout asOf = (ids.length, t) ∧
      Expires timeout asOf cx.now s ids t := by
  have hordered : (s.ledger.expiredIdle asOf timeout).Pairwise (· < ·) :=
    hs.keyed.pairwise_expiredIdle
  have hnodup : (s.ledger.expiredIdle asOf timeout).Nodup :=
    hordered.imp fun {a b} hlt (heq : a = b) => Key.irrefl b (heq ▸ hlt)
  have hidle : ∀ id ∈ s.ledger.expiredIdle asOf timeout, ∃ h since,
      s.ledger.held.get? id = some h ∧ h.assignment = .idle since := by
    intro id hid
    obtain ⟨h, since, hheld, hidle, -⟩ := hs.keyed.mem_expiredIdle_iff.mp hid
    exact ⟨h, since, hheld, hidle⟩
  obtain ⟨t, hcount, hback⟩ := GivesBack.of_idle hnodup hidle
  exact ⟨_, t, hcount, hback, fun id => hs.keyed.mem_expiredIdle_iff, hordered⟩

/-- Where nothing has expired nothing is done. -/
theorem releaseExpired_of_none (hs : s.ledger.Keyed)
    (hnone : ∀ id, ¬ s.ledger.HasExpired asOf timeout id) (cx : Context) :
    s.releaseExpired cx timeout asOf = (0, s) := by
  have hnil : s.ledger.expiredIdle asOf timeout = [] :=
    List.eq_nil_iff_forall_not_mem.mpr fun id hid => hnone id (hs.mem_expiredIdle_iff.mp hid)
  rw [releaseExpired, hnil, releaseEach]

/-- What has expired does not expire again, unless time passes. -/
theorem Expires.none_left {ids : List ContainerId} (h : Expires timeout asOf now s ids t)
    {earlier : Instant} (hle : earlier.ms ≤ asOf.ms) (id : ContainerId) :
    ¬ t.ledger.HasExpired earlier timeout id := by
  rintro ⟨held, since, hget, hidle, hlong⟩
  rw [h.held] at hget
  split at hget
  · obtain ⟨old, -, rfl⟩ := Option.map_eq_some_iff.mp hget
    cases hidle
  · next hnot =>
    have hexpired : s.ledger.HasExpired earlier timeout id := ⟨held, since, hget, hidle, hlong⟩
    exact hnot ((h.expired id).mpr (hexpired.mono hle))

/-- However a scheduler came to be where it is, expiry gives back just the containers that have
expired and answers how many; no earlier time finds another, and a later one finds them all. -/
theorem Underway.releaseExpired_once (hs : Underway policy s) (cx : Context) (timeout : UInt64)
    (asOf : Instant) : ∃ ids t, s.releaseExpired cx timeout asOf = (ids.length, t) ∧
      Expires timeout asOf cx.now s ids t ∧
      (∀ (cx' : Context) (earlier : Instant), earlier.ms ≤ asOf.ms →
        t.releaseExpired cx' timeout earlier = (0, t)) ∧
      ∀ (cx' : Context) (later : Instant), asOf.ms ≤ later.ms →
        ∃ ids' t', s.releaseExpired cx' timeout later = (ids'.length, t') ∧
          Expires timeout later cx'.now s ids' t' ∧ ids ⊆ ids' := by
  obtain ⟨ids, t, hcount, hexpires⟩ := hs.expires cx timeout asOf
  have ht : Underway policy t := by
    have hdecisions : Decisions policy s (s.releaseExpired cx timeout asOf).2 :=
      (decisions_releaseEach s cx.now _ _).decisions
    rw [hcount] at hdecisions
    exact hs.course (.of_decisions hdecisions)
  refine ⟨ids, t, hcount, hexpires, fun cx' earlier hle => ?_, fun cx' later hle => ?_⟩
  · exact releaseExpired_of_none ht.keyed (hexpires.none_left hle) cx'
  · obtain ⟨ids', t', hcount', hexpires'⟩ := hs.expires cx' timeout later
    refine ⟨ids', t', hcount', hexpires', fun id hid => ?_⟩
    exact (hexpires'.expired id).mpr (((hexpires.expired id).mp hid).mono hle)

end Scheduler

/-! ## Carrying expiry out -/

theorem Books.Resting.underway {σ : Type} {b : Books σ} {policy : Policy} {w : Scheduler × σ}
    (hw : b.Resting policy w) : w.1.Underway policy :=
  hw.reachable.underway

theorem Books.Resting.pending {σ : Type} {b : Books σ} {policy : Policy} {w : Scheduler × σ}
    (hw : b.Resting policy w) : w.1.pending = [] :=
  hw.atRest.done

namespace Surroundings

variable {σ : Type} {b : Books σ} {here : Surroundings σ} {policy : Policy} {w : Scheduler × σ}
  {timeout : UInt64}

/-- Calls are made one after another, and nothing follows from them. -/
theorem KeepsBooks.applyPending_calls (hhere : here.KeepsBooks b) {calls : List ContainerCall}
    (hpending : w.1.pending = calls.map Effect.call) (fuel : Nat) (hfuel : w.1.burden ≤ fuel) :
    ∃ y, here.applyPending fuel w =
        ({ w.1 with carriedOut := w.1.journal, pending := [] }, y) ∧
      b.log y = b.log w.2 ++ calls.map .made := by
  induction calls generalizing w fuel with
  | nil =>
      obtain ⟨s, x⟩ := w
      have hnone : s.pending = [] := hpending
      refine ⟨x, ?_, (List.append_nil _).symm⟩
      rw [applyPending_of_done hnone]
      simp only [Scheduler.journal, hnone, List.append_nil]
      rw [← hnone]
  | cons call calls ih =>
      obtain ⟨s, x⟩ := w
      have hpending : s.pending = .call call :: calls.map Effect.call := hpending
      let t : Scheduler := { s with
        carriedOut := s.carriedOut ++ [.call call], pending := calls.map Effect.call }
      have htake : s.takeUp? = some (.call call, t) := by simp only [Scheduler.takeUp?, hpending, t]
      have hburden : s.burden = 1 + t.burden := Scheduler.burden_takeUp? htake
      have hfuel : s.burden ≤ fuel := hfuel
      obtain ⟨fuel, rfl⟩ : ∃ n, fuel = n + 1 := ⟨fuel - 1, by omega⟩
      obtain ⟨y, hrest, hlog⟩ := ih (w := (t, here.call call x)) rfl fuel (by
        show t.burden ≤ fuel
        omega)
      refine ⟨y, ?_, ?_⟩
      · rw [Surroundings.applyPending, htake]
        simpa [Surroundings.apply, Scheduler.journal, hpending, t] using hrest
      · rw [hlog, (hhere.call call x).2, List.append_assoc, List.map_cons,
          List.singleton_append]

/-- A flush of calls makes them, and nothing follows from them. -/
theorem KeepsBooks.flush_calls (hhere : here.KeepsBooks b) (hidle : w.1.applying = false)
    {calls : List ContainerCall} (hpending : w.1.pending = calls.map Effect.call) :
    ∃ reports y, here.flush w =
        ({ w.1 with carriedOut := w.1.journal, pending := [], reports }, y) ∧
      b.log y = b.log w.2 ++ calls.map .made := by
  obtain ⟨s, x⟩ := w
  obtain ⟨reports, y, hredeliver, -, hsame⟩ := hhere.redeliver { s with applying := true } x
  obtain ⟨z, hmade, hlog⟩ := hhere.applyPending_calls
    (w := ({ s with applying := true, reports }, y)) hpending _
    (Scheduler.burden_le_flushBound _)
  have hidle : s.applying = false := hidle
  refine ⟨reports, z, ?_, hlog.trans (hsame ▸ rfl)⟩
  simp only [Surroundings.flush, hidle, Bool.false_eq_true, if_false, hredeliver, hmade,
    Scheduler.journal]

/-- While a flush is under way the decision is taken and left to it. -/
theorem releaseIdle_applying (hlimited : policy.config.idleReleaseTimeoutMs = some timeout)
    (hw : w.1.Underway policy) (hbusy : w.1.applying = true) (asOf : Instant) :
    here.releaseIdle policy asOf w =
      ((w.1.releaseExpired (here.context policy w.2) timeout asOf).1,
        (w.1.releaseExpired (here.context policy w.2) timeout asOf).2, w.2) := by
  obtain ⟨ids, t, hcount, hexpires⟩ := hw.expires (here.context policy w.2) timeout asOf
  have hstill : t.applying = true := by
    rw [hexpires.decided]
    exact hbusy
  simp only [releaseIdle, hlimited, perform]
  rw [show w.1.releaseExpired ⟨policy, here.now w.2, here.headroom w.2⟩ timeout asOf =
    (ids.length, t) from hcount, hcount]
  simp only [flush, hstill, if_true]

/-- Where nothing has expired, at most reports that were kept are offered again. -/
theorem KeepsBooks.releaseIdle_of_none (hhere : here.KeepsBooks b) (hw : b.Resting policy w)
    (hlimited : policy.config.idleReleaseTimeoutMs = some timeout) {asOf : Instant}
    (hnone : ∀ id, ¬ w.1.ledger.HasExpired asOf timeout id) :
    (∃ reports y, here.releaseIdle policy asOf w = (0, { w.1 with reports }, y) ∧
        b.log y = b.log w.2) ∧
      (w.1.reports = [] → here.releaseIdle policy asOf w = (0, w)) := by
  have hflush : here.releaseIdle policy asOf w = (0, here.flush w) := by
    simp only [releaseIdle, hlimited, perform]
    rw [Scheduler.releaseExpired_of_none hw.underway.keyed hnone]
  rw [hflush]
  refine ⟨?_, fun hreports => by rw [flush_of_nothing hw.pending hreports]⟩
  have hnothing : w.1.pending = ([] : List ContainerCall).map Effect.call := hw.pending
  obtain ⟨reports, y, hdone, hlog⟩ := hhere.flush_calls hw.idle hnothing
  refine ⟨reports, y, ?_, hlog.trans (List.append_nil _)⟩
  rw [hdone, Scheduler.journal, hw.pending, List.append_nil, ← hw.pending]

/-- The containers that have expired go back to the cluster, and a second call finds none. -/
theorem KeepsBooks.releaseIdle_once (hhere : here.KeepsBooks b) (hw : b.Resting policy w)
    (hlimited : policy.config.idleReleaseTimeoutMs = some timeout) (asOf : Instant) :
    ∃ ids t reports y, Scheduler.Expires timeout asOf (here.now w.2) w.1 ids t ∧
      here.releaseIdle policy asOf w =
        (ids.length, { t with carriedOut := t.journal, pending := [], reports }, y) ∧
      b.log y = b.log w.2 ++ ids.map (fun id => .made (.giveBack id)) ∧
      ∀ earlier : Instant, earlier.ms ≤ asOf.ms →
        (∃ reports' y', here.releaseIdle policy earlier
            ({ t with carriedOut := t.journal, pending := [], reports }, y) =
          (0, { t with carriedOut := t.journal, pending := [], reports := reports' }, y') ∧
          b.log y' = b.log y) ∧
        (reports = [] → here.releaseIdle policy earlier
            ({ t with carriedOut := t.journal, pending := [], reports }, y) =
          (0, { t with carriedOut := t.journal, pending := [], reports }, y)) := by
  obtain ⟨ids, t, hcount, hexpires⟩ :=
    hw.underway.expires (here.context policy w.2) timeout asOf
  have hidle : t.applying = false := by
    rw [hexpires.decided]
    exact hw.idle
  have hpending : t.pending = (ids.map ContainerCall.giveBack).map Effect.call := by
    rw [hexpires.decided, hw.pending, List.map_map]
    rfl
  obtain ⟨reports, y, hflush, hlog⟩ := hhere.flush_calls (w := (t, w.2)) hidle hpending
  have hdone : here.releaseIdle policy asOf w =
      (ids.length, { t with carriedOut := t.journal, pending := [], reports }, y) := by
    simp only [releaseIdle, hlimited, perform]
    rw [show w.1.releaseExpired ⟨policy, here.now w.2, here.headroom w.2⟩ timeout asOf =
      (ids.length, t) from hcount, hflush]
  have hafter := (hhere.operate hw (.releaseExpired timeout asOf) Bool.noConfusion).2
  rw [← releaseIdle_eq_operate hlimited, hdone] at hafter
  refine ⟨ids, t, reports, y, hexpires, hdone, ?_, fun earlier hle => ?_⟩
  · rw [hlog, List.map_map]
    rfl
  · exact hhere.releaseIdle_of_none hafter hlimited (hexpires.none_left hle)

/-- Wherever a scheduler has got to, expiry gives back the containers that have been idle for
the timeout and no others, each once and in the order of their names, and answers how many; at
an earlier time none is left, and at a later time all of them would have gone.  While a flush
is under way this is all that happens.  At rest the calls are made as well, and then a second
call gives back nothing and changes nothing; reports that were kept may be offered again. -/
theorem idle_expiry_exact (hlimited : policy.config.idleReleaseTimeoutMs = some timeout) :
    (∀ s : Scheduler, s.Underway policy → ∀ (cx : Context) (asOf : Instant), ∃ ids t,
      s.releaseExpired cx timeout asOf = (ids.length, t) ∧
      Scheduler.Expires timeout asOf cx.now s ids t ∧
      (∀ (cx' : Context) (earlier : Instant), earlier.ms ≤ asOf.ms →
        t.releaseExpired cx' timeout earlier = (0, t)) ∧
      ∀ (cx' : Context) (later : Instant), asOf.ms ≤ later.ms →
        ∃ ids' t', s.releaseExpired cx' timeout later = (ids'.length, t') ∧
          Scheduler.Expires timeout later cx'.now s ids' t' ∧ ids ⊆ ids') ∧
    (∀ w : Scheduler × σ, w.1.Underway policy → w.1.applying = true → ∀ asOf,
      here.releaseIdle policy asOf w =
        ((w.1.releaseExpired (here.context policy w.2) timeout asOf).1,
          (w.1.releaseExpired (here.context policy w.2) timeout asOf).2, w.2)) ∧
    (here.KeepsBooks b → ∀ w : Scheduler × σ, b.Resting policy w → ∀ asOf,
      ∃ ids t reports y, Scheduler.Expires timeout asOf (here.now w.2) w.1 ids t ∧
        here.releaseIdle policy asOf w =
          (ids.length, { t with carriedOut := t.journal, pending := [], reports }, y) ∧
        b.log y = b.log w.2 ++ ids.map (fun id => .made (.giveBack id)) ∧
        ∀ earlier : Instant, earlier.ms ≤ asOf.ms →
          (∃ reports' y', here.releaseIdle policy earlier
              ({ t with carriedOut := t.journal, pending := [], reports }, y) =
            (0, { t with carriedOut := t.journal, pending := [], reports := reports' }, y') ∧
            b.log y' = b.log y) ∧
          (reports = [] → here.releaseIdle policy earlier
              ({ t with carriedOut := t.journal, pending := [], reports }, y) =
            (0, { t with carriedOut := t.journal, pending := [], reports }, y))) :=
  ⟨fun _ hs cx asOf => hs.releaseExpired_once cx timeout asOf,
    fun _ hw hbusy asOf => releaseIdle_applying hlimited hw hbusy asOf,
    fun hhere _ hw asOf => hhere.releaseIdle_once hw hlimited asOf⟩

end Surroundings

/-- Two of three containers are idle since the epoch and go back after a second, not before,
and not again when the clock is set back. -/
theorem idle_expiry_exact_second :
    let policy : Policy :=
      ⟨{ SchedulerConfig.standard with idleReleaseTimeoutMs := some 1000 }, .alwaysMatch⟩
    let request : TaskRequest :=
      ⟨⟨7⟩, ⟨1024, 1⟩, ⟨5⟩, ⟨[], [], true⟩, ⟨0, ⟨⟨1024, 1⟩, .empty, .empty⟩⟩⟩
    let granted (id : String) (cookie : UInt64) : Container :=
      ⟨⟨id⟩, ⟨"host1", 8041⟩, none, ⟨1024, 1⟩, ⟨5⟩, some ⟨cookie⟩, some request.signature⟩
    let w := [.request request, .request request, .request request,
      .hear (.allocated [granted "c_3" 1, granted "c_2" 2, granted "c_1" 3]),
      .deallocateTask ⟨1⟩ true, .deallocateTask ⟨3⟩ true].foldl
      (fun w op => prompted.operate policy op w) (Prompter.start (.connect .zero) [])
    let after := (prompted.releaseIdle policy ⟨1000, by decide⟩ w).2
    Prompter.books.Resting policy w ∧
      (prompted.releaseIdle policy ⟨999, by decide⟩ w).1 = 0 ∧
      (prompted.releaseIdle policy ⟨1000, by decide⟩ w).1 = 2 ∧
      after.2.log.drop w.2.log.length =
        [.made (.giveBack ⟨"c_1"⟩), .made (.giveBack ⟨"c_3"⟩)] ∧
      (∀ earlier : Instant, earlier.ms ≤ 1000 →
        (prompted.releaseIdle policy earlier after).1 = 0) ∧
      after.1.ledger.assignment? ⟨"c_2"⟩ = some (.active ⟨2⟩) := by
  intro policy request granted w after
  have hw : Prompter.books.Resting policy w :=
    Prompter.keepsBooks.operations (Prompter.resting_start policy _ rfl _) _ (by decide)
  have hlimited : policy.config.idleReleaseTimeoutMs = some 1000 := rfl
  obtain ⟨-, -, hrest⟩ := Surroundings.idle_expiry_exact hlimited
  obtain ⟨ids, t, reports, y, -, hdone, -, hagain⟩ :=
    hrest Prompter.keepsBooks w hw ⟨1000, by decide⟩
  refine ⟨hw, by decide +kernel, by decide +kernel, by decide +kernel, fun earlier hle => ?_,
    by decide +kernel⟩
  obtain ⟨⟨reports', y', hnone, -⟩, -⟩ := hagain earlier hle
  have hafter : after = ({ t with carriedOut := t.journal, pending := [], reports }, y) :=
    congrArg Prod.snd hdone
  rw [hafter, hnone]

end TaskFleet
