import Mathlib.Data.List.Induction
import Mathlib.Data.List.Infix
import TaskFleet.Dispatch.Tracker

/-!
# A wait for what was asked for before it

A tracker is used by many parties at once: each of its operations is atomic, and they come
in any order.  All that is assumed of them is that a number is settled after it was given
out and once (`Orderly`).

`Accounts` relates the tracker to that history: the numbers in flight are those given out
and not settled.  So what is in flight below a watermark is what was asked for before the
watermark was read and is not settled yet.  Later invocations do not enter into it, and it
only shrinks.  A count of what was asked for and of what is finished could not tell a late
invocation that finishes early from an early one.
-/

namespace TaskFleet.Tracker

/-! ## Histories -/

/-- An operation on a tracker with its arguments. -/
inductive Operation where
  | reserve
  | enqueued
  | abandon (seq : Nat)
  | finish (seq : Nat) (failed : Bool)
deriving DecidableEq, Repr

namespace Operation

/-- The number that an operation settles. -/
def settles? : Operation → Option Nat
  | abandon seq | finish seq _ => some seq
  | reserve | enqueued => none

/-- The number that an operation gives out. -/
def gives? (t : Tracker) : Operation → Option Nat
  | reserve => some t.reserve.2
  | enqueued | abandon _ | finish _ _ => none

theorem gives?_of_settles? {op : Operation} {seq : Nat} (h : op.settles? = some seq)
    (t : Tracker) : op.gives? t = none := by
  cases op with
  | reserve | enqueued => cases h
  | abandon seq' | finish seq' failed => rfl

end Operation

/-- The tracker after an operation. -/
def after (t : Tracker) : Operation → Tracker
  | .reserve => t.reserve.1
  | .enqueued => t.enqueued
  | .abandon seq => t.abandon seq
  | .finish seq failed => t.finish seq failed

/-- The tracker after a sequence of operations. -/
def run (t : Tracker) (ops : List Operation) : Tracker :=
  ops.foldl after t

/-- The numbers that a sequence of operations gives out. -/
def given (t : Tracker) : List Operation → List Nat
  | [] => []
  | op :: ops => (op.gives? t).toList ++ given (t.after op) ops

/-- The numbers that a sequence of operations settles. -/
def settled (ops : List Operation) : List Nat :=
  ops.filterMap Operation.settles?

/-- The numbers that were given out and are not settled yet. -/
def unsettled (before later : List Operation) : List Nat :=
  (given empty before).filter fun seq => decide (seq ∉ settled (before ++ later))

/-- Numbers are settled once, and after they were given out. -/
structure Orderly (ops : List Operation) : Prop where
  once : (settled ops).Nodup
  given : ∀ past, past <+: ops → settled past ⊆ given empty past

instance (ops : List Operation) : Decidable (Orderly ops) :=
  decidable_of_iff
    ((settled ops).Nodup ∧ ∀ past ∈ ops.inits, settled past ⊆ Tracker.given empty past)
    ⟨fun h => ⟨h.1, fun past hpast => h.2 past ((List.mem_inits _ _).mpr hpast)⟩,
      fun h => ⟨h.once, fun past hpast => h.given past ((List.mem_inits _ _).mp hpast)⟩⟩

variable {ops before later past : List Operation} {op : Operation} {t : Tracker}

theorem run_append (t : Tracker) (ops later : List Operation) :
    t.run (ops ++ later) = (t.run ops).run later :=
  List.foldl_append

theorem settled_append (ops later : List Operation) :
    settled (ops ++ later) = settled ops ++ settled later :=
  List.filterMap_append

theorem given_append (t : Tracker) (ops later : List Operation) :
    given t (ops ++ later) = given t ops ++ given (t.run ops) later := by
  induction ops generalizing t with
  | nil => rfl
  | cons op ops ih =>
      rw [List.cons_append, given, ih, given, List.append_assoc]
      rfl

theorem given_singleton (t : Tracker) (op : Operation) :
    given t [op] = (op.gives? t).toList :=
  List.append_nil _

theorem Orderly.of_prefix (h : Orderly ops) (hpast : past <+: ops) : Orderly past := by
  obtain ⟨rest, rfl⟩ := hpast
  refine ⟨?_, fun earlier hearlier => h.given earlier (hearlier.trans ⟨rest, rfl⟩)⟩
  have honce := h.once
  rw [settled_append] at honce
  exact (List.nodup_append.mp honce).1

/-- What an orderly history settles last was given out before and not settled before. -/
theorem Orderly.settles (h : Orderly (ops ++ [op])) {seq : Nat}
    (hop : op.settles? = some seq) : seq ∈ Tracker.given empty ops ∧ seq ∉ settled ops := by
  have hlast : settled [op] = [seq] := by simp [settled, hop]
  constructor
  · have hgiven : seq ∈ Tracker.given empty (ops ++ [op]) := by
      refine h.given _ (List.prefix_refl _) ?_
      rw [settled_append, hlast]
      exact List.mem_append_right _ List.mem_cons_self
    rw [given_append, given_singleton, Operation.gives?_of_settles? hop] at hgiven
    exact (List.mem_append.mp hgiven).resolve_right List.not_mem_nil
  · have honce := h.once
    rw [settled_append, hlast] at honce
    intro hmem
    exact (List.nodup_append.mp honce).2.2 seq hmem seq List.mem_cons_self rfl

/-! ## The books -/

/-- The tracker agrees with the history. -/
structure Accounts (ops : List Operation) (t : Tracker) : Prop where
  given : given empty ops = List.range t.nextSeq
  inFlight : t.inFlight = (List.range t.nextSeq).filter fun seq => decide (seq ∉ settled ops)
  total : t.nextSeq = t.inFlight.length + t.completed + t.rejected
  failed : t.failed ≤ t.completed

theorem accounts_empty : Accounts [] empty where
  given := rfl
  inFlight := rfl
  total := rfl
  failed := Nat.le_refl 0

/-- A number that is given out is next in line, so it was not settled before. -/
theorem Accounts.reserve (h : Accounts ops t) (hrun : t = empty.run ops)
    (hops : settled ops ⊆ Tracker.given empty ops) :
    Accounts (ops ++ [.reserve]) t.reserve.1 := by
  have hsettled : settled (ops ++ [.reserve]) = settled ops := by
    rw [settled_append]
    exact List.append_nil _
  have hfresh : t.nextSeq ∉ settled ops := by
    intro hmem
    have hlt := hops hmem
    rw [h.given, List.mem_range] at hlt
    exact Nat.lt_irrefl _ hlt
  refine ⟨?_, ?_, ?_, h.failed⟩
  · rw [given_append, given_singleton, ← hrun, h.given]
    exact List.range_succ.symm
  · show t.inFlight ++ [t.nextSeq] = _
    rw [hsettled, h.inFlight]
    show _ = (List.range (t.nextSeq + 1)).filter _
    rw [List.range_succ, List.filter_append]
    simp [hfresh]
  · have htotal := h.total
    show t.nextSeq + 1 = (t.inFlight ++ [t.nextSeq]).length + t.completed + t.rejected
    rw [List.length_append, List.length_singleton]
    omega

theorem Accounts.enqueued (h : Accounts ops t) : Accounts (ops ++ [.enqueued]) t.enqueued := by
  have hsettled : settled (ops ++ [.enqueued]) = settled ops := by
    rw [settled_append]
    exact List.append_nil _
  refine ⟨?_, ?_, h.total, h.failed⟩
  · rw [given_append, h.given]
    exact List.append_nil _
  · rw [hsettled]
    exact h.inFlight

/-- A number that is settled was in flight, and once. -/
theorem Accounts.settle (h : Accounts ops t) {seq : Nat} (hop : op.settles? = some seq)
    (hgiven : seq ∈ Tracker.given empty ops) (honce : seq ∉ settled ops) {t' : Tracker}
    (hnext : t'.nextSeq = t.nextSeq) (hflight : t'.inFlight = t.inFlight.filter (· ≠ seq))
    (hcount : t'.completed + t'.rejected = t.completed + t.rejected + 1)
    (hfailed : t'.failed ≤ t'.completed) : Accounts (ops ++ [op]) t' := by
  have hsettled : settled (ops ++ [op]) = settled ops ++ [seq] := by
    rw [settled_append]
    simp [settled, hop]
  have hmem : seq ∈ t.inFlight := by
    rw [h.inFlight, List.mem_filter, ← h.given]
    exact ⟨hgiven, decide_eq_true honce⟩
  have hnodup : t.inFlight.Nodup := by
    rw [h.inFlight]
    exact List.nodup_range.filter _
  have hlength : t'.inFlight.length + 1 = t.inFlight.length := by
    have hpos := List.length_pos_of_mem hmem
    have herase : t.inFlight.erase seq = t'.inFlight := by
      rw [hflight, hnodup.erase_eq_filter]
      exact List.filter_congr fun n _ => by simp [bne, beq_eq_decide]
    rw [← herase, List.length_erase_of_mem hmem]
    omega
  refine ⟨?_, ?_, ?_, hfailed⟩
  · rw [given_append, given_singleton, Operation.gives?_of_settles? hop, hnext, h.given]
    exact List.append_nil _
  · rw [hflight, h.inFlight, List.filter_filter, hnext, hsettled]
    refine List.filter_congr fun n _ => ?_
    by_cases hn : n = seq <;> simp [hn]
  · have htotal := h.total
    omega

theorem Orderly.accounts (h : Orderly ops) : Accounts ops (empty.run ops) := by
  induction ops using List.reverseRecOn with
  | nil => exact accounts_empty
  | append_singleton ops op ih =>
      have hpast := h.of_prefix (List.prefix_append ops [op])
      have hbooks := ih hpast
      rw [run_append]
      cases op with
      | reserve => exact hbooks.reserve rfl (hpast.given ops (List.prefix_refl ops))
      | enqueued => exact hbooks.enqueued
      | abandon seq =>
          obtain ⟨hgiven, honce⟩ := h.settles rfl
          exact hbooks.settle rfl hgiven honce rfl rfl rfl hbooks.failed
      | finish seq failed =>
          obtain ⟨hgiven, honce⟩ := h.settles rfl
          refine hbooks.settle rfl hgiven honce rfl rfl ?_ ?_
          · show (empty.run ops).completed + 1 + (empty.run ops).rejected = _
            omega
          · have hle := hbooks.failed
            show (if failed then (empty.run ops).failed + 1 else _) ≤ (empty.run ops).completed + 1
            split <;> omega

/-! ## Room for the counts -/

/-- What one kind of operation raises by one, and no other changes, counts these operations. -/
theorem count_run {f : Tracker → Nat} {kind : Operation}
    (hstep : ∀ t op, f (after t op) = f t + if op = kind then 1 else 0) (t : Tracker)
    (ops : List Operation) : f (t.run ops) = f t + ops.count kind := by
  induction ops generalizing t with
  | nil => rfl
  | cons op ops ih =>
      calc f (t.run (op :: ops))
        _ = f (t.after op) + ops.count kind := ih (t.after op)
        _ = f t + (if op = kind then 1 else 0) + ops.count kind := by rw [hstep]
        _ = f t + (op :: ops).count kind := by
            simp only [List.count_cons, beq_iff_eq]
            omega

theorem nextSeq_run (t : Tracker) (ops : List Operation) :
    (t.run ops).nextSeq = t.nextSeq + ops.count .reserve := by
  refine count_run (f := nextSeq) (fun t op => ?_) t ops
  cases op <;> rfl

theorem dispatched_run (t : Tracker) (ops : List Operation) :
    (t.run ops).dispatched = t.dispatched + ops.count .enqueued := by
  refine count_run (f := dispatched) (fun t op => ?_) t ops
  cases op <;> rfl

/-- Nothing runs over while fewer than `2 ^ 64` numbers were given out, if no more invocations
got a place than asked for one.  Whatever is counted was given a number before. -/
theorem Orderly.fits (h : Orderly ops) (hreserved : ops.count .reserve < UInt64.size)
    (hqueued : ops.count .enqueued ≤ ops.count .reserve) : (empty.run ops).Fits := by
  have hnext : (empty.run ops).nextSeq = ops.count .reserve := by
    rw [nextSeq_run]
    exact Nat.zero_add _
  have hdispatched : (empty.run ops).dispatched = ops.count .enqueued := by
    rw [dispatched_run]
    exact Nat.zero_add _
  have htotal := h.accounts.total
  have hfailed := h.accounts.failed
  constructor <;> omega

/-! ## Waiting -/

/-- What is in flight below a watermark was asked for before the watermark was read. -/
theorem Orderly.pendingBefore (h : Orderly (before ++ later)) :
    (empty.run (before ++ later)).pendingBefore (empty.run before).watermark =
      (unsettled before later).length := by
  have hbooks := h.accounts
  have hgiven := (h.of_prefix (List.prefix_append before later)).accounts.given
  -- the numbers given out later come after the watermark
  obtain ⟨d, hd⟩ : ∃ d, (empty.run (before ++ later)).nextSeq = (empty.run before).nextSeq + d := by
    have hlength := congrArg List.length hbooks.given
    rw [given_append, List.length_append, hgiven, List.length_range, List.length_range] at hlength
    exact ⟨_, hlength.symm⟩
  have hbelow : (List.range (empty.run (before ++ later)).nextSeq).filter
      (· < (empty.run before).nextSeq) = List.range (empty.run before).nextSeq := by
    rw [hd, List.range_add, List.filter_append]
    have hearly : (List.range (empty.run before).nextSeq).filter
        (· < (empty.run before).nextSeq) = List.range (empty.run before).nextSeq :=
      List.filter_eq_self.mpr fun n hn => decide_eq_true (List.mem_range.mp hn)
    have hlate : ((List.range d).map ((empty.run before).nextSeq + ·)).filter
        (· < (empty.run before).nextSeq) = [] := by
      refine List.filter_eq_nil_iff.mpr fun n hn => ?_
      obtain ⟨k, -, rfl⟩ := List.mem_map.mp hn
      simp
    rw [hearly, hlate, List.append_nil]
  rw [Tracker.pendingBefore, watermark, hbooks.inFlight, List.filter_filter, unsettled, hgiven,
    ← hbelow, List.filter_filter]
  simp only [Bool.and_comm]

/-- More history settles more. -/
theorem length_unsettled_append (before later more : List Operation) :
    (unsettled before (later ++ more)).length ≤ (unsettled before later).length := by
  refine (List.monotone_filter_right _ fun seq hseq => ?_).length_le
  have hnot := of_decide_eq_true hseq
  refine decide_eq_true fun hmem => hnot ?_
  rw [← List.append_assoc, settled_append]
  exact List.mem_append_left _ hmem

/-- The operation settles one of the numbers. -/
def Operation.concerns (seqs : List Nat) (op : Operation) : Bool :=
  op.settles?.any fun seq => decide (seq ∈ seqs)

theorem settled_filter_concerns (seqs : List Nat) (ops : List Operation) :
    settled (ops.filter (Operation.concerns seqs)) =
      (settled ops).filter fun seq => decide (seq ∈ seqs) := by
  induction ops with
  | nil => rfl
  | cons op ops ih =>
      cases hop : op.settles? with
      | none =>
          have hout : op.concerns seqs = false := by simp [Operation.concerns, hop]
          rw [List.filter_cons_of_neg (by simp [hout]), ih]
          simp [settled, hop]
      | some seq =>
          by_cases hseq : seq ∈ seqs
          · have hin : op.concerns seqs = true := by simp [Operation.concerns, hop, hseq]
            rw [List.filter_cons_of_pos hin]
            simpa [settled, hop, hseq] using ih
          · have hout : op.concerns seqs = false := by simp [Operation.concerns, hop, hseq]
            rw [List.filter_cons_of_neg (by simp [hout]), ih]
            simp [settled, hop, hseq]

/-- A history stays orderly without what is asked for later. -/
theorem Orderly.leave_out (h : Orderly (before ++ later)) :
    Orderly (before ++ later.filter (Operation.concerns (Tracker.given empty before))) := by
  have honce := h.once
  rw [settled_append] at honce
  refine ⟨?_, fun past hpast => ?_⟩
  · rw [settled_append, settled_filter_concerns]
    exact honce.sublist ((List.Sublist.refl _).append List.filter_sublist)
  · have hbefore : ∀ past, past <+: before → settled past ⊆ Tracker.given empty past :=
      fun past hpast => h.given past (hpast.trans (List.prefix_append before later))
    obtain ⟨rest, hrest⟩ := hpast
    rcases List.append_eq_append_iff.mp hrest with ⟨gap, hgap, -⟩ | ⟨some, rfl, hsome⟩
    · exact hbefore past ⟨gap, hgap.symm⟩
    · -- whatever is kept of the later part settles what was given out before
      have hkept : settled some ⊆ Tracker.given empty before := by
        intro seq hseq
        have hmem : seq ∈ settled (later.filter (Operation.concerns (Tracker.given empty before))) := by
          rw [hsome, settled_append]
          exact List.mem_append_left _ hseq
        rw [settled_filter_concerns] at hmem
        exact of_decide_eq_true (List.mem_filter.mp hmem).2
      rw [settled_append, given_append]
      intro seq hseq
      refine List.mem_append_left _ ?_
      rcases List.mem_append.mp hseq with hseq | hseq
      · exact hbefore before (List.prefix_refl before) hseq
      · exact hkept hseq

/-- What is left out settles nothing that was given out before. -/
theorem unsettled_leave_out (before later : List Operation) :
    unsettled before (later.filter (Operation.concerns (given empty before))) =
      unsettled before later := by
  refine List.filter_congr fun seq hseq => ?_
  rw [settled_append, settled_append, settled_filter_concerns]
  simp [hseq]

theorem waitFor_nil (watermark : Nat) (last : Tracker) :
    waitFor watermark last [] = if last.pendingBefore watermark = 0 then .ok ()
      else .error (.drainTimeout (last.pendingBefore watermark)) := by
  rw [waitFor]
  cases last.pendingBefore watermark with
  | zero => rfl
  | succ pending => rfl

/-- A look at which more is pending than in the end does not end the wait. -/
theorem waitFor_eq {watermark : Nat} {last : Tracker} {looks : List Tracker}
    (hlooks : ∀ look ∈ looks, last.pendingBefore watermark ≤ look.pendingBefore watermark) :
    waitFor watermark last looks = waitFor watermark last [] := by
  induction looks with
  | nil => rfl
  | cons look looks ih =>
      have hrest := ih fun look' hlook' => hlooks look' (List.mem_cons_of_mem _ hlook')
      have hle := hlooks look List.mem_cons_self
      show (if look.pendingBefore watermark = 0 then _ else waitFor watermark last looks) = _
      split
      · next hzero =>
        have hlast : last.pendingBefore watermark = 0 := by omega
        rw [waitFor_nil, if_pos hlast]
      · exact hrest

/-- In every orderly history the tracker counts each invocation once, and a wait is for
the invocations that were asked for before it and are not settled.  Their number never
grows, what is asked for later has no part in it, and the wait succeeds exactly when all of
them are settled, in whatever order. -/
theorem wait_for_earlier (before later : List Operation) (h : Orderly (before ++ later)) :
    let t := empty.run (before ++ later)
    let watermark := (empty.run before).watermark
    (t.nextSeq = t.inFlight.length + t.completed + t.rejected ∧ t.failed ≤ t.completed) ∧
    t.pendingBefore watermark = (unsettled before later).length ∧
    (∀ past, past <+: later →
      t.pendingBefore watermark ≤ (empty.run (before ++ past)).pendingBefore watermark) ∧
    (empty.run (before ++ later.filter (Operation.concerns (given empty before)))).pendingBefore
      watermark = t.pendingBefore watermark ∧
    (t.pendingBefore watermark = 0 ↔
      ∀ seq ∈ given empty before, seq ∈ settled (before ++ later)) ∧
    ∀ pasts : List (List Operation), (∀ past ∈ pasts, past <+: later) →
      waitFor watermark t (pasts.map fun past => empty.run (before ++ past)) =
        if ∀ seq ∈ given empty before, seq ∈ settled (before ++ later) then .ok ()
        else .error (.drainTimeout (unsettled before later).length) := by
  intro t watermark
  have hpending : t.pendingBefore watermark = (unsettled before later).length := h.pendingBefore
  have hless : ∀ past, past <+: later →
      t.pendingBefore watermark ≤ (empty.run (before ++ past)).pendingBefore watermark := by
    rintro past ⟨more, rfl⟩
    have hpast : Orderly (before ++ past) := by
      refine h.of_prefix ?_
      rw [← List.append_assoc]
      exact List.prefix_append _ more
    rw [hpending, hpast.pendingBefore]
    exact length_unsettled_append before past more
  have hzero : t.pendingBefore watermark = 0 ↔
      ∀ seq ∈ given empty before, seq ∈ settled (before ++ later) := by
    rw [hpending, List.length_eq_zero_iff, unsettled, List.filter_eq_nil_iff]
    simp
  refine ⟨⟨h.accounts.total, h.accounts.failed⟩, hpending, hless, ?_, hzero, ?_⟩
  · rw [h.leave_out.pendingBefore, unsettled_leave_out, hpending]
  · intro pasts hpasts
    have hlooks : ∀ look ∈ pasts.map fun past => empty.run (before ++ past),
        t.pendingBefore watermark ≤ look.pendingBefore watermark := by
      intro look hlook
      obtain ⟨past, hpast, rfl⟩ := List.mem_map.mp hlook
      exact hless past (hpasts past hpast)
    rw [waitFor_eq hlooks, waitFor_nil, ← hpending]
    exact if_congr hzero rfl rfl

/-- The second of three invocations finishes first, the first is abandoned, and one that is
asked for meanwhile is still in flight. -/
theorem wait_for_earlier_out_of_order :
    let before : List Operation := [.reserve, .reserve, .enqueued]
    let later : List Operation := [.reserve, .enqueued, .finish 1 true, .abandon 0]
    Orderly (before ++ later) ∧ (empty.run (before ++ later)).inFlight = [2] ∧
      (empty.run (before ++ later)).nextSeq =
        (empty.run (before ++ later)).inFlight.length + 1 + 1 ∧
      waitFor 2 (empty.run (before ++ later)) [empty.run (before ++ later.take 3)] = .ok () := by
  intro before later
  have horderly : Orderly (before ++ later) := by decide
  obtain ⟨⟨htotal, -⟩, -, -, -, -, hwait⟩ := wait_for_earlier before later horderly
  exact ⟨horderly, by decide, htotal, hwait [later.take 3] (by decide)⟩

end TaskFleet.Tracker
