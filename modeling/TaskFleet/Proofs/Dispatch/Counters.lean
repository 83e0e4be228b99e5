import TaskFleet.Proofs.Dispatch.Workshop

/-!
# What the counters of a pool count

Four counters tell what became of the calls.  Each is compared with the history of the
workshop: `dispatched` with the calls that were accepted, `completed` with the jobs that are
done, `rejected` with the calls that were refused, and the numbers in flight with the calls that
are still being made, wait or run.

The first two are exact at any time.  `rejected` is exact as long as the pool is open.  A call
gets its number from the pool only when it finds the pool open, and the numbers that were given
out, `nextSeq`, are all that the pool ever counts: every one of them belongs to a call that was
accepted, was refused or is still being made (`Counted.asked`).  A call that comes after the
shutdown is refused before it gets a number, and no counter knows of it.

What is in flight is a list of numbers, and one of them is struck out when its call is settled.
That nothing else is struck out with it needs that no number was given out twice, so `Flying`
says both.

The counters are exact because they are without bound.  In 64 bits they are the same as long as
fewer than `2 ^ 64` calls were made (`Reachable.fits`).
-/

namespace TaskFleet

/-! ## Numbers in flight -/

/-- The numbers in flight are those in a list, each there once, and all of them were given
out. -/
structure Tracker.Flying (t : Tracker) (seqs : List Nat) : Prop where
  mem : ∀ n, n ∈ t.inFlight ↔ n ∈ seqs
  once : seqs.Nodup
  given : ∀ n ∈ seqs, n < t.nextSeq

namespace Tracker.Flying

variable {t t' : Tracker} {seqs seqs' : List Nat} {seq : Nat}

theorem reserve (h : t.Flying seqs) : t.reserve.1.Flying (t.nextSeq :: seqs) where
  mem n := by
    show n ∈ t.inFlight ++ [t.nextSeq] ↔ _
    rw [List.mem_append, List.mem_singleton, h.mem, List.mem_cons, or_comm]
  once := List.nodup_cons.mpr ⟨fun hmem => Nat.lt_irrefl _ (h.given _ hmem), h.once⟩
  given n hn := by
    show n < t.nextSeq + 1
    rcases List.mem_cons.mp hn with rfl | hn
    · exact Nat.lt_succ_self _
    · exact Nat.lt_succ_of_lt (h.given n hn)

/-- A number is struck out, and the others stay. -/
theorem settle (h : t.Flying (seq :: seqs))
    (hflight : t'.inFlight = t.inFlight.filter (· ≠ seq)) (hnext : t'.nextSeq = t.nextSeq) :
    t'.Flying seqs := by
  obtain ⟨hnew, honce⟩ := List.nodup_cons.mp h.once
  refine ⟨fun n => ?_, honce, fun n hn => hnext ▸ h.given n (List.mem_cons_of_mem _ hn)⟩
  rw [hflight, List.mem_filter, h.mem, List.mem_cons, decide_eq_true_iff]
  constructor
  · rintro ⟨rfl | hn, hne⟩
    · exact absurd rfl hne
    · exact hn
  · intro hn
    exact ⟨.inr hn, fun heq => hnew (heq ▸ hn)⟩

theorem perm (h : t.Flying seqs) (hperm : seqs.Perm seqs') : t.Flying seqs' :=
  ⟨fun n => (h.mem n).trans hperm.mem_iff, hperm.nodup_iff.mp h.once,
    fun n hn => h.given n (hperm.mem_iff.mpr hn)⟩

theorem enqueued (h : t.Flying seqs) : t.enqueued.Flying seqs :=
  ⟨h.mem, h.once, h.given⟩

theorem eq_nil (h : t.Flying seqs) (hnone : t.inFlight = []) : seqs = [] := by
  refine List.eq_nil_iff_forall_not_mem.mpr fun n hn => ?_
  have hmem := (h.mem n).mpr hn
  rw [hnone] at hmem
  cases hmem

end Tracker.Flying

/-! ## What waits and what runs, as a whole -/

namespace Pool

variable {α : Type} {p p' : Pool α} {i : Invocation α} {d : Destination} {worker : Nat}

private theorem perm_eraseP_of_head? {β : Type} {q : β → Bool} {b : β} {bs : List β}
    (h : (bs.filter q).head? = some b) : bs.Perm (b :: bs.eraseP q) := by
  induction bs with
  | nil => cases h
  | cons c bs ih =>
      cases hc : q c with
      | true =>
          rw [List.filter_cons_of_pos hc, List.head?_cons] at h
          cases h
          rw [List.eraseP_cons_of_pos hc]
      | false =>
          have hneg : ¬ q c = true := by simp [hc]
          rw [List.filter_cons_of_neg hneg] at h
          rw [List.eraseP_cons_of_neg hneg]
          exact ((ih h).cons c).trans (.swap b c _)

/-- What a worker takes waited before and runs afterwards. -/
theorem waiting_take? (h : p.take? worker d = some (i, p')) :
    p.waiting.Perm (i :: p'.waiting) ∧ p'.running = p.running ++ [(worker, i)] ∧
      (∀ r ∈ p.running, r.1 ≠ worker) ∧ p'.tracker = p.tracker := by
  unfold take? at h
  split at h
  · next hready =>
    split at h
    · cases h
    · next head hhead =>
      cases h
      refine ⟨perm_eraseP_of_head? hhead, rfl, fun r hr => ?_, rfl⟩
      obtain ⟨hfree, -⟩ := Bool.and_eq_true_iff.mp hready
      obtain ⟨-, hall⟩ := Bool.and_eq_true_iff.mp hfree
      exact of_decide_eq_true (List.all_eq_true.mp hall r hr)
  · cases h

private theorem perm_filter_of_find? {rs : List (Nat × Invocation α)}
    (h : (rs.find? fun r => decide (r.1 = worker)).map Prod.snd = some i)
    (honce : (rs.map Prod.fst).Nodup) :
    rs.Perm ((worker, i) :: rs.filter fun r => decide (r.1 ≠ worker)) := by
  induction rs with
  | nil => cases h
  | cons r rs ih =>
      obtain ⟨v, j⟩ := r
      rw [List.map_cons, List.nodup_cons] at honce
      by_cases hv : v = worker
      · subst hv
        rw [List.find?_cons_of_pos (by simp), Option.map_some] at h
        cases h
        have hothers : rs.filter (fun r => decide (r.1 ≠ v)) = rs := by
          refine List.filter_eq_self.mpr fun r hr => decide_eq_true fun heq => ?_
          exact honce.1 (List.mem_map.mpr ⟨r, hr, heq⟩)
        rw [List.filter_cons_of_neg (by simp), hothers]
      · rw [List.find?_cons_of_neg (by simpa using hv)] at h
        rw [List.filter_cons_of_pos (by simpa using hv)]
        exact ((ih h honce.2).cons _).trans (.swap _ _ _)

/-- What a worker runs is one of the running, and the others run on when it has finished. -/
theorem running_finish (h : p.runningAt? worker = some i)
    (honce : (p.running.map Prod.fst).Nodup) (failed : Bool) :
    p.running.Perm ((worker, i) :: (p.finish worker failed).running) ∧
      (p.finish worker failed).tracker = p.tracker.finish i.seq failed := by
  simp only [finish, h, and_true]
  exact perm_filter_of_find? h honce

/-- Counters that did not run over are shown as they are. -/
theorem toNat_stats (h : p.tracker.Fits) :
    p.stats.dispatched.toNat = p.tracker.dispatched ∧
      p.stats.completed.toNat = p.tracker.completed ∧
      p.stats.failed.toNat = p.tracker.failed ∧
      p.stats.rejected.toNat = p.tracker.rejected := by
  have hexact (n : Nat) (hn : n < UInt64.size) : (clip64 n).toNat = n := by
    rw [toNat_clip64]
    exact Nat.min_eq_left (Nat.le_sub_one_of_lt hn)
  exact ⟨hexact _ h.dispatched, hexact _ h.completed, hexact _ h.failed, hexact _ h.rejected⟩

end Pool

/-! ## The counters -/

namespace Workshop

variable {κ α : Type} {rules : Rules κ α} {config : DispatcherConfig} {w w' : Workshop κ α}

/-- The numbers of the calls that are being made, wait or run. -/
def unsettled (w : Workshop κ α) : List Nat :=
  w.attempts.map Invocation.seq ++ w.pool.waiting.map Invocation.seq ++
    w.pool.running.map fun r => r.2.seq

/-- How many calls were refused of those that were made before the call with a number. -/
def refusedBefore (n : Nat) (history : List (Happening κ α)) : Nat :=
  (refused history).countP fun job => decide (job.number < n)

/-- How the counters stand to the history. -/
structure Counted (w : Workshop κ α) : Prop where
  /-- As long as the pool is open every call gets a number. -/
  numbered : w.pool.closed = false → w.pool.tracker.nextSeq = w.calls
  known : w.pool.tracker.nextSeq ≤ w.calls
  attempted : ∀ i ∈ w.attempts, i.job.number < w.pool.tracker.nextSeq
  dispatched : w.pool.tracker.dispatched = (accepted w.history).length
  completed : w.pool.tracker.completed = (finished w.history).length
  rejected : w.pool.tracker.rejected = refusedBefore w.pool.tracker.nextSeq w.history
  /-- The others that were refused came too late. -/
  late : (refused w.history).length =
    w.pool.tracker.rejected + (w.calls - w.pool.tracker.nextSeq)
  asked : w.pool.tracker.dispatched + w.pool.tracker.rejected + w.attempts.length =
    w.pool.tracker.nextSeq
  settled : w.pool.tracker.dispatched =
    w.pool.tracker.completed + w.pool.waiting.length + w.pool.running.length
  workers : (w.pool.running.map Prod.fst).Nodup
  flying : w.pool.tracker.Flying w.unsettled

@[simp] theorem refusedBefore_concat (n : Nat) (history : List (Happening κ α))
    (e : Happening κ α) : refusedBefore n (history ++ [e]) =
      refusedBefore n history + e.refused?.toList.countP fun job => decide (job.number < n) := by
  rw [refusedBefore, refused_concat, List.countP_append, refusedBefore]

theorem refusedBefore_of_le {n : Nat} {history : List (Happening κ α)}
    (h : refusedBefore n history = (refused history).length) {m : Nat} (hle : n ≤ m) :
    refusedBefore m history = (refused history).length := by
  refine List.countP_eq_length.mpr fun job hjob => decide_eq_true ?_
  exact Nat.lt_of_lt_of_le (of_decide_eq_true (List.countP_eq_length.mp h job hjob)) hle

theorem counted_opening {pool : Pool (Duty κ α)} (h : Pool.create config = .ok pool) :
    Counted (opening pool) := by
  obtain ⟨rfl, -⟩ := Pool.create_ok h
  exact ⟨fun _ => rfl, Nat.le_refl 0, nofun, rfl, rfl, rfl, rfl, rfl, rfl, .nil,
    ⟨fun n => .rfl, .nil, nofun⟩⟩

theorem Counted.refuse (hw : Counted w) (hclosed : w.pool.closed = true) (key : Option κ)
    (work : α) : Counted { w with
      calls := w.calls + 1
      history := w.history ++ [.refused ⟨w.calls, key, work⟩] } := by
  have hknown := hw.known
  refine ⟨fun hopen => ?_, Nat.le_succ_of_le hw.known, hw.attempted, ?_, ?_, ?_, ?_, hw.asked,
    hw.settled, hw.workers, hw.flying⟩
  · rw [hclosed] at hopen
    cases hopen
  · simpa [Happening.accepted?] using hw.dispatched
  · simpa [Happening.finished?] using hw.completed
  · simpa [Happening.refused?, Nat.not_lt.mpr hknown] using hw.rejected
  · have hlate := hw.late
    simp only [refused_concat, Happening.refused?, Option.toList, List.length_append,
      List.length_singleton]
    omega

theorem Counted.attempt (hw : Counted w) (hopen : w.pool.closed = false)
    {i : Invocation (Duty κ α)} {pool : Pool (Duty κ α)} (key : Option κ) (work : α)
    (h : w.pool.attempt (key.map rules.hash) (.work ⟨w.calls, key, work⟩) = (i, pool)) :
    Counted { w with pool, calls := w.calls + 1, attempts := w.attempts ++ [i] } := by
  have hnumbered := hw.numbered hopen
  have hlate := hw.late
  have hasked := hw.asked
  cases h
  refine ⟨fun _ => ?_, ?_, fun j hj => ?_, hw.dispatched, hw.completed, ?_, ?_, ?_, hw.settled,
    hw.workers, ?_⟩
  · show w.pool.tracker.nextSeq + 1 = w.calls + 1
    rw [hnumbered]
  · show w.pool.tracker.nextSeq + 1 ≤ w.calls + 1
    omega
  · show j.job.number < w.pool.tracker.nextSeq + 1
    rcases List.mem_append.mp hj with hj | hj
    · exact Nat.lt_succ_of_lt (hw.attempted j hj)
    · cases List.mem_singleton.mp hj
      show w.calls < w.pool.tracker.nextSeq + 1
      omega
  · -- whoever was refused had an earlier number, so one number more makes no difference
    have hall : refusedBefore w.pool.tracker.nextSeq w.history = (refused w.history).length := by
      rw [← hw.rejected]
      omega
    show w.pool.tracker.rejected = refusedBefore (w.pool.tracker.nextSeq + 1) w.history
    rw [refusedBefore_of_le hall (Nat.le_succ _), ← hall, ← hw.rejected]
  · show (refused w.history).length =
      w.pool.tracker.rejected + (w.calls + 1 - (w.pool.tracker.nextSeq + 1))
    omega
  · show _ + _ + (w.attempts ++ [_]).length = w.pool.tracker.nextSeq + 1
    rw [List.length_append, List.length_singleton]
    show w.pool.tracker.dispatched + w.pool.tracker.rejected + (w.attempts.length + 1) = _
    omega
  · refine hw.flying.reserve.perm (List.perm_iff_count.mpr fun n => ?_)
    simp only [unsettled, List.map_append, List.map_cons,
      List.map_nil, List.count_append, List.count_cons, List.count_nil]
    omega

theorem Counted.accept (hw : Counted w) {before after : List (Invocation (Duty κ α))}
    {i : Invocation (Duty κ α)} (h : w.attempts = before ++ i :: after) :
    Counted { w with
      pool := w.pool.accept i
      attempts := before ++ after
      history := w.history ++ [.accepted i.job] } := by
  have hdispatched := hw.dispatched
  have hasked := hw.asked
  have hsettled := hw.settled
  rw [h, List.length_append, List.length_cons] at hasked
  refine ⟨hw.numbered, hw.known, fun j hj => ?_, ?_, ?_, ?_, ?_, ?_, ?_, hw.workers, ?_⟩
  · exact hw.attempted j (h ▸ mem_of_mem_without hj)
  · simpa [Happening.accepted?, Pool.accept, Tracker.enqueued] using hdispatched
  · simpa [Happening.finished?, Pool.accept, Tracker.enqueued] using hw.completed
  · simpa [Happening.refused?, Pool.accept, Tracker.enqueued] using hw.rejected
  · simpa [Happening.refused?, Pool.accept, Tracker.enqueued] using hw.late
  · simp only [Pool.accept, Tracker.enqueued, List.length_append]
    omega
  · simp only [Pool.accept, Tracker.enqueued, List.length_append, List.length_singleton]
    omega
  · refine hw.flying.enqueued.perm (List.perm_iff_count.mpr fun n => ?_)
    simp only [unsettled, h, Pool.accept, List.map_append, List.map_cons, List.map_nil,
      List.count_append, List.count_cons, List.count_nil]
    omega

theorem Counted.giveUp (hw : Counted w) {before after : List (Invocation (Duty κ α))}
    {i : Invocation (Duty κ α)} (h : w.attempts = before ++ i :: after) :
    Counted { w with
      pool := w.pool.giveUp i
      attempts := before ++ after
      history := w.history ++ [.refused i.job] } := by
  have hlate := hw.late
  have hasked := hw.asked
  rw [h, List.length_append, List.length_cons] at hasked
  have hnumber : i.job.number < w.pool.tracker.nextSeq := hw.attempted i (by simp [h])
  refine ⟨hw.numbered, hw.known, fun j hj => ?_, ?_, ?_, ?_, ?_, ?_, hw.settled, hw.workers, ?_⟩
  · exact hw.attempted j (h ▸ mem_of_mem_without hj)
  · simpa [Happening.accepted?, Pool.giveUp, Tracker.abandon] using hw.dispatched
  · simpa [Happening.finished?, Pool.giveUp, Tracker.abandon] using hw.completed
  · simpa [Happening.refused?, Pool.giveUp, Tracker.abandon, hnumber] using hw.rejected
  · simp only [refused_concat, Happening.refused?, Option.toList, List.length_append,
      List.length_singleton, Pool.giveUp, Tracker.abandon]
    omega
  · simp only [Pool.giveUp, Tracker.abandon, List.length_append]
    omega
  · have hperm : w.unsettled.Perm (i.seq :: unsettled { w with
        pool := w.pool.giveUp i
        attempts := before ++ after
        history := w.history ++ [.refused i.job] }) := by
      refine List.perm_iff_count.mpr fun n => ?_
      simp only [unsettled, h, Pool.giveUp, List.map_append, List.map_cons, List.count_append,
        List.count_cons]
      omega
    exact (hw.flying.perm hperm).settle rfl rfl

theorem Counted.take (hw : Counted w) {worker : Nat} {d : Destination}
    {i : Invocation (Duty κ α)} {pool : Pool (Duty κ α)}
    (h : w.pool.take? worker d = some (i, pool)) (hclosed : pool.closed = w.pool.closed) :
    Counted { w with pool, history := w.history ++ [.started worker i.job] } := by
  obtain ⟨hwaiting, hrunning, hfree, htracker⟩ := Pool.waiting_take? h
  have hsettled := hw.settled
  rw [hwaiting.length_eq, List.length_cons] at hsettled
  refine ⟨fun hopen => ?_, ?_, fun j hj => ?_, ?_, ?_, ?_, ?_, ?_, ?_, ?_, ?_⟩
  · exact htracker ▸ hw.numbered (hclosed ▸ hopen)
  · exact htracker ▸ hw.known
  · exact htracker ▸ hw.attempted j hj
  · simpa [htracker, Happening.accepted?] using hw.dispatched
  · simpa [htracker, Happening.finished?] using hw.completed
  · simpa [htracker, Happening.refused?] using hw.rejected
  · simpa [htracker, Happening.refused?] using hw.late
  · exact htracker ▸ hw.asked
  · simp only [htracker, hrunning, List.length_append, List.length_singleton]
    omega
  · rw [hrunning, List.map_append, List.map_singleton]
    refine List.nodup_append.mpr ⟨hw.workers, List.pairwise_singleton .., fun v hv v' hv' => ?_⟩
    obtain ⟨r, hr, rfl⟩ := List.mem_map.mp hv
    cases List.mem_singleton.mp hv'
    exact hfree r hr
  · rw [htracker]
    refine hw.flying.perm (List.perm_iff_count.mpr fun n => ?_)
    have hcount := (hwaiting.map Invocation.seq).count_eq n
    simp only [unsettled, hrunning, List.map_append, List.map_cons, List.map_nil,
      List.count_append, List.count_cons, List.count_nil] at hcount ⊢
    omega

theorem Counted.goOn (hw : Counted w) (worker : Nat) (content : Duty κ α) :
    Counted { w with pool := w.pool.goOn worker content } := by
  have hworkers : (w.pool.goOn worker content).running.map Prod.fst =
      w.pool.running.map Prod.fst := by
    rw [Pool.goOn, List.map_map]
    refine List.map_congr_left fun r _ => ?_
    by_cases hr : r.1 = worker <;> simp [hr]
  have hseqs : ((w.pool.goOn worker content).running.map fun r => r.2.seq) =
      w.pool.running.map fun r => r.2.seq := by
    rw [Pool.goOn, List.map_map]
    refine List.map_congr_left fun r _ => ?_
    by_cases hr : r.1 = worker <;> simp [hr]
  refine ⟨hw.numbered, hw.known, hw.attempted, hw.dispatched, hw.completed, hw.rejected, hw.late,
    hw.asked, ?_, hworkers ▸ hw.workers, ?_⟩
  · have hlength := congrArg List.length hworkers
    rw [List.length_map, List.length_map] at hlength
    show _ = _ + _ + (w.pool.goOn worker content).running.length
    rw [hlength]
    exact hw.settled
  · have hsame : unsettled { w with pool := w.pool.goOn worker content } = w.unsettled := by
      show _ ++ _ ++ _ = _ ++ _ ++ _
      rw [hseqs]
      rfl
    rw [hsame]
    exact hw.flying

theorem Counted.finish (hw : Counted w) {worker : Nat} {failed : Bool}
    {i : Invocation (Duty κ α)} {history : List (Happening κ α)}
    (h : w.pool.runningAt? worker = some i)
    (haccepted : accepted history = accepted w.history)
    (hrefused : refused history = refused w.history)
    (hfinished : finished history = finished w.history ++ [(worker, i.job)]) :
    Counted { w with pool := w.pool.finish worker failed, history } := by
  obtain ⟨hrunning, htracker⟩ := Pool.running_finish h hw.workers failed
  have hsettled := hw.settled
  rw [hrunning.length_eq, List.length_cons] at hsettled
  refine ⟨fun hopen => ?_, ?_, fun j hj => ?_, ?_, ?_, ?_, ?_, ?_, ?_, ?_, ?_⟩
  · rw [Pool.closed_finish] at hopen
    rw [htracker]
    exact hw.numbered hopen
  · rw [htracker]
    exact hw.known
  · rw [htracker]
    exact hw.attempted j hj
  · rw [htracker, haccepted]
    exact hw.dispatched
  · rw [htracker, hfinished, List.length_append, ← hw.completed]
    rfl
  · rw [htracker, refusedBefore, hrefused]
    exact hw.rejected
  · rw [htracker, hrefused]
    exact hw.late
  · rw [htracker]
    exact hw.asked
  · rw [htracker, Pool.waiting_finish]
    show w.pool.tracker.dispatched = w.pool.tracker.completed + 1 + w.pool.waiting.length +
      (w.pool.finish worker failed).running.length
    omega
  · exact (List.nodup_cons.mp ((hrunning.map Prod.fst).nodup_iff.mp hw.workers)).2
  · rw [htracker]
    have hperm : w.unsettled.Perm
        (i.seq :: unsettled { w with pool := w.pool.finish worker failed, history }) := by
      refine List.perm_iff_count.mpr fun n => ?_
      have hcount := (hrunning.map fun r => r.2.seq).count_eq n
      simp only [unsettled, Pool.waiting_finish, List.map_cons, List.count_append,
        List.count_cons] at hcount ⊢
      omega
    exact (hw.flying.perm hperm).settle rfl rfl

theorem Counted.step (hw : Counted w) (h : Step rules w w') : Counted w' := by
  cases h with
  | refuse hclosed key work => exact hw.refuse hclosed key work
  | attempt hopen key work h => exact hw.attempt hopen key work h
  | accept h _ => exact hw.accept h
  | giveUp h => exact hw.giveUp h
  | take _ h => exact hw.take h (Pool.taken_of_take? h).closed
  | report h hjob _ _ => exact hw.goOn _ _
  | finish h hjob _ =>
      obtain rfl := congrArg Duty.job hjob
      refine hw.finish h ?_ ?_ ?_
      · simp [Happening.accepted?]
      · simp [Happening.refused?]
      · rw [finished_concat]
        rfl
  | finishReport h hjob _ =>
      obtain rfl := congrArg Duty.job hjob
      rw [List.append_cons]
      refine hw.finish h ?_ ?_ ?_
      · rw [accepted_concat, accepted_concat]
        simp [Happening.accepted?]
      · rw [refused_concat, refused_concat]
        simp [Happening.refused?]
      · rw [finished_concat, finished_concat]
        simp [Happening.finished?]
        rfl
  | shutdown =>
      exact ⟨Bool.noConfusion, hw.known, hw.attempted, hw.dispatched, hw.completed, hw.rejected,
        hw.late, hw.asked, hw.settled, hw.workers, hw.flying⟩
  | turn | leave =>
      exact ⟨hw.numbered, hw.known, hw.attempted, hw.dispatched, hw.completed, hw.rejected,
        hw.late, hw.asked, hw.settled, hw.workers, hw.flying⟩

theorem Reachable.counted (hw : Reachable rules config w) : Counted w := by
  induction hw with
  | opening h => exact counted_opening h
  | step _ h ih => exact ih.step h

/-! ## Room for the counts -/

/-- A job that fails is done. -/
theorem Step.failed_le (h : Step rules w w')
    (hle : w.pool.tracker.failed ≤ w.pool.tracker.completed) :
    w'.pool.tracker.failed ≤ w'.pool.tracker.completed := by
  cases h with
  | refuse | accept | giveUp | report | shutdown | turn | leave => exact hle
  | attempt _ _ _ h =>
      cases h
      exact hle
  | take _ h =>
      rw [(Pool.waiting_take? h).2.2.2]
      exact hle
  | finish | finishReport =>
      show (Pool.finish ..).tracker.failed ≤ (Pool.finish ..).tracker.completed
      unfold Pool.finish
      split
      · exact hle
      · simp only [Tracker.finish]
        split <;> omega

theorem Reachable.failed_le (hw : Reachable rules config w) :
    w.pool.tracker.failed ≤ w.pool.tracker.completed := by
  induction hw with
  | opening h =>
      obtain ⟨rfl, -⟩ := Pool.create_ok h
      exact Nat.le_refl 0
  | step _ h ih => exact h.failed_le ih

/-- No counter runs over as long as the pool was called fewer than `2 ^ 64` times. -/
theorem Reachable.fits (hw : Reachable rules config w) (hcalls : w.calls < UInt64.size) :
    w.pool.tracker.Fits := by
  have hknown := hw.counted.known
  have hasked := hw.counted.asked
  have hsettled := hw.counted.settled
  have hfailed := hw.failed_le
  constructor <;> omega

/-! ## The end of the counting -/

/-- A closed pool stays closed, and no call gets a number from it. -/
theorem Step.nextSeq_of_closed (h : Step rules w w') (hclosed : w.pool.closed = true) :
    w'.pool.closed = true ∧ w'.pool.tracker.nextSeq = w.pool.tracker.nextSeq := by
  cases h with
  | refuse | accept | giveUp | report | turn | leave => exact ⟨hclosed, rfl⟩
  | attempt hopen => exact absurd (hclosed.symm.trans hopen) Bool.noConfusion
  | take _ h =>
      exact ⟨(Pool.taken_of_take? h).closed.trans hclosed,
        congrArg Tracker.nextSeq (Pool.waiting_take? h).2.2.2⟩
  | finish | finishReport =>
      refine ⟨(Pool.closed_finish ..).trans hclosed, ?_⟩
      show (Pool.finish ..).tracker.nextSeq = _
      unfold Pool.finish
      split <;> rfl
  | shutdown => exact ⟨rfl, rfl⟩

/-- Only a shutdown closes a pool. -/
theorem Step.eq_shutdown (h : Step rules w w') (hopen : w.pool.closed = false)
    (hclosed : w'.pool.closed = true) : w' = { w with pool := w.pool.shutdown } := by
  have hdiffer : w'.pool.closed ≠ w.pool.closed := by simp [hopen, hclosed]
  cases h with
  | refuse | accept | giveUp | report | turn | leave => exact absurd rfl hdiffer
  | attempt _ _ _ h =>
      cases h
      exact absurd rfl hdiffer
  | take _ h => exact absurd (Pool.taken_of_take? h).closed hdiffer
  | finish | finishReport => exact absurd (Pool.closed_finish ..) hdiffer
  | shutdown => rfl

/-- From the shutdown on, what is done in a workshop. -/
def Since (rules : Rules κ α) (w w' : Workshop κ α) : Prop :=
  Relation.ReflTransGen (Step rules) { w with pool := w.pool.shutdown } w'

theorem Since.nextSeq (h : Since rules w w') :
    w'.pool.closed = true ∧ w'.pool.tracker.nextSeq = w.pool.tracker.nextSeq := by
  induction h with
  | refl => exact ⟨rfl, rfl⟩
  | tail _ hlast ih =>
      obtain ⟨hclosed, hsame⟩ := hlast.nextSeq_of_closed ih.1
      exact ⟨hclosed, hsame.trans ih.2⟩

theorem Reachable.since (hw : Reachable rules config w) (h : Since rules w w') :
    Reachable rules config w' := by
  induction h with
  | refl => exact hw.step .shutdown
  | tail _ hlast ih => exact ih.step hlast

/-- A closed pool was shut down at some time. -/
theorem Reachable.exists_since (hw : Reachable rules config w) (hclosed : w.pool.closed = true) :
    ∃ w₀, Reachable rules config w₀ ∧ w₀.pool.closed = false ∧ Since rules w₀ w := by
  induction hw with
  | opening h =>
      obtain ⟨rfl, -⟩ := Pool.create_ok h
      cases hclosed
  | @step w w' hw h ih =>
      cases hbefore : w.pool.closed with
      | true =>
          obtain ⟨w₀, hw₀, hopen, hsince⟩ := ih hbefore
          exact ⟨w₀, hw₀, hopen, hsince.tail h⟩
      | false =>
          obtain rfl := h.eq_shutdown hbefore hclosed
          exact ⟨w, hw, hbefore, .refl⟩

/-- When no call is being made, `dispatched` is the number of calls that were accepted, and it is
`completed` if nothing is in flight.  As long as the pool is open `rejected` is the number of calls
that were refused, so that every call is counted once.  From its shutdown on, whatever is still
done, `rejected` is the number of refused calls that were made before it: these and the accepted
ones are the calls made before it, and every later call is refused and not counted. -/
theorem attempts_counted_until_shutdown (hw : Reachable rules config w) :
    (w.attempts = [] →
      w.pool.tracker.dispatched = (accepted w.history).length ∧
      (w.pool.tracker.inFlight = [] →
        w.pool.tracker.dispatched = w.pool.tracker.completed)) ∧
    (w.pool.closed = false →
      (w.attempts = [] →
        w.pool.tracker.rejected = (refused w.history).length ∧
        w.pool.tracker.dispatched + w.pool.tracker.rejected = w.calls) ∧
      ∀ w', Since rules w w' → w'.attempts = [] →
        w'.pool.tracker.rejected = refusedBefore w.calls w'.history ∧
        w'.pool.tracker.dispatched + w'.pool.tracker.rejected = w.calls ∧
        (refused w'.history).length = w'.pool.tracker.rejected + (w'.calls - w.calls)) ∧
    (w.pool.closed = true →
      ∃ w₀, Reachable rules config w₀ ∧ w₀.pool.closed = false ∧ Since rules w₀ w) := by
  have hcounted := hw.counted
  refine ⟨fun hnone => ⟨hcounted.dispatched, fun hquiet => ?_⟩, fun hopen => ⟨fun hnone => ?_,
    fun w' hsince hnone => ?_⟩, hw.exists_since⟩
  · have hseqs : w.unsettled = [] := hcounted.flying.eq_nil hquiet
    have hlength := congrArg List.length hseqs
    simp only [unsettled, List.length_append, List.length_map, List.length_nil] at hlength
    have hsettled := hcounted.settled
    omega
  · have hnumbered := hcounted.numbered hopen
    have hlate := hcounted.late
    have hasked := hcounted.asked
    rw [hnone, List.length_nil] at hasked
    omega
  · have hafter := (hw.since hsince).counted
    have hnumbered : w'.pool.tracker.nextSeq = w.calls :=
      hsince.nextSeq.2.trans (hcounted.numbered hopen)
    have hasked := hafter.asked
    rw [hnone, List.length_nil, Nat.add_zero, hnumbered] at hasked
    exact ⟨hnumbered ▸ hafter.rejected, hasked, hnumbered ▸ hafter.late⟩

/-- One worker and one place in the queue.  A call is accepted and its job runs; a second one
finds no room for long enough to see the shutdown, and then there is room; a third one gives up,
and a fourth one comes too late. -/
theorem attempts_counted_until_shutdown_waiting :
    let rules : Rules Nat Bool := ⟨id, id, none⟩
    let config : DispatcherConfig := { workers := 1, queueDepth := 1 }
    ∃ w w' : Workshop Nat Bool, Reachable rules config w ∧ w.pool.closed = false ∧
      w.calls = 3 ∧ Since rules w w' ∧ w'.attempts = [] ∧
      w'.pool.tracker.rejected = 1 ∧ w'.pool.tracker.dispatched = 2 ∧
      w'.pool.tracker.completed = 2 ∧ (refused w'.history).length = 1 + 1 := by
  intro rules config
  have h : Reachable rules config (opening (.idle config)) := .opening rfl
  have h := h.step (.attempt rfl none false rfl)
  have h := h.step (@Step.accept _ _ _ _ [] [] _ rfl rfl)
  have h := h.step (.attempt rfl none true rfl)
  have hw := h.step (.attempt rfl none false rfl)
  have hshut : ∀ {w : Workshop Nat Bool}, Reachable rules config w →
      Since rules w { w with pool := w.pool.shutdown } := fun _ => .refl
  have h := hshut hw
  have h := h.tail (@Step.giveUp _ _ _ _ [_] [] _ rfl)
  have h := h.tail (.refuse rfl none false)
  have h := h.tail (@Step.take _ _ _ _ 0 .shared _ _ rfl rfl)
  have h := h.tail (@Step.accept _ _ _ _ [] [] _ rfl rfl)
  have h := h.tail (@Step.finish _ _ _ _ 0 _ _ rfl rfl nofun)
  have h := h.tail (@Step.take _ _ _ _ 0 .shared _ _ rfl rfl)
  have h := h.tail (@Step.finish _ _ _ _ 0 _ _ rfl rfl fun _ => rfl)
  obtain ⟨-, hopen, -⟩ := attempts_counted_until_shutdown hw
  obtain ⟨-, hsince⟩ := hopen rfl
  obtain ⟨hrejected, hall, hrefused⟩ := hsince _ h rfl
  exact ⟨_, _, hw, rfl, rfl, h, rfl, hrejected, rfl, rfl, hrefused⟩

/-- A call that comes after the shutdown is refused, and no counter knows of it. -/
theorem late_attempt_uncounted :
    let rules : Rules Nat Bool := ⟨id, id, none⟩
    ¬ ∀ w : Workshop Nat Bool, Reachable rules .standard w → w.attempts = [] →
      w.pool.tracker.rejected = (refused w.history).length ∧
      w.pool.tracker.dispatched + w.pool.tracker.rejected = w.calls := by
  intro rules hcounted
  have h : Reachable rules .standard (opening (.idle .standard)) := .opening rfl
  have h := h.step .shutdown
  have h := h.step (.refuse rfl none false)
  have hnone := (hcounted _ h rfl).1
  cases hnone

end Workshop

end TaskFleet
