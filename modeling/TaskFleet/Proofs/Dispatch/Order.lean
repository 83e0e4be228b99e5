import Mathlib.Data.List.Nodup
import TaskFleet.Proofs.Dispatch.Workshop

/-!
# Once each, and in order

What is accepted for one queue is started in the order in which it was accepted, since a
queue is taken from at its head.  Where one worker alone serves the queue, this orders more
than the starts: the worker is free when it takes a job, so whatever it had started before
is finished (`Accounts.finished_of_precedes`).  A key has one queue, and unless a worker is
alone this is a lane.

That nothing is left behind rests on the stations.  A worker that drains a queue has found
its other one exhausted, a worker that has gone has found both exhausted, and an exhausted
queue stays so (`Exhausted.step`).
-/

namespace TaskFleet.Workshop

variable {κ α : Type} {rules : Rules κ α} {config : DispatcherConfig} {w w' : Workshop κ α}
  {history : List (Happening κ α)} {e : Happening κ α}

/-! ## Order within the history -/

theorem mem_accepted_iff {job : Job κ α} :
    job ∈ accepted history ↔ .accepted job ∈ history := by
  rw [accepted, List.mem_filterMap]
  constructor
  · rintro ⟨e, he, hjob⟩
    cases e <;> cases hjob
    exact he
  · exact fun h => ⟨_, h, rfl⟩

theorem mem_started_iff {v : Nat} {job : Job κ α} :
    (v, job) ∈ started history ↔ .started v job ∈ history := by
  rw [started, List.mem_filterMap]
  constructor
  · rintro ⟨e, he, hjob⟩
    cases e <;> cases hjob
    exact he
  · exact fun h => ⟨_, h, rfl⟩

theorem mem_finished_iff {v : Nat} {job : Job κ α} :
    (v, job) ∈ finished history ↔ ∃ failed, .finished v job failed ∈ history := by
  rw [finished, List.mem_filterMap]
  constructor
  · rintro ⟨e, he, hjob⟩
    cases e <;> cases hjob
    exact ⟨_, he⟩
  · exact fun ⟨failed, h⟩ => ⟨_, h, rfl⟩

theorem mem_started_concat {v : Nat} {job : Job κ α} :
    (v, job) ∈ started (history ++ [e]) ↔ (v, job) ∈ started history ∨ e = .started v job := by
  rw [mem_started_iff, mem_started_iff, List.mem_append, List.mem_singleton]
  exact or_congr_right eq_comm

theorem mem_finished_concat {v : Nat} {job : Job κ α} :
    (v, job) ∈ finished (history ++ [e]) ↔
      (v, job) ∈ finished history ∨ ∃ failed, e = .finished v job failed := by
  rw [mem_finished_iff, mem_finished_iff, ← exists_or]
  refine exists_congr fun failed => ?_
  rw [List.mem_append, List.mem_singleton]
  exact or_congr_right eq_comm

/-- Two jobs wait in the same queue, and one worker alone takes from it. -/
structure Successive (rules : Rules κ α) (config : DispatcherConfig) (a b : Job κ α) : Prop where
  place : rules.place config a = rules.place config b
  alone : ∀ u v, u < config.workers.toNat → v < config.workers.toNat →
    Pool.serves u (rules.place config b) = true → Pool.serves v (rules.place config b) = true →
    u = v

/-- What has to have happened before something can happen. -/
def Fits (rules : Rules κ α) (config : DispatcherConfig) (history : List (Happening κ α)) :
    Happening κ α → Prop
  | .accepted job => ∀ v, (v, job) ∉ started history
  | .started v job => job ∈ accepted history ∧ ∀ a, [a, job].Sublist (accepted history) →
      Successive rules config a job → (v, a) ∈ finished history
  | .finished v job _ => (v, job) ∈ started history
  | .refused _ | .reported _ _ _ => True

/-- Jobs are started after they were accepted and finished after they were started, and of
two successive jobs the second is started when the first is finished. -/
structure Ordered (rules : Rules κ α) (config : DispatcherConfig)
    (history : List (Happening κ α)) : Prop where
  accepted_first : ∀ v job, (v, job) ∈ started history →
    [.accepted job, .started v job].Sublist history
  started_first : ∀ v job, (v, job) ∈ finished history →
    ∃ failed, [.started v job, .finished v job failed].Sublist history
  finished_first : ∀ a b v, [a, b].Sublist (accepted history) → Successive rules config a b →
    (v, b) ∈ started history →
    ∃ failed, [.started v a, .finished v a failed, .started v b].Sublist history

theorem ordered_nil : Ordered rules config ([] : List (Happening κ α)) :=
  ⟨nofun, nofun, nofun⟩

private theorem sublist_of_pair_concat {β : Type} {a b c : β} {bs : List β}
    (h : [a, b].Sublist (bs ++ [c])) (hne : b ≠ c) : [a, b].Sublist bs := by
  obtain ⟨front, back, heq, hfront, hback⟩ := List.sublist_append_iff.mp h
  cases back with
  | nil =>
      rw [List.append_nil] at heq
      exact heq ▸ hfront
  | cons d back =>
      have hlast : (front ++ d :: back).getLast? = some b := heq ▸ rfl
      have hmem : b ∈ d :: back := by
        rw [List.getLast?_append_of_ne_nil _ (List.cons_ne_nil d back)] at hlast
        exact List.mem_of_getLast? hlast
      exact absurd (List.mem_singleton.mp (hback.mem hmem)) hne

/-- Only an acceptance changes which pairs of jobs were accepted in which order. -/
private theorem pair_of_pair_concat {a b : Job κ α}
    (h : [a, b].Sublist (accepted (history ++ [e]))) (hne : e ≠ .accepted b) :
    [a, b].Sublist (accepted history) := by
  rw [accepted_concat] at h
  cases e with
  | accepted job => exact sublist_of_pair_concat h fun heq => hne (heq ▸ rfl)
  | refused | started | reported | finished => exact List.append_nil (accepted history) ▸ h

theorem Ordered.concat (h : Ordered rules config history) (he : Fits rules config history e) :
    Ordered rules config (history ++ [e]) := by
  have hgrow : history.Sublist (history ++ [e]) := List.sublist_append_left ..
  refine ⟨fun v job hjob => ?_, fun v job hjob => ?_, fun a b v hpair hsuccessive hb => ?_⟩
  · rcases mem_started_concat.mp hjob with hjob | rfl
    · exact (h.accepted_first v job hjob).trans hgrow
    · have haccepted := List.singleton_sublist.mpr (mem_accepted_iff.mp he.1)
      exact haccepted.append (List.Sublist.refl _)
  · rcases mem_finished_concat.mp hjob with hjob | ⟨failed, rfl⟩
    · obtain ⟨failed, hdone⟩ := h.started_first v job hjob
      exact ⟨failed, hdone.trans hgrow⟩
    · have hstarted := List.singleton_sublist.mpr (mem_started_iff.mp he)
      exact ⟨failed, hstarted.append (List.Sublist.refl _)⟩
  · rcases mem_started_concat.mp hb with hold | rfl
    · -- a job that was started is not accepted again
      have hne : e ≠ .accepted b := by
        rintro rfl
        exact he v hold
      obtain ⟨failed, hdone⟩ :=
        h.finished_first a b v (pair_of_pair_concat hpair hne) hsuccessive hold
      exact ⟨failed, hdone.trans hgrow⟩
    · have hbefore := pair_of_pair_concat hpair (by exact nofun)
      obtain ⟨failed, hdone⟩ := h.started_first v a (he.2 a hbefore hsuccessive)
      exact ⟨failed, hdone.append (List.Sublist.refl _)⟩

/-! ## Every step keeps the order -/

theorem Accounts.nodup_accepted (hw : Accounts rules config w) : (accepted w.history).Nodup := by
  refine List.Nodup.of_map Job.number (List.nodup_iff_count_le_one.mpr fun n => ?_)
  have hcalls := hw.calls n
  have hle : tally n (accepted w.history) ≤ 1 := by
    split at hcalls <;> omega
  exact hle

theorem tally_pos {job : Job κ α} {jobs : List (Job κ α)} (h : job ∈ jobs) :
    0 < tally job.number jobs :=
  List.count_pos_iff.mpr (List.mem_map_of_mem h)

/-- A job that is still being asked for, or that was refused, was not accepted. -/
theorem Accounts.not_accepted (hw : Accounts rules config w) {job : Job κ α}
    (h : job ∈ refused w.history ∨ job ∈ w.attempts.map Invocation.job) :
    job ∉ accepted w.history := by
  intro haccepted
  have hcalls := hw.calls job.number
  have hpos := tally_pos haccepted
  have hother : 0 < tally job.number (refused w.history) +
      tally job.number (w.attempts.map Invocation.job) := by
    rcases h with h | h
    · have := tally_pos h
      omega
    · have := tally_pos h
      omega
  split at hcalls <;> omega

theorem mem_jobsAt_iff {d : Destination} {job : Job κ α} {jobs : List (Job κ α)} :
    job ∈ jobsAt rules config d jobs ↔ job ∈ jobs ∧ rules.place config job = d := by
  rw [jobsAt, List.mem_filter, decide_eq_true_iff]

theorem mem_jobsOf_iff {v : Nat} {r : Nat × Job κ α} {jobs : List (Nat × Job κ α)} :
    r ∈ jobsOf v jobs ↔ r ∈ jobs ∧ r.1 = v := by
  rw [jobsOf, List.mem_filter, decide_eq_true_iff]

theorem Accounts.accepted_of_started (hw : Accounts rules config w) {v : Nat} {job : Job κ α}
    (h : (v, job) ∈ started w.history) : job ∈ accepted w.history := by
  have hmem : job ∈ (started w.history).map Prod.snd := List.mem_map_of_mem h
  have hat : job ∈ jobsAt rules config (rules.place config job) (accepted w.history) := by
    rw [hw.queues]
    exact List.mem_append_left _ (mem_jobsAt_iff.mpr ⟨hmem, rfl⟩)
  exact (mem_jobsAt_iff.mp hat).1

theorem Accounts.started_of_running (hw : Accounts rules config w) {v : Nat}
    {i : Invocation (Duty κ α)} (h : w.pool.runningAt? v = some i) :
    (v, i.job) ∈ started w.history := by
  have hmem : (v, i.job) ∈ jobsOf v (started w.history) := by
    rw [hw.running, h]
    exact List.mem_append_right _ List.mem_cons_self
  exact (mem_jobsOf_iff.mp hmem).1

private theorem mem_of_pair_sublist {β : Type} {a b : β} {front back : List β}
    (h : [a, b].Sublist (front ++ b :: back)) (hnodup : (front ++ b :: back).Nodup) :
    a ∈ front := by
  obtain ⟨l, l', heq, hfront, hback⟩ := List.sublist_append_iff.mp h
  cases l with
  | cons c l =>
      have hc : a = c := (List.cons.inj heq).1
      exact hc ▸ hfront.mem List.mem_cons_self
  | nil =>
      -- then `b` comes after `b`
      have hpair : [a, b].Sublist (b :: back) := heq ▸ hback
      have hmem : b ∈ back := by
        cases hpair with
        | cons _ h => exact h.mem (by simp)
        | cons_cons _ h => exact h.mem List.mem_cons_self
      have hne := (List.nodup_cons.mp (List.nodup_append.mp hnodup).2.1).1
      exact absurd hmem hne

/-- When a worker takes a job, it has finished every job that was accepted earlier for a
queue from which it alone takes. -/
theorem Accounts.finished_of_precedes (hw : Accounts rules config w) {worker : Nat}
    {d : Destination} {i : Invocation (Duty κ α)} {pool : Pool (Duty κ α)}
    (h : Pool.Taken w.pool pool worker d i) {a : Job κ α}
    (hpair : [a, i.job].Sublist (accepted w.history))
    (hsuccessive : Successive rules config a i.job) : (worker, a) ∈ finished w.history := by
  obtain ⟨hwaiting, hd⟩ := Pool.mem_queue_iff.mp h.mem_queue
  have hplace : rules.place config i.job = d := hw.waiting i hwaiting ▸ hd
  obtain ⟨hworker, hidle⟩ := Pool.isFree_iff.mp h.free
  -- the job is the head of the queue, so whatever comes before it was started
  have hstarted : a ∈ (started w.history).map Prod.snd := by
    have hat : [a, i.job].Sublist (jobsAt rules config d (accepted w.history)) := by
      have hfilter := hpair.filter fun job => decide (rules.place config job = d)
      simpa [jobsAt, hplace, hsuccessive.place] using hfilter
    have hnodup : (jobsAt rules config d (accepted w.history)).Nodup :=
      hw.nodup_accepted.filter _
    rw [hw.queues, h.queue, List.map_cons] at hat hnodup
    exact (mem_jobsAt_iff.mp (mem_of_pair_sublist hat hnodup)).1
  obtain ⟨⟨u, job⟩, hu, rfl⟩ := List.mem_map.mp hstarted
  -- it was this worker that started it, and the worker is free
  have hsame : u = worker := by
    obtain ⟨hlt, hserves⟩ := hw.served _ hu
    rw [hsuccessive.place] at hserves
    exact hsuccessive.alone u worker hlt (hw.settings ▸ hworker) hserves (hplace ▸ h.serves)
  have hof : (u, job) ∈ jobsOf worker (started w.history) := mem_jobsOf_iff.mpr ⟨hu, hsame⟩
  rw [hw.running, hidle] at hof
  rw [← hsame]
  exact (mem_jobsOf_iff.mp (by simpa using hof)).1

theorem Ordered.step (hordered : Ordered rules config w.history) (hw : Accounts rules config w)
    (h : Step rules w w') : Ordered rules config w'.history := by
  cases h with
  | refuse _ key work => exact hordered.concat trivial
  | attempt _ key work h => exact hordered
  | accept h _ =>
      refine hordered.concat fun v hv => ?_
      refine hw.not_accepted (.inr ?_) (hw.accepted_of_started hv)
      exact List.mem_map_of_mem (by simp [h])
  | giveUp h => exact hordered.concat trivial
  | take _ h =>
      have htaken := Pool.taken_of_take? h
      refine hordered.concat ⟨?_, fun a hpair hsuccessive => ?_⟩
      · have hafter := (hw.take htaken).accepted_of_started
          (mem_started_concat.mpr (.inr rfl))
        simpa [Happening.accepted?] using hafter
      · exact hw.finished_of_precedes htaken hpair hsuccessive
  | report h _ _ _ => exact hordered
  | finish h hjob _ =>
      obtain rfl := congrArg Duty.job hjob
      exact hordered.concat (hw.started_of_running h)
  | finishReport h hjob _ =>
      obtain rfl := congrArg Duty.job hjob
      rw [List.append_cons]
      refine Ordered.concat (Ordered.concat hordered ?_) ?_
      · trivial
      · exact mem_started_concat.mpr (.inl (hw.started_of_running h))
  | shutdown | turn | leave => exact hordered

theorem Reachable.ordered (hw : Reachable rules config w) : Ordered rules config w.history := by
  induction hw with
  | opening h => exact ordered_nil
  | step hw h ih => exact ih.step hw.accounts h

/-! ## Nothing is left behind -/

theorem Shut.step {d : Destination} (hd : w.Shut d) (h : Step rules w w') : w'.Shut d := by
  obtain ⟨hclosed, hreleased⟩ := hd
  have hrest : ∀ {before after : List (Invocation (Duty κ α))} {i : Invocation (Duty κ α)},
      w.attempts = before ++ i :: after → ∀ j ∈ before ++ after, j.destination ≠ d := by
    intro before after i heq j hj
    exact hreleased j (heq ▸ mem_of_mem_without hj)
  cases h with
  | refuse | report | turn | leave => exact ⟨hclosed, hreleased⟩
  | attempt hopen =>
      rw [hclosed] at hopen
      cases hopen
  | accept h | giveUp h => exact ⟨hclosed, hrest h⟩
  | take _ h => exact ⟨(Pool.taken_of_take? h).closed.trans hclosed, hreleased⟩
  | finish | finishReport => exact ⟨(Pool.closed_finish ..).trans hclosed, hreleased⟩
  | shutdown => exact ⟨rfl, hreleased⟩

/-- Nobody holds on to an exhausted queue, so nothing can come into it. -/
theorem Exhausted.step {d : Destination} (hd : w.Exhausted d) (h : Step rules w w') :
    w'.Exhausted d := by
  refine ⟨hd.shut.step h, ?_⟩
  have hempty := hd.empty
  cases h with
  | refuse | report | turn | leave | giveUp | shutdown => exact hempty
  | attempt hopen _ _ h =>
      rw [hd.shut.closed] at hopen
      cases hopen
  | accept h _ =>
      have hne := hd.shut.released _ (h ▸ List.mem_append_right _ List.mem_cons_self)
      rw [Pool.queue_accept, if_neg hne]
      exact hempty
  | take _ h =>
      have htaken := Pool.taken_of_take? h
      by_cases hsame : d = ‹Destination›
      · rw [hsame, htaken.queue] at hempty
        cases hempty
      · rw [htaken.others d hsame]
        exact hempty
  | finish | finishReport =>
      rw [Pool.queue_finish]
      exact hempty

/-- What workers know when they are in the second half of their loop, and after it. -/
structure Stationed (config : DispatcherConfig) (w : Workshop κ α) : Prop where
  draining : ∀ v d, w.station v = .draining d →
    ∀ d', Reads config v d' → d' ≠ d → w.Exhausted d'
  idle : ∀ v, w.station v = .gone → w.pool.runningAt? v = none
  gone : ∀ v, w.station v = .gone → ∀ d, Reads config v d → w.Exhausted d

theorem stationed_opening {pool : Pool (Duty κ α)} (h : Pool.create config = .ok pool) :
    Stationed config (opening pool) := by
  obtain ⟨rfl, -⟩ := Pool.create_ok h
  have hstation : ∀ v, (opening (Pool.idle config : Pool (Duty κ α))).station v =
      if 1 < config.workers.toNat then .choosing else .draining .shared := fun _ => rfl
  refine ⟨fun v d hv d' hd' hne => ?_, fun v hv => ?_, fun v hv => ?_⟩
  · rw [hstation] at hv
    split at hv
    · cases hv
    · next halone =>
      -- a worker that is alone has no other queue
      cases hv
      rcases hd' with rfl | ⟨hmany, -⟩
      · exact absurd rfl hne
      · exact absurd hmany halone
  · rw [hstation] at hv
    split at hv <;> cases hv
  · rw [hstation] at hv
    split at hv <;> cases hv

/-- A worker reads two queues at most. -/
theorem eq_of_reads {v : Nat} {d d' d'' : Destination} (hd : Reads config v d)
    (hd' : Reads config v d') (hne : d ≠ d') (hd'' : Reads config v d'') (hne' : d'' ≠ d') :
    d'' = d := by
  rcases hd with rfl | ⟨-, rfl⟩ <;> rcases hd' with rfl | ⟨-, rfl⟩ <;>
    rcases hd'' with rfl | ⟨-, rfl⟩ <;> first | rfl | exact absurd rfl hne | exact absurd rfl hne'

/-- Where workers keep their place, nothing that they know is lost. -/
private theorem Stationed.stay (hs : Stationed config w) (h : Step rules w w')
    (hstation : w'.station = w.station)
    (hrunning : ∀ v, w.station v = .gone → w.pool.runningAt? v = none →
      w'.pool.runningAt? v = none) : Stationed config w' where
  draining v d hv d' hd' hne := by
    rw [hstation] at hv
    exact (hs.draining v d hv d' hd' hne).step h
  idle v hv := by
    rw [hstation] at hv
    exact hrunning v hv (hs.idle v hv)
  gone v hv d hd := by
    rw [hstation] at hv
    exact (hs.gone v hv d hd).step h

/-- Where one worker changes its place, it has to know what belongs to the new one. -/
private theorem Stationed.move (hs : Stationed config w) (h : Step rules w w') {worker : Nat}
    {place : Station} (hstation : w'.station = Function.update w.station worker place)
    (hrunning : ∀ v, w.station v = .gone → w.pool.runningAt? v = none →
      w'.pool.runningAt? v = none)
    (hdraining : ∀ d, place = .draining d →
      ∀ d', Reads config worker d' → d' ≠ d → w.Exhausted d')
    (hidle : place = .gone → w'.pool.runningAt? worker = none)
    (hgone : place = .gone → ∀ d, Reads config worker d → w.Exhausted d) :
    Stationed config w' where
  draining v d hv d' hd' hne := by
    refine Exhausted.step ?_ h
    rw [hstation, Function.update_apply] at hv
    split at hv
    · next hsame => exact hdraining d hv d' (hsame ▸ hd') hne
    · exact hs.draining v d hv d' hd' hne
  idle v hv := by
    rw [hstation, Function.update_apply] at hv
    split at hv
    · next hsame => exact hsame ▸ hidle hv
    · exact hrunning v hv (hs.idle v hv)
  gone v hv d hd := by
    refine Exhausted.step ?_ h
    rw [hstation, Function.update_apply] at hv
    split at hv
    · next hsame => exact hgone hv d (hsame ▸ hd)
    · exact hs.gone v hv d hd

theorem Stationed.step (hs : Stationed config w) (hw : Accounts rules config w)
    (h : Step rules w w') : Stationed config w' := by
  have hstep := h
  cases h with
  | refuse | accept | giveUp | shutdown => exact hs.stay hstep rfl fun _ _ hidle => hidle
  | attempt _ _ _ h =>
      cases h
      exact hs.stay hstep rfl fun _ _ hidle => hidle
  | take hplace h =>
      have htaken := Pool.taken_of_take? h
      refine hs.stay hstep rfl fun v hv hidle => ?_
      show Pool.runningAt? _ v = none
      rw [htaken.running]
      split
      · next hsame =>
        rw [← hsame, hv] at hplace
        exact hplace.elim
      · exact hidle
  | report =>
      refine hs.stay hstep rfl fun v _ hidle => ?_
      show Pool.runningAt? _ v = none
      rw [Pool.runningAt?_goOn, hidle]
      split <;> rfl
  | finish | finishReport =>
      refine hs.stay hstep rfl fun v _ hidle => ?_
      show Pool.runningAt? _ v = none
      rw [Pool.runningAt?_finish, hidle]
      split <;> rfl
  | turn _ _ hd hd' hne hexhausted =>
      rw [hw.settings] at hd hd'
      refine hs.move hstep rfl (fun _ _ hidle => hidle) ?_ nofun nofun
      intro c hc c' hc' hne'
      cases hc
      exact eq_of_reads hd hd' hne hc' hne' ▸ hexhausted
  | @leave worker d hfree hstation hexhausted =>
      refine hs.move hstep rfl (fun _ _ hidle => hidle) nofun
        (fun _ => (Pool.isFree_iff.mp hfree).2) fun _ c hc => ?_
      by_cases hcd : c = d
      · exact hcd ▸ hexhausted
      · exact hs.draining worker d hstation c hc hcd

theorem Reachable.stationed (hw : Reachable rules config w) : Stationed config w := by
  induction hw with
  | opening h => exact stationed_opening h
  | step hw h ih => exact ih.step hw.accounts h

/-- A queue that some job waits in is read by some worker. -/
theorem exists_reads (rules : Rules κ α) (hworkers : 0 < config.workers.toNat) (job : Job κ α) :
    ∃ v < config.workers.toNat, Reads config v (rules.place config job) := by
  unfold Rules.place
  cases job.key with
  | none => exact ⟨0, hworkers, .inl rfl⟩
  | some key =>
      rw [Option.map_some, Destination.ofHash]
      by_cases hmany : 1 < config.workers.toNat
      · rw [if_pos hmany]
        exact ⟨_, Nat.mod_lt _ hworkers, .inr ⟨hmany, rfl⟩⟩
      · rw [if_neg hmany]
        exact ⟨0, hworkers, .inl rfl⟩

theorem Reachable.workers_pos (hw : Reachable rules config w) : 0 < config.workers.toNat := by
  induction hw with
  | opening h => exact (Pool.create_ok h).2
  | step _ _ ih => exact ih

/-- When all workers have gone nothing waits. -/
theorem Reachable.waiting_eq_nil (hw : Reachable rules config w)
    (hgone : ∀ v < config.workers.toNat, w.station v = .gone) : w.pool.waiting = [] := by
  refine List.eq_nil_iff_forall_not_mem.mpr fun i hi => ?_
  obtain ⟨v, hv, hreads⟩ := exists_reads rules hw.workers_pos i.job
  rw [← hw.accounts.waiting i hi] at hreads
  have hempty := (hw.stationed.gone v (hgone v hv) _ hreads).empty
  have hmem : i ∈ w.pool.queue i.destination := Pool.mem_queue_iff.mpr ⟨hi, rfl⟩
  rw [hempty] at hmem
  cases hmem

/-- When all workers have gone nobody runs anything. -/
theorem Reachable.runningAt?_eq_none (hw : Reachable rules config w)
    (hgone : ∀ v < config.workers.toNat, w.station v = .gone) (v : Nat) :
    w.pool.runningAt? v = none := by
  cases hrun : w.pool.runningAt? v with
  | none => rfl
  | some i =>
      have hserved := hw.accounts.served _ (hw.accounts.started_of_running hrun)
      rw [hw.stationed.idle v (hgone v hserved.1)] at hrun
      cases hrun

/-- Two lists that agree class by class hold the same. -/
private theorem perm_of_filter {β γ : Type} [DecidableEq γ] {bs cs : List β} (f : β → γ)
    (h : ∀ c, (bs.filter fun b => decide (f b = c)) = cs.filter fun b => decide (f b = c)) :
    bs.Perm cs := by
  classical
  refine List.perm_iff_count.mpr fun b => ?_
  have hclass : ∀ l : List β, (l.filter fun b' => decide (f b' = f b)).count b = l.count b :=
    fun l => List.count_filter (decide_eq_true rfl)
  rw [← hclass bs, ← hclass cs, h]

/-- A list without repetitions in any class has none at all. -/
private theorem nodup_of_filter {β γ : Type} [DecidableEq γ] {bs : List β} (f : β → γ)
    (h : ∀ c, (bs.filter fun b => decide (f b = c)).Nodup) : bs.Nodup := by
  classical
  refine List.nodup_iff_count_le_one.mpr fun b => ?_
  have hclass : (bs.filter fun b' => decide (f b' = f b)).count b = bs.count b :=
    List.count_filter (decide_eq_true rfl)
  rw [← hclass]
  exact List.nodup_iff_count_le_one.mp (h (f b)) b

theorem Accounts.nodup_started (hw : Accounts rules config w) :
    ((started w.history).map Prod.snd).Nodup := by
  refine nodup_of_filter (rules.place config) fun d => ?_
  have hnodup : (jobsAt rules config d (accepted w.history)).Nodup := hw.nodup_accepted.filter _
  rw [hw.queues] at hnodup
  exact (List.nodup_append.mp hnodup).1

/-- Jobs with one key wait in one queue from which one worker takes, and if there is one
worker only all jobs do. -/
theorem successive_of (a b : Job κ α)
    (h : config.workers.toNat = 1 ∨ ∃ key, a.key = some key ∧ b.key = some key) :
    Successive rules config a b := by
  by_cases hmany : 1 < config.workers.toNat
  · obtain ⟨key, ha, hb⟩ := h.resolve_left (by omega)
    have hlane : ∀ job : Job κ α, job.key = some key →
        rules.place config job = .lane (rules.hash key % config.workers.toNat) := by
      intro job hjob
      rw [Rules.place, hjob, Option.map_some, Destination.ofHash, if_pos hmany]
    refine ⟨(hlane a ha).trans (hlane b hb).symm, fun u v _ _ hu hv => ?_⟩
    rw [hlane b hb] at hu hv
    exact (of_decide_eq_true hu).symm.trans (of_decide_eq_true hv)
  · have hshared : ∀ job : Job κ α, rules.place config job = .shared := by
      intro job
      unfold Rules.place
      cases job.key with
      | none => rfl
      | some key => rw [Option.map_some, Destination.ofHash, if_neg hmany]
    refine ⟨(hshared a).trans (hshared b).symm, fun u v hu hv _ _ => ?_⟩
    omega

/-- Whatever callers and workers do in whatever order, and whatever panics, a refused job is
not run and an accepted one is run once at most.  Of two jobs with one key, or of any two if
there is one worker only, the one that was accepted first is finished before the other one is
started.  When every worker has gone, every accepted job was started and finished, once. -/
theorem exactly_once_in_order (hw : Reachable rules config w) :
    (∀ job ∈ refused w.history, job ∉ accepted w.history ∧ ∀ v, (v, job) ∉ started w.history) ∧
    ((started w.history).map Prod.snd).Nodup ∧
    (∀ v job, .started v job ∈ w.history →
      [.accepted job, .started v job].Sublist w.history) ∧
    (∀ a b v, [.accepted a, .accepted b].Sublist w.history →
      (config.workers.toNat = 1 ∨ ∃ key, a.key = some key ∧ b.key = some key) →
      .started v b ∈ w.history →
      ∃ failed, [.started v a, .finished v a failed, .started v b].Sublist w.history) ∧
    ((∀ v < config.workers.toNat, w.station v = .gone) →
      ((started w.history).map Prod.snd).Perm (accepted w.history) ∧
      (finished w.history).Perm (started w.history)) := by
  have haccounts := hw.accounts
  have hordered := hw.ordered
  refine ⟨fun job hjob => ?_, haccounts.nodup_started, fun v job hjob => ?_,
    fun a b v hpair hkeys hb => ?_, fun hgone => ⟨?_, ?_⟩⟩
  · have hnot := haccounts.not_accepted (.inl hjob)
    exact ⟨hnot, fun v hv => hnot (haccounts.accepted_of_started hv)⟩
  · exact hordered.accepted_first v job (mem_started_iff.mpr hjob)
  · have haccepted : [a, b].Sublist (accepted w.history) := hpair.filterMap Happening.accepted?
    exact hordered.finished_first a b v haccepted (successive_of a b hkeys) (mem_started_iff.mpr hb)
  · refine perm_of_filter (rules.place config) fun d => ?_
    have hqueue : w.pool.queue d = [] := by
      rw [Pool.queue, hw.waiting_eq_nil hgone, List.filter_nil]
    have hqueues := haccounts.queues d
    rw [hqueue, List.map_nil, List.append_nil] at hqueues
    exact hqueues.symm
  · refine perm_of_filter Prod.fst fun v => ?_
    have hrunning := haccounts.running v
    rw [hw.runningAt?_eq_none hgone v, Option.toList_none, List.map_nil, List.append_nil] at hrunning
    exact hrunning.symm

/-- Two workers.  A job panics, and so does the hook that is told; a second one has the same
key, a third one finds the lane full and a fourth one comes after the end. -/
theorem exactly_once_in_order_two_workers :
    let rules : Rules Nat Bool := ⟨id, id, some fun _ => true⟩
    let config : DispatcherConfig := { workers := 2, queueDepth := 2 }
    let first : Job Nat Bool := ⟨0, some 1, true⟩
    let second : Job Nat Bool := ⟨1, some 1, false⟩
    ∃ w : Workshop Nat Bool, Reachable rules config w ∧
      refused w.history = [⟨2, some 1, false⟩, ⟨3, none, false⟩] ∧
      (∀ v < config.workers.toNat, w.station v = .gone) ∧
      (∃ failed, [.started 1 first, .finished 1 first failed, .started 1 second].Sublist
        w.history) ∧
      ((started w.history).map Prod.snd).Perm [first, second] := by
  intro rules config first second
  have h : Reachable rules config (opening (.idle config)) := .opening rfl
  have h := h.step (.attempt rfl (some 1) true rfl)
  have h := h.step (@Step.accept _ _ _ _ [] [] _ rfl rfl)
  have h := h.step (.attempt rfl (some 1) false rfl)
  have h := h.step (@Step.accept _ _ _ _ [] [] _ rfl rfl)
  have h := h.step (.attempt rfl (some 1) false rfl)
  have h := h.step (@Step.giveUp _ _ _ _ [] [] _ rfl)
  have h := h.step (@Step.take _ _ _ _ 1 (.lane 1) _ _ trivial rfl)
  have h := h.step .shutdown
  have h := h.step (.refuse rfl none false)
  have h := h.step (@Step.report _ _ _ _ 1 _ _ rfl rfl rfl (Option.some_ne_none _))
  have h := h.step (@Step.finishReport _ _ _ _ 1 _ _ _ rfl rfl rfl)
  have h := h.step (@Step.turn _ _ _ _ 0 (.lane 0) .shared rfl rfl (.inr ⟨by decide, rfl⟩)
    (.inl rfl) (by decide) ⟨⟨rfl, nofun⟩, rfl⟩)
  have h := h.step (@Step.leave _ _ _ _ 0 _ rfl rfl ⟨⟨rfl, nofun⟩, rfl⟩)
  have h := h.step (@Step.take _ _ _ _ 1 (.lane 1) _ _ trivial rfl)
  have h := h.step (@Step.finish _ _ _ _ 1 _ _ rfl rfl nofun)
  have h := h.step (@Step.turn _ _ _ _ 1 .shared (.lane 1) rfl rfl (.inl rfl)
    (.inr ⟨by decide, rfl⟩) (by decide) ⟨⟨rfl, nofun⟩, rfl⟩)
  have h := h.step (@Step.leave _ _ _ _ 1 _ rfl rfl ⟨⟨rfl, nofun⟩, rfl⟩)
  obtain ⟨-, -, -, horder, hgone⟩ := exactly_once_in_order h
  refine ⟨_, h, rfl, by decide, ?_, (hgone (by decide)).1⟩
  exact horder first second 1 (by decide) (.inr ⟨1, rfl, rfl⟩) (by decide)

end TaskFleet.Workshop
