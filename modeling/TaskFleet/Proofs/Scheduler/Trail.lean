import Mathlib.Data.List.SplitBy
import Mathlib.Data.List.Forall2
import TaskFleet.Proofs.Scheduler.Fate
import TaskFleet.Proofs.Scheduler.Filing
import TaskFleet.Proofs.Scheduler.Submission

/-!
# The trail agrees with the journal

The trail tells what was decided and the journal what follows from it.  They are written
apart, and not every decision is recorded or has an effect, so that they agree is not
plain: record for record and effect for effect, in the same order, each record names the
request, the task and the container of its effect (`Scheduler.Agrees`).

Most of it compares a decision with its own record.  The other facts that are needed are
about the past.  That a container is taken from its last holder is `Underway.holders`.
That a withdrawal goes with the record of a request that had been asked for, and that no
request is asked for or answered twice, is `Underway.filed`.
-/

namespace TaskFleet

/-! ## Histories with their past -/

/-- The elements of a list, each with all that precedes it. -/
def withPast {α : Type} (past : List α) : List α → List (List α × α)
  | [] => []
  | a :: as => (past, a) :: withPast (past ++ [a]) as

theorem withPast_append {α : Type} (past as bs : List α) :
    withPast past (as ++ bs) = withPast past as ++ withPast (past ++ as) bs := by
  induction as generalizing past with
  | nil => simp [withPast]
  | cons a as ih => simp [withPast, ih]

theorem mem_of_mem_withPast {α : Type} {past as : List α} {p : List α × α}
    (h : p ∈ withPast past as) : p.2 ∈ as := by
  induction as generalizing past with
  | nil => cases h
  | cons a as ih =>
      rcases List.mem_cons.mp h with rfl | h
      · exact List.mem_cons_self
      · exact List.mem_cons_of_mem _ (ih h)

/-! ## Effects that are recorded -/

/-- What is recorded under the action follows as an effect. -/
def AuditAction.isTold : AuditAction → Bool
  | allocated | reused | preempted | completed | released | unsolicited | lateAllocation => true
  | requested | withdrawn | idled => false

/-- The effect follows from a decision that is recorded. -/
def Effect.isTold : Effect → Bool
  | .notify (.taskAllocated _ _ _) | .notify (.containerBeingReleased _)
  | .notify (.containerCompleted _ _) | .call (.giveBack _) => true
  | _ => false

/-- The effects that are recorded, each with all that was decided before. -/
def toldEffects (past es : List Effect) : List (List Effect × Effect) :=
  (withPast past es).filter fun p => p.2.isTold

/-- The record of an effect. -/
inductive AuditRecord.Tells : AuditRecord → List Effect × Effect → Prop
  | allocated (past : List Effect) {action : AuditAction} {task : TaskId} {c : Cookie}
      {container : Container} (detail : Option String) (now : Instant)
      (haction : action = .allocated ∨ action = .reused) :
      Tells ⟨action, some c, some task, some container.id, detail, now⟩
        (past, .notify (.taskAllocated task c container))
  /-- The victim is the one to whom the container was handed last. -/
  | preempted {past : List Effect} {task : TaskId} {c : Cookie} {container : Container}
      (detail : Option String) (now : Instant)
      (hholder : (holders container.id past).getLast? = some c)
      (htask : .notify (.taskAllocated task c container) ∈ past) :
      Tells ⟨.preempted, some c, some task, some container.id, detail, now⟩
        (past, .notify (.containerBeingReleased container.id))
  | completed (past : List Effect) (cookie : Option Cookie) (task : Option TaskId)
      (status : ContainerStatus) (detail : Option String) (now : Instant) :
      Tells ⟨.completed, cookie, task, some status.container, detail, now⟩
        (past, .notify (.containerCompleted task status))
  | givenBack (past : List Effect) {action : AuditAction} (cookie : Option Cookie)
      (task : Option TaskId) (id : ContainerId) (detail : Option String) (now : Instant)
      (haction : action = .released ∨ action = .unsolicited ∨ action = .lateAllocation) :
      Tells ⟨action, cookie, task, some id, detail, now⟩ (past, .call (.giveBack id))

/-! ## Requests made of the cluster -/

/-- Both effects ask the cluster on behalf of one cookie. -/
def Effect.asksWith (e f : Effect) : Bool :=
  e.asksFor?.isSome && decide (e.asksFor? = f.asksFor?)

/-- The longest runs of effects that ask the cluster on behalf of one cookie. -/
def askRuns (es : List Effect) : List (List Effect) :=
  (es.splitBy Effect.asksWith).filter fun run => run.any fun e => e.asksFor?.isSome

/-- The record of such a run. -/
structure AuditRecord.Counts (r : AuditRecord) (run : List Effect) : Prop where
  cookie : ∃ c, r.cookie = some c ∧ ∀ e ∈ run, e.asksFor? = some c
  detail : r.detail = some s!"{run.length} tiers"

/-- The cookie whose requests are withdrawn. -/
def Effect.withdraws? : Effect → Option Cookie
  | .call (.withdraw c) => some c
  | _ => none

/-- The cookies of the requests that wait no longer and for which the cluster had been asked. -/
def answeredRequests (past trail : List AuditRecord) : List Cookie :=
  (withPast past trail).filterMap fun p => p.2.answers?.filter (wasRequested p.1)

/-- The trail agrees with the journal. -/
structure Scheduler.Agrees (s : Scheduler) : Prop where
  /-- The records of allocations, preemptions, completions and releases are the effects of
  these kinds, one by one. -/
  told : List.Forall₂ AuditRecord.Tells (s.trail.filter fun r => r.action.isTold)
    (toldEffects [] s.journal)
  /-- The records of requests are the runs of requests made of the cluster, with their lengths. -/
  asked : List.Forall₂ AuditRecord.Counts
    (s.trail.filter fun r => decide (r.action = .requested)) (askRuns s.journal)
  /-- What is withdrawn are the requests that wait no longer, if the cluster had been asked. -/
  withdrawn : s.journal.filterMap Effect.withdraws? = answeredRequests [] s.trail
  /-- A request stops waiting once. -/
  once : (s.trail.filterMap AuditRecord.answers?).Nodup

/-! ## One decision -/

theorem toldEffects_append (past es fs : List Effect) :
    toldEffects past (es ++ fs) = toldEffects past es ++ toldEffects (past ++ es) fs := by
  rw [toldEffects, withPast_append, List.filter_append, toldEffects, toldEffects]

theorem toldEffects_of_none {es : List Effect} (h : ∀ e ∈ es, e.isTold = false)
    (past : List Effect) : toldEffects past es = [] := by
  refine List.filter_eq_nil_iff.mpr fun p hp => ?_
  rw [h p.2 (mem_of_mem_withPast hp)]
  exact Bool.false_ne_true

theorem isTold_of_mem_withdrawal {previous : RequestState} {cookie : Cookie} {e : Effect}
    (he : e ∈ withdrawal previous cookie) : e.isTold = false := by
  unfold withdrawal at he
  split at he
  · rw [List.mem_singleton.mp he]
    rfl
  · cases he

/-- A withdrawal is recorded with what follows it, if with anything. -/
theorem toldEffects_withdrawal (past : List Effect) (previous : RequestState) (cookie : Cookie)
    (es : List Effect) : toldEffects past (withdrawal previous cookie ++ es) =
      toldEffects (past ++ withdrawal previous cookie) es := by
  rw [toldEffects_append, toldEffects_of_none fun e he => isTold_of_mem_withdrawal he,
    List.nil_append]

namespace Scheduler

variable {policy : Policy} {s t : Scheduler} {o : Outcome} {es : List Effect} {c : Cookie}

/-- Whatever is recorded for a cookie is recorded for the request that it was issued for. -/
theorem Underway.issuedFor_of_get? (hs : Underway policy s) {entry : Entry}
    (hentry : s.ledger.entries.get? c = some entry) : s.IssuedFor c entry.request := by
  have hall := hs.induct (P := fun s => ∀ c entry, s.ledger.entries.get? c = some entry →
    s.IssuedFor c entry.request) ?_ ?_
  · exact hall c entry hentry
  · intro c entry hentry
    cases hentry
  · intro s es t hs h ih c entry hentry
    rcases h.turns hs.coherent with ⟨request, hnext, rfl, rfl⟩ | ⟨-, hturns⟩
    · by_cases hc : c = ⟨s.ledger.nextCookie⟩
      · subst hc
        rw [get?_enter] at hentry
        cases hentry
        exact hs.issuedFor_enter hnext request
      · rw [s.get?_enter_of_ne request hc] at hentry
        exact h.issuedFor hs.coherent (ih c entry hentry)
    · obtain ⟨old, hold, hrequest⟩ := (hturns c).request hentry
      exact h.issuedFor hs.coherent (hrequest ▸ ih c old hold)

/-- Whoever runs in a container was told so, with the task that is on the ledger. -/
theorem Underway.allocated_of_ownerOf? (hs : Underway policy s) {k : ContainerId} {entry : Entry}
    (howner : s.ledger.ownerOf? k = some c) (hentry : s.ledger.entries.get? c = some entry) :
    ∃ container, container.id = k ∧
      .notify (.taskAllocated entry.request.task c container) ∈ s.journal := by
  obtain ⟨task, container, he, hid⟩ :=
    mem_holders_iff.mp (List.mem_of_getLast? (hs.holders howner))
  have htask := (hs.issuedFor_of_get? hentry).told (task, container) (mem_allocations_iff.mpr he)
  exact ⟨container, hid, htask ▸ he⟩

theorem Decision.tells (h : Decision policy s o) (hs : Underway policy s) :
    List.Forall₂ AuditRecord.Tells (o.records.filter fun r => r.action.isTold)
      (toldEffects s.journal o.effects) := by
  cases h with
  | @ask cookie request ledger now hpending hledger =>
      have hnone : ∀ e ∈ (request.tiers cookie).map fun r => Effect.call (.submit r),
          e.isTold = false := by
        intro e he
        obtain ⟨r, -, rfl⟩ := List.mem_map.mp he
        rfl
      rw [toldEffects_of_none hnone]
      exact .nil
  | hand now hrequest hheld hlarge hserves hledger =>
      rw [toldEffects_withdrawal]
      exact .cons (.allocated _ none now (.inr rfl)) .nil
  | grant now hwanted hrequest hledger hheld =>
      have hid := (hs.coherent.allocate hledger).keyed _ _ hheld
      rw [toldEffects_withdrawal, ← hid]
      exact .cons (.allocated _ none now (.inl rfl)) .nil
  | withdraw now hwaiting hledger =>
      rw [toldEffects_of_none fun e he => isTold_of_mem_withdrawal he]
      exact .nil
  | retire => exact .nil
  | turnAway now cookie detail hnew haction =>
      rcases haction with rfl | rfl
      · exact .cons (.givenBack _ cookie none _ detail now (.inr (.inl rfl))) .nil
      · exact .cons (.givenBack _ cookie none _ detail now (.inr (.inr rfl))) .nil
  | @announce id ledger victim now detail hledger =>
      obtain ⟨held, hheld, hactive, rfl⟩ := Ledger.beginRelease_ok hledger
      have howner : s.ledger.ownerOf? id = some victim := by
        rw [Ledger.ownerOf?_of_get? hheld, hactive]
        rfl
      have hrunning := (hs.coherent.active victim id).mpr
        (hactive ▸ Ledger.assignment?_of_get? hheld)
      obtain ⟨entry, hentry, -⟩ := Option.map_eq_some_iff.mp hrunning
      obtain ⟨container, rfl, he⟩ := hs.allocated_of_ownerOf? howner hentry
      -- the victim's request is still on the ledger, and so is its task
      rw [Ledger.lookup, SortedMap.get?_modify, if_pos rfl, hentry]
      exact .cons (.preempted detail now (hs.holders howner) he) .nil
  | giveBack now reason hledger =>
      exact .cons (.givenBack _ none _ _ (some reason) now (.inl rfl)) .nil
  | complete now hledger => exact .cons (.completed _ _ _ _ _ now) .nil
  | unawait => exact .nil
  | forget => exact .nil
  | news notice hnews =>
      have hnone : (Effect.notify notice).isTold = false := by
        cases notice <;> first | rfl | cases hnews
      rw [toldEffects_of_none fun e he => List.mem_singleton.mp he ▸ hnone]
      exact .nil

end Scheduler

/-! ## What the cluster is asked for -/

/-- A run ends where an effect asks for something else or for nothing. -/
theorem askRuns_append {es fs : List Effect}
    (h : ∀ e ∈ es.getLast?, ∀ f ∈ fs.head?, e.asksWith f = false) :
    askRuns (es ++ fs) = askRuns es ++ askRuns fs := by
  rw [askRuns, List.splitBy_append h, List.filter_append, askRuns, askRuns]

theorem askRuns_of_none {es : List Effect} (h : ∀ e ∈ es, e.asksFor? = none) :
    askRuns es = [] := by
  refine List.filter_eq_nil_iff.mpr fun run hrun => ?_
  rw [List.any_eq_true]
  rintro ⟨e, he, hsome⟩
  have hmem : e ∈ es := by
    rw [← List.flatten_splitBy Effect.asksWith es]
    exact List.mem_flatten_of_mem hrun he
  rw [h e hmem] at hsome
  cases hsome

/-- Effects that ask on behalf of one cookie are one run. -/
theorem askRuns_of_forall {es : List Effect} {c : Cookie} (hes : es ≠ [])
    (h : ∀ e ∈ es, e.asksFor? = some c) : askRuns es = [es] := by
  have hchain : es.IsChain fun e f => e.asksWith f = true := by
    refine (List.pairwise_of_forall_mem_list fun e he f hf => ?_).isChain
    rw [Effect.asksWith, h e he, h f hf]
    simp
  obtain ⟨e, rest, rfl⟩ := List.exists_cons_of_ne_nil hes
  have hasks : (e :: rest).any (fun e => e.asksFor?.isSome) = true := by
    rw [List.any_cons, h e List.mem_cons_self]
    rfl
  rw [askRuns, List.splitBy_of_isChain hes hchain]
  exact List.filter_cons_of_pos hasks

/-! ## What is withdrawn -/

theorem answeredRequests_append (past trail records : List AuditRecord) :
    answeredRequests past (trail ++ records) =
      answeredRequests past trail ++ answeredRequests (past ++ trail) records := by
  rw [answeredRequests, withPast_append, List.filterMap_append, answeredRequests,
    answeredRequests]

theorem answeredRequests_singleton (past : List AuditRecord) (r : AuditRecord) :
    answeredRequests past [r] = (r.answers?.filter (wasRequested past)).toList := by
  rw [answeredRequests, withPast, withPast, List.filterMap_cons]
  cases r.answers?.filter (wasRequested past) <;> rfl

theorem answeredRequests_sublist (past trail : List AuditRecord) :
    (answeredRequests past trail).Sublist (trail.filterMap AuditRecord.answers?) := by
  induction trail generalizing past with
  | nil => exact .slnil
  | cons r trail ih =>
      have hcons : answeredRequests past (r :: trail) =
          answeredRequests past [r] ++ answeredRequests (past ++ [r]) trail :=
        answeredRequests_append past [r] trail
      have hr : (r :: trail).filterMap AuditRecord.answers? =
          r.answers?.toList ++ trail.filterMap AuditRecord.answers? := by
        rw [List.filterMap_cons]
        cases r.answers? <;> rfl
      rw [hcons, hr, answeredRequests_singleton]
      refine List.Sublist.append ?_ (ih _)
      cases r.answers? with
      | none => exact .slnil
      | some c => by_cases hc : wasRequested past c <;> simp [Option.filter, hc]

namespace Scheduler

variable {policy : Policy} {s t : Scheduler} {o : Outcome} {es : List Effect} {c : Cookie}

/-! ## Requests and withdrawals of one decision -/

theorem Decision.askRuns (h : Decision policy s o) (hs : Underway policy s) :
    TaskFleet.askRuns (s.journal ++ o.effects) =
      TaskFleet.askRuns s.journal ++ TaskFleet.askRuns o.effects := by
  refine askRuns_append fun e he f hf => ?_
  cases hasks : f.asksFor? with
  | none =>
      rw [Effect.asksWith, hasks]
      cases e.asksFor? <;> rfl
  | some c =>
      have hsilent := ((hs.filed c).unasked
        (h.unasked_of_asksFor? (List.mem_of_mem_head? hf) hasks)).2
      rw [Effect.asksWith, hasks, decide_eq_false (hsilent e (List.mem_of_mem_getLast? he)),
        Bool.and_false]

theorem Decision.counts (h : Decision policy s o) : List.Forall₂ AuditRecord.Counts
    (o.records.filter fun r => decide (r.action = .requested)) (TaskFleet.askRuns o.effects) := by
  cases h with
  | @ask cookie request ledger now hpending hledger =>
      have htiers : request.tiers cookie ≠ [] := by
        rw [TaskRequest.tiers, Ne, List.map_eq_nil_iff]
        exact request.places_ne_nil
      rw [askRuns_of_forall (by simpa using htiers) fun e he => asksFor?_of_mem_tiers he]
      refine .cons ⟨⟨cookie, rfl, fun e he => asksFor?_of_mem_tiers he⟩, ?_⟩ .nil
      rw [List.length_map]
  | hand =>
      rw [askRuns_of_none asksFor?_of_mem_withdrawal_append]
      exact .nil
  | grant =>
      rw [askRuns_of_none asksFor?_of_mem_withdrawal_append]
      exact .nil
  | withdraw =>
      rw [askRuns_of_none fun e he => asksFor?_of_mem_withdrawal he]
      exact .nil
  | turnAway now cookie detail hnew haction =>
      rcases haction with rfl | rfl <;> exact .nil
  | _ => exact .nil

/-- What is withdrawn with a request that waits is what is on record for it. -/
theorem Filed.withdraws (h : s.Filed c) {entry : Entry} (r : AuditRecord)
    (hentry : s.ledger.entries.get? c = some entry) (hfree : entry.phase.isOutstanding = true)
    (hanswers : r.answers? = some c) :
    (withdrawal entry.phase.state c).filterMap Effect.withdraws? = answeredRequests s.trail [r] := by
  rw [answeredRequests_singleton, hanswers, Option.filter_some, h.wasRequested_eq hentry hfree,
    withdrawal]
  by_cases hasked : entry.phase.state = .requested
  · simp [hasked, Effect.withdraws?]
  · simp [hasked]

theorem Decision.withdraws (h : Decision policy s o) (hs : Underway policy s) :
    o.effects.filterMap Effect.withdraws? = answeredRequests s.trail o.records := by
  cases h with
  | @ask cookie request ledger now hpending hledger =>
      have hnone : ∀ e ∈ (request.tiers cookie).map fun r => Effect.call (.submit r),
          e.withdraws? = none := by
        intro e he
        obtain ⟨r, -, rfl⟩ := List.mem_map.mp he
        rfl
      rw [List.filterMap_eq_nil_iff.mpr hnone]
      rfl
  | hand now hrequest hheld hlarge hserves hledger =>
      obtain ⟨entry, held, hentry, hfree, -, -, rfl, -, -⟩ := Ledger.assignIdle_ok hledger
      have hwaits := entry.phase.isOutstanding_iff.mpr hfree
      rw [List.filterMap_append, ← (hs.filed _).withdraws _ hentry hwaits rfl]
      exact List.append_nil _
  | grant now hwanted hrequest hledger hheld =>
      obtain ⟨entry, -, hentry, hfree, rfl, -⟩ := Ledger.allocate_ok hledger
      have hwaits := entry.phase.isOutstanding_iff.mpr hfree
      rw [List.filterMap_append, ← (hs.filed _).withdraws _ hentry hwaits rfl]
      exact List.append_nil _
  | withdraw now hwaiting hledger =>
      obtain ⟨entry, hentry, -, hprevious, -, -, -⟩ := Ledger.remove_ok hledger
      rw [hprevious] at hwaiting ⊢
      exact (hs.filed _).withdraws _ hentry hwaiting rfl
  | turnAway now cookie detail hnew haction =>
      rcases haction with rfl | rfl <;> rfl
  | _ => rfl

/-! ## The logs side by side -/

theorem Decision.agrees (h : Decision policy s o) (hs : Underway policy s) (ha : s.Agrees) :
    (s.adopt o).Agrees := by
  have hjournal : (s.adopt o).journal = s.journal ++ o.effects := (Move.decide h).journal
  have htrail : (s.adopt o).trail = s.trail ++ o.records := rfl
  refine ⟨?_, ?_, ?_, ?_⟩
  · rw [hjournal, htrail, List.filter_append, toldEffects_append, List.nil_append]
    exact List.rel_append ha.told (h.tells hs)
  · rw [hjournal, htrail, List.filter_append, h.askRuns hs]
    exact List.rel_append ha.asked h.counts
  · rw [hjournal, htrail, List.filterMap_append, answeredRequests_append, List.nil_append,
      ha.withdrawn, h.withdraws hs]
  · rw [answers_adopt, List.nodup_append]
    refine ⟨ha.once, ?_, ?_⟩
    · cases hnew : o.records.filterMap AuditRecord.answers? with
      | nil => exact List.nodup_nil
      | cons c cs =>
          have hc : c ∈ o.records.filterMap AuditRecord.answers? := hnew ▸ List.mem_cons_self
          rw [← hnew, (h.unserved_of_answers hc).2]
          exact List.nodup_cons.mpr ⟨List.not_mem_nil, List.nodup_nil⟩
    · rintro c hold _ hc rfl
      exact (hs.filed c).unanswered (h.unserved_of_answers hc).1 hold

theorem Agrees.congr (h : s.Agrees) (hjournal : t.journal = s.journal)
    (htrail : t.trail = s.trail) : t.Agrees :=
  ⟨hjournal ▸ htrail ▸ h.told, hjournal ▸ htrail ▸ h.asked, hjournal ▸ htrail ▸ h.withdrawn,
    htrail ▸ h.once⟩

theorem Underway.agrees (hs : Underway policy s) : s.Agrees := by
  refine hs.induct (P := Agrees) ⟨.nil, .nil, rfl, List.nodup_nil⟩ ?_
  intro s es t hs h ih
  cases h with
  | enter request hnext => exact ih.congr rfl rfl
  | decide h => exact h.agrees hs ih
  | takeUp h => exact ih.congr (journal_takeUp? h) (trail_takeUp? h)
  | aside => exact ih.congr rfl rfl

end Scheduler

/-- However a scheduler is used, its trail agrees with its journal, and with every withdrawal
goes the one record that the request waits no longer. -/
theorem Fleet.trail_agrees {policy : Policy} {w : Fleet} (hw : w.Reachable policy) :
    w.1.Agrees ∧ ∀ c, .call (.withdraw c) ∈ w.1.journal →
      (w.1.journal.filterMap Effect.withdraws?).count c = 1 ∧
        (w.1.trail.filterMap AuditRecord.answers?).count c = 1 := by
  have hagrees := hw.underway.agrees
  refine ⟨hagrees, fun c hc => ?_⟩
  have hsub : (w.1.journal.filterMap Effect.withdraws?).Sublist
      (w.1.trail.filterMap AuditRecord.answers?) :=
    hagrees.withdrawn ▸ answeredRequests_sublist [] w.1.trail
  have hmem : c ∈ w.1.journal.filterMap Effect.withdraws? :=
    List.mem_filterMap.mpr ⟨_, hc, rfl⟩
  rw [(hagrees.once.sublist hsub).count, if_pos hmem, hagrees.once.count,
    if_pos (hsub.subset hmem)]
  exact ⟨rfl, rfl⟩

/-- A grant comes twice over, and a task has to give its container up to another one, which
is granted a container all the same and leaves it to a third. -/
theorem Fleet.trail_agrees_contention :
    let cx : Context := ⟨⟨.standard, .alwaysMatch⟩, .epoch, some .zero⟩
    let request (task : UInt64) (priority : UInt32) : TaskRequest :=
      ⟨⟨task⟩, ⟨1024, 1⟩, ⟨priority⟩, ⟨["host1"], [], true⟩,
        ⟨0, ⟨⟨1024, 1⟩, .empty, .empty⟩⟩⟩
    let granted (name : String) (cookie : UInt64) : Container :=
      ⟨⟨name⟩, ⟨"host1", 8041⟩, none, ⟨1024, 1⟩, ⟨5⟩, some ⟨cookie⟩, none⟩
    let ops : List Scheduler.Operation := [.request (request 7 5),
      .hear (.allocated [granted "c_1" 1, granted "c_2" 1]), .request (request 8 1),
      .hear (.allocated [granted "c_3" 2]), .deallocateTask ⟨2⟩ true, .request (request 9 5),
      .deallocateContainer ⟨"c_1"⟩]
    let w : Fleet := (ops.foldl (fun s op => s.after cx op) .fresh, .connect .zero)
    w.1.Agrees ∧
      w.1.trail.map AuditRecord.action = [.requested, .allocated, .unsolicited, .requested,
        .preempted, .allocated, .idled, .reused, .released] ∧
      .call (.withdraw ⟨2⟩) ∈ w.1.journal ∧
      (w.1.trail.filterMap AuditRecord.answers?).count ⟨2⟩ = 1 := by
  intro cx request granted ops w
  have hw : w.Reachable cx.policy := by
    apply (Reachable.start .zero).operations
    decide
  obtain ⟨hagrees, honce⟩ := Fleet.trail_agrees hw
  have hwithdrawn : .call (.withdraw ⟨2⟩) ∈ w.1.journal := by decide +kernel
  refine ⟨hagrees, ?_, hwithdrawn, (honce ⟨2⟩ hwithdrawn).2⟩
  decide +kernel

end TaskFleet
