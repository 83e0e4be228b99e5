import TaskFleet.Proofs.Scheduler.Conservation
import TaskFleet.Proofs.Scheduler.Notices
import TaskFleet.Proofs.Scheduler.Returned

/-!
# Allocations the application never heard of

When the notice of an allocation is refused, the application does not know that it has the
container.  The container is to go back to the cluster then, once, and the request ends.

In between the scheduler may have taken the container from the request again, since the
operation that allocates may go on to take containers back.  So it has to be known what can
have become of the container until the refusal is made good (`Scheduler.Fated`): an operation
does not end a task that it has just given a container, so the container is running, leaving
or given back.  If it is running, the refusal gives it back; if it was given back, nothing is
left to do.

There are two exceptions.  If the container is leaving, the refusal leaves it to the notice of
that, and when this one is accepted, a task that was never begun has to give its container up.
And the container may be one that was turned away just before in the same operation; then it
is given back twice.
-/

namespace TaskFleet

theorem Fate.stage_of_nil {a : Stage} (h : Fate a []) : a = .running := by
  cases h
  rfl

namespace Scheduler

variable {policy : Policy} {s t u : Scheduler} {k : ContainerId} {c : Cookie}

/-! ## What an operation does with what it allocates -/

/-- Only the end of a task makes a container idle. -/
theorem Decision.stage_ne_idle {o : Outcome} (h : Decision policy s o)
    (hkind : o.action? ≠ some .idled) (hk : s.ledger.stage k ≠ .idle) :
    o.ledger.stage k ≠ .idle := by
  intro hidle
  obtain ⟨held, hheld, hidle⟩ := Ledger.stage_eq_idle_iff.mp hidle
  exact hk (Ledger.stage_eq_idle_iff.mpr ⟨held, (h.sheds hkind).idle k held hheld hidle, hidle⟩)

/-- Each container that was handed out from `s` to `t` has had one of the fates since. -/
def Fated (s t : Scheduler) : Prop :=
  ∀ task c container before later,
    t.effectsSince s = before ++ .notify (.taskAllocated task c container) :: later →
      Fate (t.ledger.stage container.id) (words container.id later)

namespace Fated

/-- Where nothing is handed out there is nothing to show. -/
theorem of_silent (h : ∀ k, .allocated ∉ words k (t.effectsSince s)) : Fated s t := by
  intro task c container before later heq
  have he : .notify (.taskAllocated task c container) ∈ t.effectsSince s := by
    rw [heq]
    exact List.mem_append_right _ (.head _)
  exact absurd (mem_words_of_allocated he) (h container.id)

theorem of_journal_eq (h : t.journal = s.journal) : Fated s t := by
  refine of_silent fun k => ?_
  rw [effectsSince_of_journal (h.trans (List.append_nil _).symm)]
  simp [words]

/-- The ledger and the journal tell. -/
theorem congr (h : Fated s t) (hledger : u.ledger = t.ledger) (hjournal : u.journal = t.journal) :
    Fated s u := by
  unfold Fated effectsSince at h ⊢
  rw [hledger, hjournal]
  exact h

/-- Decisions that end no task and are not about completions keep to it. -/
theorem decisions {actions : List (Option AuditAction)} (h : Fated s t)
    (hjournal : s.journal <+: t.journal) (ht : t.ledger.Coherent)
    (hd : DecisionsAmong policy actions t u)
    (hactions : some .idled ∉ actions ∧ some .completed ∉ actions) : Fated s u := by
  have hall := hd.induct (P := fun u es => ∀ task c container before later,
    t.effectsSince s ++ es = before ++ .notify (.taskAllocated task c container) :: later →
      Fate (u.ledger.stage container.id) (words container.id later)) ht ?_ ?_
  · intro task c container before later heq
    rw [effectsSince_trans hjournal hd.journal] at heq
    exact hall task c container before later heq
  · intro task c container before later heq
    exact h task c container before later ((List.append_nil _).symm.trans heq)
  · intro u es o hu ho haction ih task c container before later heq
    have hpass := ho.passes hu container.id
    rw [← List.append_assoc] at heq
    rcases append_eq_append_cons heq with ⟨mid, hold, rfl⟩ | ⟨mid, -, hnew⟩
    · -- it was handed out before
      have hfate := ih task c container before mid hold
      rw [words_append]
      refine hpass.fate hfate (fun hnone => ?_)
        (ho.completed_notMem hu fun heq => hactions.2 (heq ▸ haction))
      refine ho.stage_ne_idle (fun heq => hactions.1 (heq ▸ haction)) ?_
      rw [hnone] at hfate
      simp [hfate.stage_of_nil]
    · -- it is handed out now, and nothing else is said of it
      obtain ⟨hhanded, hlater⟩ := hpass.of_word?_eq hnew (if_pos rfl)
      have hrunning : (u.adopt o).ledger.stage container.id = .running :=
        hhanded.eq_running (.head _)
      rw [hlater, hrunning]
      exact .running

end Fated

theorem fated_request (hs : s.ledger.Coherent) (cx : Context) (request : TaskRequest)
    (hnext : s.ledger.HasCookies) : Fated s (s.request cx request).2 := by
  rcases request_spec cx hs request with ⟨cause, hrefused⟩ | htaken
  · rw [hrefused]
    exact .of_journal_eq rfl
  · obtain ⟨o, ho, hkind, -, hrest⟩ := htaken.settled
    have hfirst : DecisionsAmong cx.policy (some .requested :: some .reused :: walkActions)
        (s.enter request) ((s.enter request).adopt o) :=
      .of_decision ho (List.mem_append_left walkActions hkind) rfl
    have hall := hfirst.trans (hrest.mono fun _ h => .tail _ (.tail _ h))
    have hentered : Fated s (s.enter request) := .of_journal_eq rfl
    exact hentered.decisions (List.prefix_refl _) (hs.add hnext request) hall (by decide)

theorem fated_deallocateTask (hs : s.ledger.Coherent) (cx : Context) (cookie : Cookie)
    (succeeded : Bool) : Fated s (s.deallocateTask cx cookie succeeded).2 := by
  have hstart : Fated s s := .of_journal_eq rfl
  rcases s.deallocateTask_cases cx cookie succeeded with hgone | ⟨-, t, hidled, hreused⟩
  · exact hstart.decisions (List.prefix_refl _) hs hgone (by decide)
  · -- a task has ended, and then its container may be handed to another one
    have hsilent : Fated s t := .of_silent (hidled.allocated_notMem hs (by decide))
    exact hsilent.decisions hidled.journal (hidled.coherent hs) hreused (by decide)

/-- An operation does not end a task that it has just given a container. -/
theorem fated_after (hs : s.ledger.Coherent) (cx : Context) {op : Operation}
    (hnext : op.isRequest = true → s.ledger.HasCookies) : Fated s (s.after cx op) := by
  have hstart : Fated s s := .of_journal_eq rfl
  have hcalm : op.isRequest = false → some .idled ∉ op.actions ∧ some .completed ∉ op.actions →
      Fated s (s.after cx op) := fun hop hactions =>
    hstart.decisions (List.prefix_refl _) hs (decisions_after s cx hop) hactions
  cases op with
  | request request => exact fated_request hs cx request (hnext rfl)
  | deallocateTask cookie succeeded => exact fated_deallocateTask hs cx cookie succeeded
  | deallocateContainer | preempt | releaseExpired | housekeep =>
      exact hcalm rfl (by simp [Operation.actions, walkActions])
  | hear event =>
      cases event with
      | allocated containers =>
          exact hcalm rfl (by simp [Operation.actions, grantActions, walkActions])
      | completed statuses =>
          have hdecisions : DecisionsAmong cx.policy (Operation.hear (.completed statuses)).actions
              s (s.after cx (.hear (.completed statuses))) := decisions_after s cx rfl
          exact .of_silent (hdecisions.allocated_notMem hs (by simp [Operation.actions]))
      | nodesUpdated | shutdownRequested | failure =>
          exact hcalm rfl (by simp [Operation.actions])

/-! ## What a refusal does -/

/-- Where nothing is handed out, no container begins to run. -/
theorem DecisionsAmong.stage_ne_running {actions : List (Option AuditAction)}
    (h : DecisionsAmong policy actions s t) (hs : s.ledger.Coherent)
    (hactions : some .allocated ∉ actions ∧ some .reused ∉ actions)
    (hk : s.ledger.stage k ≠ .running) : t.ledger.stage k ≠ .running := by
  refine h.induct (P := fun t _ => t.ledger.stage k ≠ .running) hs hk ?_
  intro t _ o ht ho haction hk
  have hone : DecisionsAmong policy actions t (t.adopt o) := .of_decision ho haction rfl
  have hsilent := hone.allocated_notMem ht hactions k
  rw [effectsSince_adopt] at hsilent
  exact (ho.passes ht k).ne_running hk hsilent

/-- The refusal of an allocation is made good by giving the container back, if it is
running. -/
theorem stage_refused_taskAllocated (hs : s.ledger.Coherent) (now : Instant) (task : TaskId)
    {container : Container} (cause : DispatchError)
    (howner : s.ledger.stage container.id = .running →
      s.ledger.ownerOf? container.id = some c) :
    (s.refused now (.taskAllocated task c container) cause).ledger.stage container.id ≠
      .running := by
  by_cases hrunning : s.ledger.stage container.id = .running
  · have howner := howner hrunning
    have hnamed := (hs.containerOf?_eq_iff c container.id).mpr howner
    have hstate : s.ledger.state? c = some .allocated := by
      obtain ⟨c', hactive⟩ := Ledger.stage_eq_running_iff.mp hrunning
      have hsame : c' = c := by
        rw [Ledger.ownerOf?, hactive] at howner
        exact Option.some.inj howner
      rw [Ledger.state?_eq, (hs.active c container.id).mpr (hsame ▸ hactive)]
      rfl
    rw [ledger_refused, giveUpUnheard, if_pos ⟨hnamed, hstate⟩]
    rw [stage_releaseHeld (by simp [hrunning])]
    simp
  · rw [ledger_refused]
    have hgiven : DecisionsAmong ⟨.standard, .alwaysMatch⟩ [some .released] s
        (s.giveUpUnheard now (.taskAllocated task c container)) :=
      decisions_giveUpUnheard s now _
    exact hgiven.stage_ne_running hs (by decide) hrunning

end Scheduler

/-! ## A flush -/

/-- A container that was handed out and does not run is leaving, or it was given back once. -/
theorem Fate.cases_of_ne_running {a : Stage} {ws : List Word} (h : Fate a ws)
    (ha : a ≠ .running) : a = .leaving ∧ ws = [.beingReleased] ∨
      a = .returned ∧ ws.count .givenBack = 1 := by
  cases h with
  | running => exact absurd rfl ha
  | leaving => exact .inl ⟨rfl, rfl⟩
  | returned => exact .inr ⟨rfl, rfl⟩
  | returnedAfterNotice => exact .inr ⟨rfl, rfl⟩

/-- A running container has had nothing said of it. -/
theorem Fate.nil_of_running {ws : List Word} (h : Fate .running ws) : ws = [] := by
  cases h
  rfl

namespace Courier

open Scheduler

variable {policy : Policy} {d d' : Courier} {k : ContainerId} {c : Cookie}

/-- What the operation that was used at `start` has allocated is looked after: it has had one
of the fates, and it does not run if the application never heard of it. -/
structure Tended (start d : Courier) : Prop where
  journal : start.scheduler.journal <+: d.scheduler.journal
  fated : Fated start.scheduler d.scheduler
  unheard : ∀ before task c container cause after,
    d.log = start.log ++ before ++ .refused (.taskAllocated task c container) cause :: after →
      d.scheduler.ledger.stage container.id ≠ .running

/-- What is in the log since, and is not yet, was decided since. -/
theorem Reachable.effectsSince {start : Courier} (hstart : start.Reachable policy)
    (hrest : start.AtRest) (hd : d.Reachable policy) {rows : List Attempt}
    (hlog : d.log = start.log ++ rows) :
    d.scheduler.effectsSince start.scheduler =
      rows.map Attempt.effect ++ ((d.inHand.map Effect.notify).toList ++ d.scheduler.pending) := by
  refine effectsSince_of_journal ?_
  rw [hd.journal, hstart.journal_of_atRest hrest, effects, effects, hlog, List.map_append,
    List.append_assoc]

theorem Tended.carries {start : Courier} (h : Tended start d) (hstart : start.Reachable policy)
    (hrest : start.AtRest) (hd : d.Reachable policy) (hc : Carries d d') : Tended start d' := by
  have hs := hd.underway
  obtain ⟨t, ht, hledger, hjournal⟩ := hc.released policy
  refine ⟨?_, ?_, ?_⟩
  · rw [hjournal]
    exact h.journal.trans ht.journal
  · exact (h.fated.decisions h.journal hs.coherent ht (by decide)).congr hledger hjournal
  · intro before task c container cause after hlog
    rcases hc.refused_cases hlog with ⟨mid, hold⟩ | ⟨hhand, hbefore, now, hrefused⟩
    · rw [hledger]
      exact ht.stage_ne_running hs.coherent (by decide) (h.unheard before _ _ _ _ mid hold)
    · rw [hrefused]
      refine stage_refused_taskAllocated hs.coherent now task cause fun hrunning => ?_
      -- if the container is running, nothing was said of it since it was handed to the request
      have hsince := hstart.effectsSince hrest hd hbefore.symm
      rw [hhand] at hsince
      have hfate := h.fated task c container _ _ hsince
      rw [hrunning] at hfate
      have hnothing : words container.id d.scheduler.pending = [] := hfate.nil_of_running
      have hjournal := hd.journal
      rw [hhand] at hjournal
      obtain ⟨c', hactive⟩ := Ledger.stage_eq_running_iff.mp hrunning
      have howner : d.scheduler.ledger.ownerOf? container.id = some c' := by
        rw [Ledger.ownerOf?, hactive]
        rfl
      rw [howner, hs.eq_of_ownerOf? hjournal (List.eq_nil_iff_forall_not_mem.mp hnothing _)
        howner]

/-- All the while an operation is carried out. -/
theorem Tended.flushes {start : Courier} (hstart : start.Reachable policy)
    (hrest : start.AtRest) (hd : d.Reachable policy) (htended : Tended start d)
    (h : Flushes d d') : Tended start d' := by
  have hboth : d'.Reachable policy ∧ Tended start d' := by
    induction h with
    | refl => exact ⟨hd, htended⟩
    | tail _ hlast ih =>
        obtain ⟨hmid, htended⟩ := ih
        exact ⟨hmid.step (.carry hlast), htended.carries hstart hrest hmid hlast⟩
  exact hboth.2

/-- What an operation has allocated when it was decided is looked after. -/
theorem tended_use (hd : d.Reachable policy) (cx : Context) {op : Operation}
    (hnext : op.isRequest = true → d.scheduler.ledger.HasCookies) : Tended d (d.use cx op) := by
  have hs := hd.underway.coherent
  refine ⟨(course_after hs cx op hnext).journal, fated_after hs cx hnext, ?_⟩
  intro before task c container cause after hlog
  have hlength : d.log.length = _ := congrArg List.length hlog
  rw [List.length_append, List.length_append, List.length_cons] at hlength
  omega

/-- Nothing is handed out while effects are carried out. -/
theorem Flushes.silent (hd : d.Reachable policy) (h : Flushes d d') (k : ContainerId) :
    d.scheduler.journal <+: d'.scheduler.journal ∧
      .allocated ∉ words k (d'.scheduler.effectsSince d.scheduler) := by
  refine h.keeps hd (P := fun t => d.scheduler.journal <+: t.journal ∧
    .allocated ∉ words k (t.effectsSince d.scheduler)) ?_
    ⟨List.prefix_refl _, by simp [Scheduler.effectsSince, words]⟩
  rintro s t u hs ht - hsame ⟨hjournal, hsilent⟩
  have hlonger : s.journal <+: u.journal := hsame ▸ ht.journal
  refine ⟨hjournal.trans hlonger, ?_⟩
  rw [effectsSince_trans hjournal hlonger, words_append, List.mem_append, not_or]
  refine ⟨hsilent, ?_⟩
  rw [Scheduler.effectsSince, hsame]
  exact ht.allocated_notMem hs.coherent (by decide) k

/-! ## Made good -/

/-- An allocation that the application never heard of was made good: the request is gone, and
the container is given back, which among these attempts was done once. -/
structure MadeGood (d : Courier) (c : Cookie) (k : ContainerId) (attempts : List Attempt) :
    Prop where
  gone : d.scheduler.ledger.entries.get? c = none
  returned : ∃ task, d.scheduler.ledger.assignment? k = some (.released task)
  once : attempts.count (.made (.giveBack k)) = 1

theorem count_giveBack (k : ContainerId) (attempts : List Attempt) :
    attempts.count (.made (.giveBack k)) =
      (words k (attempts.map Attempt.effect)).count .givenBack := by
  rw [← count_call_giveBack, List.count, List.count, List.countP_map]
  refine List.countP_congr fun attempt _ => ?_
  cases attempt <;> simp [Attempt.effect]

/-- What an operation hands out it has not given back before, unless it readmits it. -/
theorem notMem_givenBack_before (hd : d.Reachable policy) {cx : Context}
    (hcx : cx.policy = policy) {op : Operation}
    (hnext : op.isRequest = true → d.scheduler.ledger.HasCookies)
    (hflush : (d.use cx op).Flushes d')
    (hreadmits : op.readmits k cx.now d.scheduler = false) {task : TaskId}
    {container : Container} {earlier later : List Effect} (hk : container.id = k)
    (hsince : d'.scheduler.effectsSince d.scheduler =
      earlier ++ .notify (.taskAllocated task c container) :: later) :
    .givenBack ∉ words k earlier := by
  have hs := hd.underway.coherent
  have hreturns : Returns k d.scheduler (d.use cx op).scheduler :=
    returns_after hs cx hnext hreadmits
  obtain ⟨hjournal, hsilent⟩ := hflush.silent (hd.use hcx hnext) k
  rw [effectsSince_trans hreturns.journal hjournal] at hsince
  rcases append_eq_append_cons hsince with ⟨mid, hold, -⟩ | ⟨mid, -, hnew⟩
  · -- it was handed out by the operation, which respects what it has given back
    have hordered := hreturns.ordered
    rw [hold, words_append] at hordered
    have hcross := (List.pairwise_append.mp hordered).2.2
    intro hword
    refine hcross _ hword .allocated ?_ rfl rfl
    exact hk ▸ mem_words_of_allocated (.head _)
  · refine absurd ?_ hsilent
    rw [hnew, ← hk]
    exact mem_words_of_allocated (List.mem_append_right _ (.head _))

/-- If it was announced of late that a container is taken away, and it is leaving, then the
notice of that was accepted of late. -/
theorem Reachable.accepted_of_mem_words (hd : d.Reachable policy) (hrest : d.AtRest)
    (hleaving : d.scheduler.ledger.stage k = .leaving) {before after : List Attempt}
    (hlog : d.log = before ++ after) (hword : .beingReleased ∈ words k (after.map Attempt.effect)) :
    .accepted (.containerBeingReleased k) ∈ after := by
  obtain ⟨first, last, hlast, hnothing⟩ := hd.accepted_of_leaving hrest hleaving
  rw [hlog] at hlast
  rcases append_eq_append_cons hlast with ⟨mid, -, rfl⟩ | ⟨mid, -, hafter⟩
  · -- nothing was said of the container after that notice
    rw [List.map_append, words_append, List.append_eq_nil_iff] at hnothing
    rw [hnothing.2] at hword
    cases hword
  · rw [hafter]
    exact List.mem_append_right _ (.head _)

/-- What becomes of an allocation that the application never heard of, when the operation
returns: it was made good, unless in the same operation it was decided that the container is
taken away, and the application has accepted the notice of that. -/
theorem unheard_allocation {d d' : Courier} {cx : Context} {op : Operation}
    (hd : d.Reachable cx.policy) (hrest : d.AtRest)
    (hnext : op.isRequest = true → d.scheduler.ledger.HasCookies)
    (hflush : (d.use cx op).Flushes d') (hrest' : d'.AtRest)
    {before after : List Attempt} {task : TaskId} {c : Cookie} {container : Container}
    {cause : DispatchError}
    (hlog : d'.log = d.log ++ before ++
      .refused (.taskAllocated task c container) cause :: after) :
    (MadeGood d' c container.id after ∧
        (op.readmits container.id cx.now d.scheduler = false →
          MadeGood d' c container.id (d'.log.drop d.log.length))) ∨
      (d'.scheduler.ledger.phase? c = some (.releasing container.id) ∧
        .accepted (.containerBeingReleased container.id) ∈ after ∧
        .made (.giveBack container.id) ∉ after) := by
  have hused : (d.use cx op).Reachable cx.policy := hd.use rfl hnext
  have hd' : d'.Reachable cx.policy := hused.flushes hflush
  have htended := (tended_use hd cx hnext).flushes hd hrest hused hflush
  have hsince : d'.scheduler.effectsSince d.scheduler = before.map Attempt.effect ++
      .notify (.taskAllocated task c container) :: after.map Attempt.effect := by
    rw [hd.effectsSince hrest hd' (by rw [hlog, List.append_assoc]), hrest'.done, hrest'.empty]
    simp [Attempt.effect]
  have hjournal : d'.scheduler.journal = (d.log ++ before).map Attempt.effect ++
      .notify (.taskAllocated task c container) :: after.map Attempt.effect := by
    rw [hd'.journal_of_atRest hrest', effects, hlog, List.map_append]
    rfl
  have hfate := htended.fated task c container _ _ hsince
  rcases hfate.cases_of_ne_running (htended.unheard _ _ _ _ _ _ hlog) with
    ⟨hleaving, hwords⟩ | ⟨hreturned, honce⟩
  · refine .inr ⟨?_, ?_, ?_⟩
    · obtain ⟨c', hassignment⟩ := Ledger.stage_eq_leaving_iff.mp hleaving
      have howner : d'.scheduler.ledger.ownerOf? container.id = some c' := by
        rw [Ledger.ownerOf?, hassignment]
        rfl
      have hsame : c' = c :=
        hd'.underway.eq_of_ownerOf? hjournal (by simp [hwords]) howner
      exact (hd'.underway.coherent.leaving c container.id).mpr (hsame ▸ hassignment)
    · have hlast : d'.log = d.log ++ before ++
          [.refused (.taskAllocated task c container) cause] ++ after := by
        rw [hlog, List.append_assoc _ _ after]
        rfl
      exact hd'.accepted_of_mem_words hrest' hleaving hlast (by simp [hwords])
    · rw [← List.count_eq_zero, count_giveBack, hwords]
      rfl
  · have he : .notify (.taskAllocated task c container) ∈ d'.scheduler.journal := by
      rw [hjournal]
      exact List.mem_append_right _ (.head _)
    have hgone := hd'.underway.gone_of_returned he hreturned
    have hreleased := Ledger.stage_eq_returned_iff.mp hreturned
    refine .inl ⟨⟨hgone, hreleased, by rw [count_giveBack, honce]⟩, fun hreadmits => ?_⟩
    refine ⟨hgone, hreleased, ?_⟩
    have hbefore := notMem_givenBack_before hd rfl hnext hflush hreadmits rfl hsince
    have hrows : d'.log.drop d.log.length =
        before ++ .refused (.taskAllocated task c container) cause :: after := by
      rw [hlog, List.append_assoc, List.drop_left]
    have hnone : before.count (.made (.giveBack container.id)) = 0 := by
      rw [count_giveBack, List.count_eq_zero]
      exact hbefore
    rw [hrows, List.count_append, hnone, List.count_cons, count_giveBack, honce]
    rfl

/-- The notice of an allocation is refused, so the container goes back. -/
theorem unheard_allocation_released :
    let policy : Policy := ⟨.standard, .alwaysMatch⟩
    let request : TaskRequest :=
      ⟨⟨7⟩, ⟨1024, 1⟩, ⟨5⟩, ⟨[], [], true⟩, ⟨0, ⟨⟨1024, 1⟩, .empty, .empty⟩⟩⟩
    let granted : Container :=
      ⟨⟨"c_1"⟩, ⟨"host1", 8041⟩, none, ⟨1024, 1⟩, ⟨5⟩, some ⟨1⟩, none⟩
    let w := prompted.operate policy (.request request)
      (Prompter.start (.connect .zero) [.error .queueFull])
    let d := Prompter.books.courier w
    let d' := Prompter.books.courier (prompted.operate policy (.hear (.allocated [granted])) w)
    MadeGood d' ⟨1⟩ granted.id (d'.log.drop d.log.length) := by
  intro policy request granted w d d'
  have hstart := Prompter.resting_start policy (.connect .zero) rfl [.error .queueFull]
  obtain ⟨-, hw⟩ := Prompter.keepsBooks.operate hstart (.request request) fun _ => by decide
  obtain ⟨hflush, hw'⟩ :=
    Prompter.keepsBooks.operate hw (.hear (.allocated [granted])) fun h => by cases h
  have hlog : d'.log = d.log ++ [.made (.withdraw ⟨1⟩)] ++
      .refused (.taskAllocated ⟨7⟩ ⟨1⟩ { granted with signature := some request.signature })
        .queueFull :: [.made (.giveBack granted.id)] := by decide +kernel
  rcases unheard_allocation hw.reachable hw.atRest (fun h => by cases h) hflush hw'.atRest hlog with
    ⟨-, hgood⟩ | ⟨-, -, hnot⟩
  · exact hgood (by decide +kernel)
  · exact absurd (.head _) hnot

/-- A container is granted for a request from which it is taken at once, for one that is more
urgent.  The application does not hear of the allocation, but it is told to give the container
up: the request stays, and the container is not given back. -/
theorem unheard_allocation_announced :
    let policy : Policy := ⟨.standard, .alwaysMatch⟩
    let request (priority : UInt32) : TaskRequest :=
      ⟨⟨7⟩, ⟨1024, 1⟩, ⟨priority⟩, ⟨[], [], true⟩, ⟨0, ⟨⟨1024, 1⟩, .empty, .empty⟩⟩⟩
    let granted : Container :=
      ⟨⟨"c_1"⟩, ⟨"host1", 8041⟩, none, ⟨1024, 1⟩, ⟨5⟩, some ⟨1⟩, none⟩
    let ops : List Scheduler.Operation := [.request (request 5), .request (request 1)]
    let op : Scheduler.Operation := .hear (.allocated [granted])
    let w := Prompter.tell .zero (ops.foldl (fun w op => prompted.operate policy op w)
      (Prompter.start (.connect .zero) [.error .queueFull]))
    let d := Prompter.books.courier w
    let d' := Prompter.books.courier (prompted.operate policy op w)
    (d.Reachable policy ∧ d.AtRest) ∧
      ((d.use (prompted.context policy w.2) op).Flushes d' ∧ d'.AtRest) ∧
      d'.log.drop d.log.length = [.made (.withdraw ⟨1⟩),
        .refused (.taskAllocated ⟨7⟩ ⟨1⟩
          { granted with signature := some (request 5).signature }) .queueFull,
        .accepted (.containerBeingReleased granted.id)] ∧
      d'.scheduler.ledger.phase? ⟨1⟩ = some (.releasing granted.id) := by
  intro policy request granted ops op w d d'
  have hrequested := Prompter.keepsBooks.operations
    (Prompter.resting_start policy (.connect .zero) rfl [.error .queueFull]) ops
    (by decide)
  have hw : Prompter.books.Resting policy w := Prompter.resting_tell hrequested .zero
  obtain ⟨hflush, hw'⟩ := Prompter.keepsBooks.operate hw op fun h => by cases h
  refine ⟨⟨hw.reachable, hw.atRest⟩, ⟨hflush, hw'.atRest⟩, ?_, ?_⟩
  · decide +kernel
  · decide +kernel

/-- A container is turned away, since it is granted for nobody, and granted once more for a
request, all at once.  The application does not hear of the allocation, and the container is
given back twice. -/
theorem unheard_allocation_readmitted :
    let policy : Policy := ⟨.standard, .alwaysMatch⟩
    let request : TaskRequest :=
      ⟨⟨7⟩, ⟨1024, 1⟩, ⟨5⟩, ⟨[], [], true⟩, ⟨0, ⟨⟨1024, 1⟩, .empty, .empty⟩⟩⟩
    let granted (cookie : UInt64) : Container :=
      ⟨⟨"c_1"⟩, ⟨"host1", 8041⟩, none, ⟨1024, 1⟩, ⟨5⟩, some ⟨cookie⟩, none⟩
    let op : Scheduler.Operation := .hear (.allocated [granted 99, granted 1])
    let w := prompted.operate policy (.request request)
      (Prompter.start (.connect .zero) [.error .queueFull])
    let d := Prompter.books.courier w
    let d' := Prompter.books.courier (prompted.operate policy op w)
    (d.Reachable policy ∧ d.AtRest) ∧
      ((d.use (prompted.context policy w.2) op).Flushes d' ∧ d'.AtRest) ∧
      d'.log.drop d.log.length = [.made (.giveBack ⟨"c_1"⟩), .made (.withdraw ⟨1⟩),
        .refused (.taskAllocated ⟨7⟩ ⟨1⟩
          { granted 1 with signature := some request.signature }) .queueFull,
        .made (.giveBack ⟨"c_1"⟩)] := by
  intro policy request granted op w d d'
  have hstart := Prompter.resting_start policy (.connect .zero) rfl [.error .queueFull]
  obtain ⟨-, hw⟩ := Prompter.keepsBooks.operate hstart (.request request) fun _ => by decide
  obtain ⟨hflush, hw'⟩ := Prompter.keepsBooks.operate hw op fun h => by cases h
  refine ⟨⟨hw.reachable, hw.atRest⟩, ⟨hflush, hw'.atRest⟩, ?_⟩
  decide +kernel

end Courier

end TaskFleet
