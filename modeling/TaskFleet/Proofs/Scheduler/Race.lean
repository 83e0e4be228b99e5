import TaskFleet.Proofs.Scheduler.Silence

/-!
# A cancellation meets a grant

While the application gives a request up, the cluster may be granting it a container.  It is
left to chance of which the scheduler hears first, and in the end it must not matter: the
request is retired, the container is with the cluster, and the cluster was told so once of
each (`GivenUp`).

If the cancellation comes first, the grant is too late and the container is turned away.  It
is not held all the while, and of a container that is not held nothing is said unless it is
received (`Decision.ignored`).

If the grant comes first, the task has the container for a time.  The allocation may be
refused, or the container taken away again in the same breath; what can have become of it is
one of its fates.  The cancellation ends the request whatever it has come to
(`get?_deallocateTask_failed`), and then a single fate remains: the container went back, once
(`Underway.returned_of_gone`).

In both orders the cluster is told that the request is withdrawn by whichever comes first.
The request waits no longer then, so nothing that is decided later concerns it
(`Underway.about_since`).
-/

namespace TaskFleet

/-! ## Requests that wait no longer -/

theorem Ledger.classify_eq_retired_iff {l : Ledger} {c : Cookie} :
    l.classify c = .retired ↔ l.entries.get? c = none ∧ l.wasIssued c = true := by
  unfold Ledger.classify
  cases hentry : l.entries.get? c with
  | some entry => simp
  | none => cases hissued : l.wasIssued c <;> simp

/-- A request that does not wait turns without an effect, and one that is gone stays gone. -/
theorem Turns.of_served {c : Cookie} {entry entry' : Option Entry} {es : List Effect}
    (h : Turns c entry es entry') (hserved : waiting entry = false) :
    es = [] ∧ (entry = none → entry' = none) := by
  cases h with
  | stay => exact ⟨rfl, id⟩
  | ask request => cases hserved
  | allocate request container hwaiting => cases hwaiting.symm.trans hserved
  | withdraw request hwaiting => cases hwaiting.symm.trans hserved
  | lose request id => exact ⟨rfl, nofun⟩
  | finish hserved => exact ⟨rfl, nofun⟩

namespace Scheduler

variable {policy : Policy} {s t u : Scheduler} {o : Outcome} {es : List Effect}
  {k : ContainerId} {c : Cookie} {cx : Context}

theorem not_unserved_iff :
    ¬ s.Unserved c ↔ s.ledger.wasIssued c = true ∧ waiting (s.ledger.entries.get? c) = false := by
  rw [Unserved, Ledger.waits]
  simp

/-- Nothing that a move decides concerns a request that was served, and one that is gone does
not come back. -/
theorem Move.of_served (h : Move policy s es t) (hs : s.ledger.Coherent)
    (hserved : ¬ s.Unserved c) :
    about c es = [] ∧ (s.ledger.entries.get? c = none → t.ledger.entries.get? c = none) := by
  obtain ⟨hissued, hwaits⟩ := not_unserved_iff.mp hserved
  rcases h.turns hs with ⟨request, -, rfl, rfl⟩ | ⟨-, hturns⟩
  · have hc : c ≠ ⟨s.ledger.nextCookie⟩ := by
      intro heq
      rw [heq, not_wasIssued_nextCookie] at hissued
      cases hissued
    refine ⟨rfl, fun hgone => ?_⟩
    rw [s.get?_enter_of_ne request hc, hgone]
  · exact (hturns c).of_served hwaits

/-- All the while nothing that is decided concerns it. -/
theorem Underway.served_since (hs : Underway policy s) (h : Course policy s t)
    (hserved : ¬ s.Unserved c) : ¬ t.Unserved c ∧ about c (t.effectsSince s) = [] := by
  refine hs.induct_since h (P := fun t es => ¬ t.Unserved c ∧ about c es = []) ⟨hserved, rfl⟩ ?_
  intro t es fs u ht hstep ⟨hserved, hnothing⟩
  refine ⟨fun hu => hserved (hstep.unserved_of_unserved ht.coherent hu).1, ?_⟩
  rw [about_append, hnothing, (hstep.of_served ht.coherent hserved).1, List.append_nil]

theorem served_of_retired (hretired : s.ledger.classify c = .retired) : ¬ s.Unserved c := by
  obtain ⟨hgone, hissued⟩ := Ledger.classify_eq_retired_iff.mp hretired
  exact not_unserved_iff.mpr ⟨hissued, by rw [hgone]; rfl⟩

/-- A cookie that is retired stays so. -/
theorem Underway.retired_course (hs : Underway policy s) (h : Course policy s t)
    (hretired : s.ledger.classify c = .retired) : t.ledger.classify c = .retired := by
  have hgone : t.ledger.entries.get? c = none := by
    refine (hs.keeps h (P := fun t => ¬ t.Unserved c ∧ t.ledger.entries.get? c = none) ?_
      ⟨served_of_retired hretired, (Ledger.classify_eq_retired_iff.mp hretired).1⟩).2
    intro t es u ht hstep ⟨hserved, hgone⟩
    refine ⟨fun hu => hserved (hstep.unserved_of_unserved ht.coherent hu).1, ?_⟩
    exact (hstep.of_served ht.coherent hserved).2 hgone
  have hserved := (hs.served_since h (served_of_retired hretired)).1
  exact Ledger.classify_eq_retired_iff.mpr ⟨hgone, (not_unserved_iff.mp hserved).1⟩

/-- The cookie of a request that is recorded stays issued. -/
theorem Decision.wasIssued (h : Decision policy s o) (hs : s.ledger.Coherent)
    {state : RequestState} (hc : s.ledger.state? c = some state) :
    o.ledger.wasIssued c = true := by
  obtain ⟨entry, hentry, -⟩ := Option.map_eq_some_iff.mp hc
  rw [wasIssued_congr h.nextCookie]
  exact wasIssued_of_get? hs hentry

/-! ## Containers that are not held -/

/-- Of a container that is not held nothing is said unless it is received, and it is not held
afterwards. -/
theorem Decision.ignored (h : Decision policy s o) (hs : s.ledger.Coherent)
    (hkind : o.action? ∉ grantActions) (hk : s.ledger.stage k = .absent) :
    words k o.effects = [] ∧ o.ledger.stage k = .absent := by
  have hnothing : words k o.effects = [] := by
    rw [h.words_eq hs]
    split
    · next hcontainer =>
      -- what is decided about a container presupposes that it is held
      have hunheld : ∀ held, s.ledger.held.get? k ≠ some held := fun _ hheld =>
        stage_ne_absent_of_get? hheld hk
      cases h with
      | hand now hrequest hheld hlarge hserves hledger =>
          obtain ⟨entry, held, -, -, hheld, -, -, rfl, -⟩ := Ledger.assignIdle_ok hledger
          have hid : held.container.id = k := Option.some.inj hcontainer
          rw [← hs.keyed _ held hheld, hid] at hheld
          exact absurd hheld (hunheld held)
      | announce now detail hledger =>
          cases hcontainer
          obtain ⟨held, hheld, -, -⟩ := Ledger.beginRelease_ok hledger
          exact absurd hheld (hunheld held)
      | giveBack now reason hledger =>
          cases hcontainer
          obtain ⟨held, hheld, -⟩ := Ledger.release_ok hledger
          exact absurd hheld (hunheld held)
      | complete now hledger =>
          cases hcontainer
          obtain ⟨held, hheld, -⟩ := Ledger.complete_ok hledger
          exact absurd hheld (hunheld held)
      | turnAway now cookie detail hnew haction =>
          rcases haction with rfl | rfl <;> simp [grantActions, Outcome.action?] at hkind
      | grant => simp [grantActions, Outcome.action?] at hkind
      | _ => rfl
    · rfl
  have hpass := h.passes hs k
  rw [hnothing, hk] at hpass
  exact ⟨hnothing, hpass.eq_of_absent List.not_mem_nil⟩

/-- From `s` to `t` the container is not held, and nothing is said of it. -/
structure Ignored (k : ContainerId) (s t : Scheduler) : Prop where
  journal : s.journal <+: t.journal
  silent : words k (t.effectsSince s) = []
  absent : t.ledger.stage k = .absent

namespace Ignored

theorem refl (hk : s.ledger.stage k = .absent) : Ignored k s s :=
  ⟨List.prefix_refl _, by simp [effectsSince, words], hk⟩

theorem trans (h : Ignored k s t) (h' : Ignored k t u) : Ignored k s u where
  journal := h.journal.trans h'.journal
  silent := by
    rw [effectsSince_trans h.journal h'.journal, words_append, h.silent, h'.silent,
      List.append_nil]
  absent := h'.absent

theorem of_decisions {actions : List (Option AuditAction)} (hs : s.ledger.Coherent)
    (hk : s.ledger.stage k = .absent) (h : DecisionsAmong policy actions s t)
    (hactions : ∀ action ∈ actions, action ∉ grantActions) : Ignored k s t := by
  have hboth := h.induct (P := fun t es => words k es = [] ∧ t.ledger.stage k = .absent) hs
    ⟨rfl, hk⟩ ?_
  · exact ⟨h.journal, hboth.1, hboth.2⟩
  · intro t es o ht ho haction ⟨hsilent, hk⟩
    obtain ⟨hnothing, hstill⟩ := ho.ignored ht (hactions _ haction) hk
    refine ⟨?_, hstill⟩
    rw [words_append, hsilent, hnothing, List.append_nil]

/-- The ledger and the journal tell. -/
theorem congr (h : Ignored k s t) (hledger : u.ledger = t.ledger)
    (hjournal : u.journal = t.journal) : Ignored k s u := by
  refine ⟨hjournal ▸ h.journal, ?_, hledger ▸ h.absent⟩
  rw [effectsSince, hjournal]
  exact h.silent

end Ignored

/-! ## The end of a request -/

theorem journal_eq_effectsSince (h : s.journal <+: t.journal) :
    t.journal = s.journal ++ t.effectsSince s := by
  obtain ⟨es, hes⟩ := h
  rw [effectsSince_of_journal hes.symm, hes]

/-- A container that was handed to a request, and has had one of the fates since, went back
once if the request is gone. -/
theorem Underway.returned_of_gone (hs : Underway policy s) {task : TaskId}
    {container : Container} {before later : List Effect}
    (hjournal : s.journal = before ++ .notify (.taskAllocated task c container) :: later)
    (hfate : Fate (s.ledger.stage container.id) (words container.id later))
    (hgone : s.ledger.entries.get? c = none) :
    s.ledger.stage container.id = .returned ∧ (words container.id later).count .givenBack = 1 := by
  have hunowned : .allocated ∉ words container.id later →
      ∀ c', s.ledger.ownerOf? container.id ≠ some c' := by
    intro hlater c' howner
    -- it would belong to the request that it was handed to
    have hsame : c' = c := hs.eq_of_ownerOf? hjournal hlater howner
    have hnamed := (hs.coherent.containerOf?_eq_iff c container.id).mpr (hsame ▸ howner)
    simp [Ledger.containerOf?, hgone] at hnamed
  generalize hstage : s.ledger.stage container.id = a at hfate
  generalize words container.id later = ws at hfate hunowned
  cases hfate with
  | running =>
      obtain ⟨c', hc'⟩ := Ledger.stage_eq_running_iff.mp hstage
      exact absurd (by rw [Ledger.ownerOf?, hc']; rfl) (hunowned (by simp) c')
  | leaving =>
      obtain ⟨c', hc'⟩ := Ledger.stage_eq_leaving_iff.mp hstage
      exact absurd (by rw [Ledger.ownerOf?, hc']; rfl) (hunowned (by simp) c')
  | returned => exact ⟨rfl, rfl⟩
  | returnedAfterNotice => exact ⟨rfl, rfl⟩

/-- A container is given back together with the request that owns it. -/
theorem get?_releaseHeld (howner : s.ledger.ownerOf? k = some c) (now : Instant)
    (reason : String) : (s.releaseHeld now k reason).2.ledger.entries.get? c = none := by
  obtain ⟨a, hassigned, hc⟩ := Option.bind_eq_some_iff.mp howner
  obtain ⟨held, hheld, rfl⟩ := Option.map_eq_some_iff.mp hassigned
  unfold releaseHeld
  split
  · next task ledger hledger =>
    obtain ⟨held', hheld', -, -, -, -, hentries⟩ := Ledger.release_ok hledger
    rw [hheld] at hheld'
    cases hheld'
    show ledger.entries.get? c = none
    rw [hentries, if_pos hc]
  · next cause ledger hledger =>
    -- a container that is owned was not given back before
    cases hassignment : held.assignment with
    | released task => cases hassignment ▸ hc
    | _ => simp [Ledger.release, hheld, hassignment] at hledger

theorem get?_withdraw (s : Scheduler) (cx : Context) (c : Cookie) :
    (s.withdraw cx c).2.ledger.entries.get? c = none := by
  unfold withdraw
  split
  · next cause ledger hledger =>
    -- only an unknown cookie cannot be removed
    obtain rfl := Ledger.atomic_remove _ _ hledger
    show s.ledger.entries.get? c = none
    cases hentry : s.ledger.entries.get? c with
    | none => rfl
    | some entry => simp [Ledger.remove, hentry] at hledger
  · next removed ledger hledger =>
    obtain ⟨entry, -, -, -, -, hentries, -⟩ := Ledger.remove_ok hledger
    rw [withdrawAfter_eq]
    show ledger.entries.get? c = none
    rw [hentries, SortedMap.get?_erase, if_pos rfl]

/-- A request whose task is done without success is gone, whatever it had come to. -/
theorem get?_deallocateTask_failed (hs : s.ledger.Coherent) (cx : Context) (c : Cookie) :
    (s.deallocateTask cx c false).2.ledger.entries.get? c = none := by
  have howns : ∀ entry, s.ledger.entries.get? c = some entry → ∀ k,
      entry.phase.container? = some k → s.ledger.ownerOf? k = some c := by
    intro entry hentry k hk
    refine (hs.containerOf?_eq_iff c k).mp ?_
    rw [Ledger.containerOf?, hentry, Option.bind_some, hk]
  unfold deallocateTask
  split
  · next hgone => exact hgone
  · next entry hentry =>
    split
    · exact get?_withdraw s cx c
    · exact get?_withdraw s cx c
    · next k hphase => exact get?_releaseHeld (howns entry hentry k (by rw [hphase]; rfl)) ..
    · next k hphase => exact get?_releaseHeld (howns entry hentry k (by rw [hphase]; rfl)) ..

/-! ## The two decisions -/

/-- A submitted request is given up by withdrawing what the cluster was asked for. -/
theorem deallocateTask_requested (policy : Policy) (cx : Context) (hs : s.ledger.Coherent)
    (hc : s.ledger.state? c = some .requested) (succeeded : Bool) :
    ∃ o, Decision policy s o ∧ o.action? = some .withdrawn ∧
      o.effects = [.call (.withdraw c)] ∧ o.ledger.classify c = .retired ∧
      (s.deallocateTask cx c succeeded).2 = s.adopt o := by
  obtain ⟨entry, hentry, hstate⟩ := Option.map_eq_some_iff.mp hc
  obtain ⟨ledger, removed, hledger⟩ :
      ∃ ledger removed, s.ledger.remove cx.now c = (.ok removed, ledger) := by
    simp [Ledger.remove, hentry]
  obtain ⟨entry', hentry', -, hprevious, -, hentries, -⟩ := Ledger.remove_ok hledger
  rw [hentry] at hentry'
  cases hentry'
  have hremoved : removed.previousState = .requested := hprevious.trans hstate
  have hdecision : Decision policy s _ :=
    .withdraw cx.now (by rw [hremoved]; rfl) hledger
  refine ⟨_, hdecision, rfl, ?_, ?_, ?_⟩
  · simp [withdrawal, hremoved]
  · refine Ledger.classify_eq_retired_iff.mpr ⟨?_, hdecision.wasIssued hs hc⟩
    show ledger.entries.get? c = none
    rw [hentries, SortedMap.get?_erase, if_pos rfl]
  · have hwithdrawn : (s.deallocateTask cx c succeeded).2 = (s.withdraw cx c).2 := by
      unfold deallocateTask
      rw [hentry]
      cases hphase : entry.phase <;> simp [hphase, Phase.state] at hstate ⊢
    rw [hwithdrawn, withdraw, hledger]
    simp [withdrawAfter_eq, note, adopt]

/-- A container that names a submitted request is given to it, and what the cluster was asked
for is withdrawn. -/
theorem receive_requested (policy : Policy) {container : Container} (hs : s.ledger.Coherent)
    (hnew : s.ledger.held.get? container.id = none) (hnames : container.cookie = some c)
    (hc : s.ledger.state? c = some .requested) (now : Instant) :
    ∃ o task granted, Decision policy s o ∧ granted.id = container.id ∧
      o.effects = [.call (.withdraw c), .notify (.taskAllocated task c granted)] ∧
      ¬ (s.adopt o).Unserved c ∧ s.receive now container = s.adopt o := by
  obtain ⟨entry, hentry, hstate⟩ := Option.map_eq_some_iff.mp hc
  have hwaiting : entry.phase.isOutstanding = true := by
    rw [Phase.isOutstanding, hstate]
    rfl
  have hwanted : (container.cookie <|> s.ledger.matchOutstanding container) = some c := by
    rw [hnames]
    rfl
  obtain ⟨ledger, h, hledger, hheld, hassign⟩ := assign_eq s now hnew hentry hwaiting
  have hrequest : s.ledger.lookup c = .ok entry.request := by
    simp [Ledger.lookup, hentry]
  have hdecision : Decision policy s _ := .grant now hwanted hrequest hledger hheld
  refine ⟨_, entry.request.task, h.container, hdecision,
    (hs.allocate hledger).keyed _ _ hheld, ?_, ?_, ?_⟩
  · simp [withdrawal, hstate]
  · refine not_unserved_iff.mpr ⟨hdecision.wasIssued hs hc, ?_⟩
    obtain ⟨entry', -, -, -, -, rfl⟩ := Ledger.allocate_ok hledger
    simp [adopt, waiting, Phase.isOutstanding, Phase.state, RequestState.isOutstanding]
  · rw [receive_eq_assign hnew hwanted hentry hwaiting, hassign]

/-- Only a waiting request wants the container that names it. -/
theorem wants_eq_false {container : Container} (hnames : container.cookie = some c)
    (hgone : s.ledger.entries.get? c = none) : s.wants container = false := by
  rw [← Bool.not_eq_true, wants_iff]
  rintro ⟨c', entry, hwanted, hentry, -⟩
  rw [hnames] at hwanted
  cases hwanted
  rw [hgone] at hentry
  cases hentry

end Scheduler

/-! ## Either order -/

/-- From `s` to `t` the request was given up and the container went back: the cluster was told
so once of each, and the application was handed the container once at most. -/
structure GivenUp (c : Cookie) (k : ContainerId) (s t : Scheduler) : Prop where
  retired : t.ledger.classify c = .retired
  away : t.ledger.stage k = .absent ∨ t.ledger.stage k = .returned
  givenBack : (t.effectsSince s).count (.call (.giveBack k)) = 1
  withdrawn : (t.effectsSince s).count (.call (.withdraw c)) = 1
  allocated : (allocations c (t.effectsSince s)).length ≤ 1

theorem count_call_withdraw (c : Cookie) (es : List Effect) :
    es.count (.call (.withdraw c)) = (about c es).count (.call (.withdraw c)) :=
  (List.count_filter (by simp [Effect.concerns])).symm

namespace Courier

open Scheduler

variable {policy : Policy} {d d₁ d₂ : Courier} {cx cx' : Context} {k : ContainerId} {c : Cookie}
  {container : Container}

theorem Flushes.ignored (hd : d.Reachable policy) (h : Flushes d d₁)
    (hk : d.scheduler.ledger.stage k = .absent) : Ignored k d.scheduler d₁.scheduler := by
  refine h.keeps hd (P := Ignored k d.scheduler) ?_ (.refl hk)
  intro s t u hs ht hledger hjournal hst
  have hrest : Ignored k s t := .of_decisions hs.coherent hst.absent ht (by decide)
  exact (hst.trans hrest).congr hledger hjournal

/-- What was handed out before effects are carried out keeps to its fates. -/
theorem Flushes.fated {s : Scheduler} (hd : d.Reachable policy) (h : Flushes d d₁)
    (hjournal : s.journal <+: d.scheduler.journal) (hfated : Fated s d.scheduler) :
    s.journal <+: d₁.scheduler.journal ∧ Fated s d₁.scheduler := by
  refine h.keeps hd (P := fun t => s.journal <+: t.journal ∧ Fated s t) ?_ ⟨hjournal, hfated⟩
  intro t u v ht hu hledger hsame ⟨hlonger, hfated⟩
  refine ⟨hsame ▸ hlonger.trans hu.journal, ?_⟩
  exact (hfated.decisions hlonger ht.coherent hu (by decide)).congr hledger hsame

/-- A grant that nobody wants is all that is said of its container. -/
theorem words_of_unwanted (hd : d.Reachable policy) (hcx : cx.policy = policy)
    (hnew : d.scheduler.ledger.holding? container.id = none)
    (hwants : d.scheduler.wants container = false)
    (hflush : (d.use cx (.hear (.allocated [container]))).Flushes d₁) :
    words container.id (d₁.scheduler.effectsSince d.scheduler) = [.givenBack] ∧
      d₁.scheduler.ledger.stage container.id = .absent := by
  have hs := hd.underway.coherent
  have hused : (d.use cx (.hear (.allocated [container]))).Reachable policy :=
    hd.use hcx fun h => by cases h
  obtain ⟨o, ho, haction, hcontainer, hreceived⟩ :=
    receive_unwanted policy hnew hwants cx.now
  have hword : words container.id o.effects = [.givenBack] := by
    rw [ho.words_eq hs, if_pos hcontainer]
    simp only [List.mem_cons, List.not_mem_nil, or_false] at haction
    rcases haction with haction | haction <;> rw [haction] <;> rfl
  have habsent : o.ledger.stage container.id = .absent := by
    have hpass := ho.passes hs container.id
    rw [stage_of_get?_none hnew, hword] at hpass
    exact hpass.eq_of_absent (by simp)
  -- whatever is taken back afterwards is something else
  have hwalk : DecisionsAmong policy walkActions (d.scheduler.adopt o)
      (d.scheduler.after cx (.hear (.allocated [container]))) := by
    rw [← hreceived]
    exact decisions_walkAfter d.scheduler cx [container]
  have htaken := Ignored.of_decisions (ho.coherent hs) habsent hwalk (by decide)
  have hrest := htaken.trans (hflush.ignored hused htaken.absent)
  refine ⟨?_, hrest.absent⟩
  rw [effectsSince_trans (d.scheduler.prefix_journal_adopt o) hrest.journal, words_append,
    effectsSince_adopt, hword, hrest.silent, List.append_nil]

/-- Where the request is cancelled before, the cluster is told that it is withdrawn, and the
container is nobody's. -/
theorem after_cancel (hd : d.Reachable policy) (hcx : cx.policy = policy)
    (hc : d.scheduler.ledger.state? c = some .requested)
    (hnew : d.scheduler.ledger.stage k = .absent)
    (hcancel : (d.use cx (.deallocateTask c false)).Flushes d₁) :
    d₁.scheduler.ledger.classify c = .retired ∧
      about c (d₁.scheduler.effectsSince d.scheduler) = [.call (.withdraw c)] ∧
      Ignored k d.scheduler d₁.scheduler := by
  have hs := hd.underway
  obtain ⟨o, ho, haction, heffects, hretired, hdecided⟩ :=
    deallocateTask_requested policy cx hs.coherent hc false
  have hs' : Underway policy (d.scheduler.adopt o) := hs.move (.decide ho)
  have hused : (d.use cx (.deallocateTask c false)).Reachable policy :=
    hd.use hcx fun h => by cases h
  have hcourse : Course policy (d.scheduler.adopt o) d₁.scheduler := by
    rw [← hdecided]
    exact hcancel.run.course hused.underway.coherent
  refine ⟨hs'.retired_course hcourse hretired, ?_, ?_⟩
  · rw [effectsSince_trans (d.scheduler.prefix_journal_adopt o) hcourse.journal, about_append,
      (hs'.served_since hcourse (served_of_retired hretired)).2, effectsSince_adopt, heffects]
    simp [about, Effect.concerns]
  · have hone : DecisionsAmong policy [some .withdrawn] d.scheduler
        (d.use cx (.deallocateTask c false)).scheduler :=
      .of_decision ho (haction ▸ .head _) hdecided
    have hstart := Ignored.of_decisions hs.coherent hnew hone (by decide)
    exact hstart.trans (hcancel.ignored hused hstart.absent)

/-- The cancellation comes first, and the grant is too late. -/
theorem cancelled_before_grant (hd : d.Reachable policy) (hcx : cx.policy = policy)
    (hcx' : cx'.policy = policy) (hc : d.scheduler.ledger.state? c = some .requested)
    (hnames : container.cookie = some c)
    (hnew : d.scheduler.ledger.holding? container.id = none)
    (hcancel : (d.use cx (.deallocateTask c false)).Flushes d₁)
    (hgrant : (d₁.use cx' (.hear (.allocated [container]))).Flushes d₂) :
    GivenUp c container.id d.scheduler d₂.scheduler ∧
      allocations c (d₂.scheduler.effectsSince d.scheduler) = [] := by
  obtain ⟨hretired, habout, hignored⟩ :=
    after_cancel hd hcx hc (stage_of_get?_none hnew) hcancel
  have hd₁ : d₁.Reachable policy := (hd.use hcx fun h => by cases h).flushes hcancel
  have hcourse : Course policy d₁.scheduler d₂.scheduler := by
    subst hcx'
    exact hd₁.course_use (fun h => by cases h) hgrant
  have hunwanted : d₁.scheduler.wants container = false :=
    wants_eq_false hnames (Ledger.classify_eq_retired_iff.mp hretired).1
  obtain ⟨hwords, habsent⟩ := words_of_unwanted hd₁ hcx'
    (Ledger.stage_eq_absent_iff.mp hignored.absent) hunwanted hgrant
  have hsince := effectsSince_trans hignored.journal hcourse.journal
  have hall : about c (d₂.scheduler.effectsSince d.scheduler) = [.call (.withdraw c)] := by
    rw [hsince, about_append, habout,
      (hd₁.underway.served_since hcourse (served_of_retired hretired)).2]
    rfl
  have hnone : allocations c (d₂.scheduler.effectsSince d.scheduler) = [] := by
    rw [← allocations_about, hall]
    rfl
  refine ⟨⟨hd₁.underway.retired_course hcourse hretired, .inl habsent, ?_, ?_, ?_⟩, hnone⟩
  · rw [count_call_giveBack, hsince, words_append, hignored.silent, hwords]
    rfl
  · rw [count_call_withdraw, hall, List.count_singleton_self]
  · rw [hnone]
    exact Nat.zero_le 1

/-- Where the container is granted before, the request was served, and the container has had
one of the fates since it was handed out. -/
theorem after_grant (hd : d.Reachable policy) (hcx : cx.policy = policy)
    (hc : d.scheduler.ledger.state? c = some .requested) (hnames : container.cookie = some c)
    (hnew : d.scheduler.ledger.holding? container.id = none)
    (hgrant : (d.use cx (.hear (.allocated [container]))).Flushes d₁) :
    (d.scheduler.journal <+: d₁.scheduler.journal ∧ Fated d.scheduler d₁.scheduler) ∧
      ¬ d₁.scheduler.Unserved c ∧ ∃ task granted later, granted.id = container.id ∧
        d₁.scheduler.effectsSince d.scheduler =
          [.call (.withdraw c), .notify (.taskAllocated task c granted)] ++ later ∧
        about c later = [] := by
  subst hcx
  have hs := hd.underway
  have hused : (d.use cx (.hear (.allocated [container]))).Reachable cx.policy :=
    hd.use rfl fun h => by cases h
  have hoperated : Course cx.policy d.scheduler
      (d.use cx (.hear (.allocated [container]))).scheduler :=
    course_after hs.coherent cx (.hear (.allocated [container])) fun h => by cases h
  have hfated : Fated d.scheduler (d.use cx (.hear (.allocated [container]))).scheduler :=
    fated_after hs.coherent cx fun h => by cases h
  obtain ⟨o, task, granted, ho, hid, heffects, hserved, hreceived⟩ :=
    receive_requested cx.policy hs.coherent hnew hnames hc cx.now
  have hs' : Underway cx.policy (d.scheduler.adopt o) := hs.move (.decide ho)
  have hcourse : Course cx.policy (d.scheduler.adopt o) d₁.scheduler := by
    have hwalk : DecisionsAmong cx.policy walkActions (d.scheduler.adopt o)
        (d.use cx (.hear (.allocated [container]))).scheduler := by
      rw [← hreceived]
      exact decisions_walkAfter d.scheduler cx [container]
    exact (Course.of_decisions hwalk.decisions).trans
      (hgrant.run.course hused.underway.coherent)
  obtain ⟨hstill, hnothing⟩ := hs'.served_since hcourse hserved
  refine ⟨hgrant.fated hused hoperated.journal hfated, hstill, task, granted,
    d₁.scheduler.effectsSince (d.scheduler.adopt o), hid, ?_, hnothing⟩
  rw [effectsSince_trans (d.scheduler.prefix_journal_adopt o) hcourse.journal,
    effectsSince_adopt, heffects]

/-- The grant comes first, and the container goes back again. -/
theorem granted_before_cancel (hd : d.Reachable policy) (hcx : cx.policy = policy)
    (hcx' : cx'.policy = policy) (hc : d.scheduler.ledger.state? c = some .requested)
    (hnames : container.cookie = some c)
    (hnew : d.scheduler.ledger.holding? container.id = none)
    (hgrant : (d.use cx (.hear (.allocated [container]))).Flushes d₁)
    (hcancel : (d₁.use cx' (.deallocateTask c false)).Flushes d₂) :
    GivenUp c container.id d.scheduler d₂.scheduler := by
  obtain ⟨⟨hjournal, hfated⟩, hserved, task, granted, later, hid, hsince, hnothing⟩ :=
    after_grant hd hcx hc hnames hnew hgrant
  have hd₁ : d₁.Reachable policy := (hd.use hcx fun h => by cases h).flushes hgrant
  have hused : (d₁.use cx' (.deallocateTask c false)).Reachable policy :=
    hd₁.use hcx' fun h => by cases h
  have hd₂ : d₂.Reachable policy := hused.flushes hcancel
  subst hcx'
  have hcourse : Course cx'.policy d₁.scheduler d₂.scheduler :=
    hd₁.course_use (fun h => by cases h) hcancel
  -- the request ends
  have hretired : d₂.scheduler.ledger.classify c = .retired := by
    have hoperated : Course cx'.policy d₁.scheduler
        (d₁.use cx' (.deallocateTask c false)).scheduler :=
      course_after hd₁.underway.coherent cx' (.deallocateTask c false) fun h => by cases h
    have hstill := (hd₁.underway.served_since hoperated hserved).1
    refine hused.underway.retired_course (hcancel.run.course hused.underway.coherent) ?_
    exact Ledger.classify_eq_retired_iff.mpr
      ⟨get?_deallocateTask_failed hd₁.underway.coherent cx' c, (not_unserved_iff.mp hstill).1⟩
  -- and the container goes on as it did
  have hfates : Fated d.scheduler d₂.scheduler := by
    rcases d₁.scheduler.deallocateTask_cases cx' c false with hgone | ⟨⟨hfalse, -⟩, -⟩
    · have hnext := hfated.decisions hjournal hd₁.underway.coherent hgone (by decide)
      exact (hcancel.fated hused (hjournal.trans hgone.journal) hnext).2
    · cases hfalse
  have hall : d₂.scheduler.effectsSince d.scheduler =
      [.call (.withdraw c), .notify (.taskAllocated task c granted)] ++
        (later ++ d₂.scheduler.effectsSince d₁.scheduler) := by
    rw [effectsSince_trans hjournal hcourse.journal, hsince, List.append_assoc]
  have hwhole : d₂.scheduler.journal = (d.scheduler.journal ++ [.call (.withdraw c)]) ++
      .notify (.taskAllocated task c granted) ::
        (later ++ d₂.scheduler.effectsSince d₁.scheduler) := by
    rw [journal_eq_effectsSince (hjournal.trans hcourse.journal), hall]
    simp
  obtain ⟨hreturned, honce⟩ := hd₂.underway.returned_of_gone hwhole
    (hfates task c granted [.call (.withdraw c)] _ hall)
    (Ledger.classify_eq_retired_iff.mp hretired).1
  have habout : about c (d₂.scheduler.effectsSince d.scheduler) =
      [.call (.withdraw c), .notify (.taskAllocated task c granted)] := by
    rw [hall, about_append, about_append, hnothing,
      (hd₁.underway.served_since hcourse hserved).2]
    simp [about, Effect.concerns]
  have hwords : words granted.id
      [.call (.withdraw c), .notify (.taskAllocated task c granted)] = [.allocated] :=
    (words_about (fun _ => rfl) granted.id).trans (if_pos rfl)
  rw [← hid]
  refine ⟨hretired, .inr hreturned, ?_, ?_, ?_⟩
  · rw [count_call_giveBack, hall, words_append, hwords, List.count_append, honce]
    rfl
  · rw [count_call_withdraw, habout]
    simp
  · rw [← allocations_about, habout]
    simp [allocations]

/-- A submitted request is given up while a container that names it is granted.  Of whichever
the scheduler hears first, and however the notices are answered, the request is retired in the
end and the container is with the cluster again, which was told so once of each.  The
application was handed the container once at most, and not at all if it gave the request up
before. -/
theorem cancel_meets_grant (hd : d.Reachable policy) (hcx : cx.policy = policy)
    (hcx' : cx'.policy = policy) (hc : d.scheduler.ledger.state? c = some .requested)
    (hnames : container.cookie = some c)
    (hnew : d.scheduler.ledger.holding? container.id = none) :
    (∀ d₁ d₂, (d.use cx (.deallocateTask c false)).Flushes d₁ →
      (d₁.use cx' (.hear (.allocated [container]))).Flushes d₂ →
        GivenUp c container.id d.scheduler d₂.scheduler ∧
          allocations c (d₂.scheduler.effectsSince d.scheduler) = []) ∧
      ∀ d₁ d₂, (d.use cx' (.hear (.allocated [container]))).Flushes d₁ →
        (d₁.use cx (.deallocateTask c false)).Flushes d₂ →
          GivenUp c container.id d.scheduler d₂.scheduler :=
  ⟨fun _ _ => cancelled_before_grant hd hcx hcx' hc hnames hnew,
    fun _ _ => granted_before_cancel hd hcx' hcx hc hnames hnew⟩

/-- A request is given up whose container is taken away again for a more urgent one as soon as
it is granted.  Of the allocation the application does not hear. -/
theorem cancel_meets_grant_taken_away :
    let policy : Policy := ⟨.standard, .alwaysMatch⟩
    let request (priority : UInt32) : TaskRequest :=
      ⟨⟨7⟩, ⟨1024, 1⟩, ⟨priority⟩, ⟨[], [], true⟩, ⟨0, ⟨⟨1024, 1⟩, .empty, .empty⟩⟩⟩
    let granted : Container :=
      ⟨⟨"c_1"⟩, ⟨"host1", 8041⟩, none, ⟨1024, 1⟩, ⟨5⟩, some ⟨1⟩, none⟩
    let ops : List Scheduler.Operation := [.request (request 5), .request (request 1)]
    let cancel : Scheduler.Operation := .deallocateTask ⟨1⟩ false
    let grant : Scheduler.Operation := .hear (.allocated [granted])
    let w := Prompter.tell .zero (ops.foldl (fun w op => prompted.operate policy op w)
      (Prompter.start (.connect .zero) [.error .queueFull]))
    let d := Prompter.books.courier w
    let late := Prompter.books.courier
      (prompted.operate policy grant (prompted.operate policy cancel w))
    let early := Prompter.books.courier
      (prompted.operate policy cancel (prompted.operate policy grant w))
    GivenUp ⟨1⟩ granted.id d.scheduler late.scheduler ∧
      late.log.drop d.log.length = [.made (.withdraw ⟨1⟩), .made (.giveBack granted.id)] ∧
      GivenUp ⟨1⟩ granted.id d.scheduler early.scheduler ∧
      early.log.drop d.log.length = [.made (.withdraw ⟨1⟩),
        .refused (.taskAllocated ⟨7⟩ ⟨1⟩
          { granted with signature := some (request 5).signature }) .queueFull,
        .accepted (.containerBeingReleased granted.id), .made (.giveBack granted.id)] := by
  intro policy request granted ops cancel grant w d late early
  have hrequested := Prompter.keepsBooks.operations
    (Prompter.resting_start policy (.connect .zero) rfl [.error .queueFull]) ops
    (by decide)
  have hw : Prompter.books.Resting policy w := Prompter.resting_tell hrequested .zero
  obtain ⟨hcancel, hcancelled⟩ := Prompter.keepsBooks.operate hw cancel fun h => by cases h
  obtain ⟨hlate, -⟩ := Prompter.keepsBooks.operate hcancelled grant fun h => by cases h
  obtain ⟨hgrant, hgranted⟩ := Prompter.keepsBooks.operate hw grant fun h => by cases h
  obtain ⟨hearly, -⟩ := Prompter.keepsBooks.operate hgranted cancel fun h => by cases h
  have hc : d.scheduler.ledger.state? ⟨1⟩ = some .requested := by decide +kernel
  have hnew : d.scheduler.ledger.holding? granted.id = none := by decide +kernel
  refine ⟨?_, ?_, ?_, ?_⟩
  · exact ((cancel_meets_grant hw.reachable rfl rfl hc rfl hnew).1 _ _ hcancel hlate).1
  · decide +kernel
  · exact (cancel_meets_grant hw.reachable rfl rfl hc rfl hnew).2 _ _ hgrant hearly
  · decide +kernel

end Courier

end TaskFleet
