import TaskFleet.Proofs.Scheduler.Unheard

/-!
# Operations of which nothing is heard

When the application hears of nothing, nothing begins.  The scheduler does not know this when
it decides: it hands containers out as ever and only learns from the refusals that nobody was
there.  By then the container may run, or be on its way out, or have gone back.

A container that runs after such an operation was not handed out by it, for the refusal would
have stopped it (`Courier.active_of_unheard`); so it ran before, for the same request.  And
what was handed out is back with the cluster when the operation returns
(`Courier.givenBack_of_unheard`): that it is leaving instead would take a notice that was
accepted.
-/

namespace TaskFleet

/-- The application has heard nothing: a call was made, or the application was gone. -/
inductive Attempt.Unheard : Attempt → Prop
  | made (call : ContainerCall) : Unheard (.made call)
  | refused (notice : Notice) : Unheard (.refused notice .shutdown)

namespace Scheduler

variable {policy : Policy} {s t u : Scheduler} {k : ContainerId}

/-! ## What was decided in between -/

/-- What holds while nothing is decided on and is kept by every move holds of a course, with
all that was decided on. -/
theorem Underway.induct_since {P : Scheduler → List Effect → Prop} (hs : Underway policy s)
    (h : Course policy s t) (hstart : P s [])
    (hmove : ∀ t es fs u, Underway policy t → Move policy t fs u → P t es → P u (es ++ fs)) :
    P t (t.effectsSince s) := by
  have hall := hs.keeps h (P := fun t => s.journal <+: t.journal ∧ P t (t.effectsSince s)) ?_
    ⟨List.prefix_refl _, ?_⟩
  · exact hall.2
  · intro t fs u ht hstep ⟨hjournal, hP⟩
    have hlonger : t.journal <+: u.journal := ⟨fs, hstep.journal.symm⟩
    refine ⟨hjournal.trans hlonger, ?_⟩
    rw [effectsSince_trans hjournal hlonger, effectsSince_of_journal hstep.journal]
    exact hmove t _ fs u ht hstep hP
  · rw [effectsSince, List.drop_length]
    exact hstart

/-- As long as a container is not handed out, it does not begin to run. -/
theorem Underway.stage_ne_running (hs : Underway policy s) (h : Course policy s t)
    (hk : s.ledger.stage k ≠ .running) (hsilent : .allocated ∉ words k (t.effectsSince s)) :
    t.ledger.stage k ≠ .running := by
  refine hs.induct_since h (P := fun t es => .allocated ∉ words k es →
    t.ledger.stage k ≠ .running) (fun _ => hk) ?_ hsilent
  intro t es fs u ht hstep ih hsilent
  rw [words_append, List.mem_append, not_or] at hsilent
  exact (hstep.passes ht.coherent k).ne_running (ih hsilent.1) hsilent.2

/-- Nor does it change hands. -/
theorem Underway.active_of_silent (hs : Underway policy s) (h : Course policy s t)
    (hsilent : .allocated ∉ words k (t.effectsSince s)) {c : Cookie}
    (hactive : t.ledger.assignment? k = some (.active c)) :
    s.ledger.assignment? k = some (.active c) := by
  have hrunning : s.ledger.stage k = .running := by
    refine Classical.byContradiction fun hk => ?_
    exact hs.stage_ne_running h hk hsilent (Ledger.stage_eq_running_iff.mpr ⟨c, hactive⟩)
  obtain ⟨c', hbefore⟩ := Ledger.stage_eq_running_iff.mp hrunning
  have hholder : (TaskFleet.holders k s.journal).getLast? = some c' :=
    hs.holders (by rw [Ledger.ownerOf?, hbefore]; rfl)
  have hholder' : (TaskFleet.holders k t.journal).getLast? = some c :=
    (hs.course h).holders (by rw [Ledger.ownerOf?, hactive]; rfl)
  obtain ⟨es, hes⟩ := h.journal
  rw [effectsSince_of_journal hes.symm] at hsilent
  rw [← hes, holders_append, holders_eq_nil_iff.mpr hsilent, List.append_nil, hholder] at hholder'
  rw [hbefore, Option.some.inj hholder']

/-! ## Granted containers -/

theorem mem_words_since {w : Word} (h : s.journal <+: t.journal) (h' : t.journal <+: u.journal)
    (hword : w ∈ words k (t.effectsSince s) ∨ w ∈ words k (u.effectsSince t)) :
    w ∈ words k (u.effectsSince s) := by
  rw [effectsSince_trans h h', words_append]
  exact List.mem_append.mpr hword

/-- To receive a container that is not held is one decision about it, and it says a word. -/
theorem receive_absent (policy : Policy) {container : Container}
    (hnew : s.ledger.held.get? container.id = none) (now : Instant) :
    ∃ o w, Decision policy s o ∧ o.container? = some container.id ∧
      (w = .allocated ∨ w = .givenBack) ∧ o.action?.bind AuditAction.word? = some w ∧
      s.receive now container = s.adopt o := by
  cases hwants : s.wants container with
  | true =>
      obtain ⟨o, ho, haction, hcontainer, heq⟩ := receive_wanted policy hnew hwants now
      exact ⟨o, .allocated, ho, hcontainer, .inl rfl, by rw [haction]; rfl, heq⟩
  | false =>
      obtain ⟨o, ho, haction, hcontainer, heq⟩ := receive_unwanted policy hnew hwants now
      refine ⟨o, .givenBack, ho, hcontainer, .inr rfl, ?_, heq⟩
      simp only [List.mem_cons, List.not_mem_nil, or_false] at haction
      rcases haction with haction | haction
      · rw [haction]
        rfl
      · rw [haction]
        rfl

/-- Of a container that is granted and not held it is said that it is handed out or that it
is given back. -/
theorem mem_words_receiveEach (hs : s.ledger.Coherent) (now : Instant)
    {containers : List Container} {container : Container} (hmem : container ∈ containers)
    (hnew : s.ledger.held.get? container.id = none) :
    ∃ w ∈ words container.id
        ((containers.foldl (fun s c => s.receive now c) s).effectsSince s),
      w = .allocated ∨ w = .givenBack := by
  induction containers generalizing s with
  | nil => cases hmem
  | cons first rest ih =>
      have hfirst : DecisionsAmong ⟨.standard, .alwaysMatch⟩ grantActions s
          (s.receive now first) := decisions_receive s now first
      have hrest : DecisionsAmong ⟨.standard, .alwaysMatch⟩ grantActions (s.receive now first)
          (rest.foldl (fun s c => s.receive now c) (s.receive now first)) :=
        decisions_receiveEach _ now rest
      by_cases hid : first.id = container.id
      · -- the first grant under this name is the one that counts
        obtain ⟨o, w, ho, hcontainer, hw, hsaid, heq⟩ :=
          receive_absent ⟨.standard, .alwaysMatch⟩ (hid ▸ hnew) now
        refine ⟨w, mem_words_since hfirst.journal hrest.journal (.inl ?_), hw⟩
        rw [heq, effectsSince_adopt, ho.mem_words_iff hs]
        exact ⟨hid ▸ hcontainer, hsaid⟩
      · have hmem : container ∈ rest :=
          (List.mem_cons.mp hmem).resolve_left fun heq => hid (heq ▸ rfl)
        have hstill : (s.receive now first).ledger.held.get? container.id = none := by
          cases hheld : s.ledger.held.contains first.id with
          | true => rw [receive_held hheld, hnew]
          | false =>
              obtain ⟨o, w, ho, hcontainer, -, -, heq⟩ :=
                receive_absent ⟨.standard, .alwaysMatch⟩
                  (s.ledger.held.contains_eq_false_iff.mp hheld) now
              have hpass := ho.passes hs container.id
              rw [ho.words_eq hs, if_neg (by simpa [hcontainer] using hid),
                stage_of_get?_none hnew] at hpass
              rw [heq]
              exact Ledger.stage_eq_absent_iff.mp (hpass.eq_of_absent List.not_mem_nil)
        obtain ⟨w, hword, hw⟩ := ih (hfirst.coherent hs) hmem hstill
        exact ⟨w, mem_words_since hfirst.journal hrest.journal (.inr hword), hw⟩

theorem mem_words_receiveAll (hs : s.ledger.Coherent) (cx : Context)
    {containers : List Container} {container : Container} (hmem : container ∈ containers)
    (hnew : s.ledger.held.get? container.id = none) :
    ∃ w ∈ words container.id ((s.receiveAll cx containers).effectsSince s),
      w = .allocated ∨ w = .givenBack := by
  obtain ⟨w, hword, hw⟩ := mem_words_receiveEach hs cx.now hmem hnew
  have hreceived : DecisionsAmong cx.policy grantActions s
      (containers.foldl (fun s c => s.receive cx.now c) s) := decisions_receiveEach s cx.now _
  have hwalk : DecisionsAmong cx.policy walkActions
      (containers.foldl (fun s c => s.receive cx.now c) s) (s.receiveAll cx containers) :=
    decisions_walkAfter s cx containers
  exact ⟨w, mem_words_since hreceived.journal hwalk.journal (.inl hword), hw⟩

end Scheduler

/-! ## Whole operations -/

namespace Courier

open Scheduler

variable {policy : Policy} {d d' : Courier} {cx : Context} {op : Scheduler.Operation}
  {rows : List Attempt} {k : ContainerId} {c : Cookie}

theorem Flushes.run (h : Flushes d d') : d.fleet.Run policy d'.fleet := by
  induction h with
  | refl => exact .refl _
  | tail _ hlast ih => exact ih.trans hlast.run

/-- An operation that was carried out is a course of the scheduler. -/
theorem Reachable.course_use (hd : d.Reachable cx.policy)
    (hnext : op.isRequest = true → d.scheduler.ledger.HasCookies)
    (hflush : (d.use cx op).Flushes d') : Course cx.policy d.scheduler d'.scheduler := by
  have hs := hd.underway.coherent
  have hused := course_after hs cx op hnext
  exact hused.trans (hflush.run.course (hused.coherent hs))

theorem exists_of_allocated_mem {es : List Effect} (h : .allocated ∈ words k es) :
    ∃ c task container, .notify (.taskAllocated task c container) ∈ es ∧ container.id = k := by
  have hsome : holders k es ≠ [] := fun hnil => holders_eq_nil_iff.mp hnil h
  obtain ⟨c, hc⟩ := List.exists_mem_of_ne_nil _ hsome
  obtain ⟨task, container, he, hk⟩ := mem_holders_iff.mp hc
  exact ⟨c, task, container, he, hk⟩

/-- The call that gives a container back is what is said of it. -/
theorem made_giveBack_iff :
    .made (.giveBack k) ∈ rows ↔ .givenBack ∈ words k (rows.map Attempt.effect) := by
  rw [← List.count_pos_iff, ← List.count_pos_iff, count_giveBack]

/-- What such an operation has handed out is back with the cluster when it returns. -/
theorem givenBack_of_allocated (hd : d.Reachable cx.policy) (hrest : d.AtRest)
    (hnext : op.isRequest = true → d.scheduler.ledger.HasCookies)
    (hflush : (d.use cx op).Flushes d') (hrest' : d'.AtRest) (hlog : d'.log = d.log ++ rows)
    (hrows : ∀ attempt ∈ rows, attempt.Unheard)
    (hword : .allocated ∈ words k (rows.map Attempt.effect)) :
    d'.scheduler.ledger.stage k = .returned ∧ .made (.giveBack k) ∈ rows := by
  have hused : (d.use cx op).Reachable cx.policy := hd.use rfl hnext
  have hd' : d'.Reachable cx.policy := hused.flushes hflush
  have htended := (tended_use hd cx hnext).flushes hd hrest hused hflush
  have hsince := hd.effectsSince hrest hd' hlog
  obtain ⟨c, task, container, he, rfl⟩ := exists_of_allocated_mem hword
  obtain ⟨attempt, hmem, heffect⟩ := List.mem_map.mp he
  obtain rfl : attempt = .refused (.taskAllocated task c container) .shutdown := by
    cases hrows attempt hmem with
    | made call => cases heffect
    | refused notice =>
        cases heffect
        rfl
  obtain ⟨before, after, hsplit⟩ := List.append_of_mem hmem
  have hlog' : d'.log = d.log ++ before ++
      .refused (.taskAllocated task c container) .shutdown :: after := by
    rw [hlog, hsplit, List.append_assoc]
  have hfate := htended.fated task c container (before.map Attempt.effect)
    (after.map Attempt.effect) (by
      rw [hsince, hrest'.done, hrest'.empty, hsplit]
      simp [Attempt.effect])
  rcases hfate.cases_of_ne_running (htended.unheard _ _ _ _ _ _ hlog') with
    ⟨hleaving, hwords⟩ | ⟨hreturned, honce⟩
  · -- for it to be leaving, the application would have to know
    have hlast : d'.log = d.log ++ before ++
        [.refused (.taskAllocated task c container) .shutdown] ++ after := by
      rw [hlog', List.append_assoc _ _ after]
      rfl
    have hheard := hd'.accepted_of_mem_words hrest' hleaving hlast (by simp [hwords])
    cases hrows _ (hsplit ▸ List.mem_append_right _ (.tail _ hheard))
  · have hcall : .made (.giveBack container.id) ∈ after :=
      made_giveBack_iff.mpr (List.count_pos_iff.mp (by omega))
    exact ⟨hreturned, hsplit ▸ List.mem_append_right _ (.tail _ hcall)⟩

/-- What runs when such an operation returns ran before, for the same request. -/
theorem active_of_unheard (hd : d.Reachable cx.policy) (hrest : d.AtRest)
    (hnext : op.isRequest = true → d.scheduler.ledger.HasCookies)
    (hflush : (d.use cx op).Flushes d') (hrest' : d'.AtRest) (hlog : d'.log = d.log ++ rows)
    (hrows : ∀ attempt ∈ rows, attempt.Unheard)
    (hactive : d'.scheduler.ledger.assignment? k = some (.active c)) :
    d.scheduler.ledger.assignment? k = some (.active c) := by
  have hd' : d'.Reachable cx.policy := (hd.use rfl hnext).flushes hflush
  have hsilent : .allocated ∉ words k (rows.map Attempt.effect) := fun hword => by
    have hreturned :=
      (givenBack_of_allocated hd hrest hnext hflush hrest' hlog hrows hword).1
    rw [stage_of_assignment? hactive] at hreturned
    cases hreturned
  refine hd.underway.active_of_silent (hd.course_use hnext hflush) ?_ hactive
  rw [hd.effectsSince hrest hd' hlog, hrest'.done, hrest'.empty]
  simpa using hsilent

/-- A grant that nobody hears of is given back, unless the container was held before. -/
theorem givenBack_of_granted (hd : d.Reachable cx.policy) (hrest : d.AtRest)
    {containers : List Container}
    (hflush : (d.use cx (.hear (.allocated containers))).Flushes d') (hrest' : d'.AtRest)
    (hlog : d'.log = d.log ++ rows) (hrows : ∀ attempt ∈ rows, attempt.Unheard)
    {container : Container} (hmem : container ∈ containers)
    (hnew : d.scheduler.ledger.holding? container.id = none) :
    .made (.giveBack container.id) ∈ rows := by
  have hnext : (Scheduler.Operation.hear (.allocated containers)).isRequest = true →
      d.scheduler.ledger.HasCookies := nofun
  have hs := hd.underway.coherent
  have hused : (d.use cx (.hear (.allocated containers))).Reachable cx.policy := hd.use rfl hnext
  have hd' : d'.Reachable cx.policy := hused.flushes hflush
  obtain ⟨w, hword, hw⟩ := mem_words_receiveAll hs cx hmem hnew
  have hsaid := mem_words_since (course_after hs cx _ hnext).journal
    (hflush.silent hused container.id).1 (.inl hword)
  rw [hd.effectsSince hrest hd' hlog, hrest'.done, hrest'.empty] at hsaid
  simp only [Option.map_none, Option.toList_none, List.append_nil] at hsaid
  rcases hw with rfl | rfl
  · exact (givenBack_of_allocated hd hrest hnext hflush hrest' hlog hrows hsaid).2
  · exact made_giveBack_iff.mpr hsaid

end Courier

end TaskFleet
