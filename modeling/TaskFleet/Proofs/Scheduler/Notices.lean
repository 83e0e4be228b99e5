import TaskFleet.Proofs.Scheduler.Fate
import TaskFleet.Proofs.Scheduler.Flush

/-!
# Nobody waits for an answer that was not asked for

The application is told that a container is taken away and is to give it back.  If the
notice does not reach it, it cannot, so the scheduler gives the container back itself; it
must neither forget one nor give one back twice, whatever happens before the answer comes.

Once the notice is decided the container is leaving and nothing more is said of it, or it was
given back and this is said once, unless it completes (`Underway.announced`).  A refusal
excludes the first (`stage_refused_containerBeingReleased`), and what was given back stays so
(`Course.returned`), so from the refusal on the container is given back
(`Courier.Reachable.returned_of_refused`).  The other way round, what is leaving was announced
and nothing was said since (`Underway.leaving`), so its notice cannot have been refused.
-/

namespace TaskFleet

/-! ## Once it is announced -/

/-- What was announced to be taken away and is not leaving was given back once. -/
theorem Fate.of_beingReleased {a : Stage} {ws : List Word} (h : Fate a (.beingReleased :: ws))
    (ha : a ≠ .leaving) : a = .returned ∧ ws = [.givenBack] := by
  cases h with
  | leaving => exact absurd rfl ha
  | returnedAfterNotice => exact ⟨rfl, rfl⟩

/-- The story of a container that was given back after this was announced. -/
theorem Told.of_announced {story : List Word}
    (h : Told .returned ([.beingReleased, .givenBack].foldl Word.continue story)) :
    ∃ n, [.beingReleased, .givenBack].foldl Word.continue story =
      .replicate (n + 1) .allocated ++ [.beingReleased, .givenBack] := by
  generalize hwhole : [Word.beingReleased, .givenBack].foldl Word.continue story = whole at h
  cases h with
  | returned n =>
      -- before it was given back nothing else would have been said
      have hmem : Word.beingReleased ∈ List.replicate (n + 1) .allocated ++ [.givenBack] := by
        rw [← hwhole]
        by_cases hstory : story = []
        · simp [hstory, Word.continue] at hwhole
        · simp [hstory, Word.continue]
      simp at hmem
  | returnedAfterNotice n => exact ⟨n, rfl⟩

theorem Passes.eq_leaving {a b : Stage} (h : Passes a [.beingReleased] b) : b = .leaving := by
  generalize hws : [Word.beingReleased] = ws at h
  cases h <;> cases hws
  rfl

theorem Passes.leaving_cases {a b : Stage} {ws : List Word} (h : Passes a ws b)
    (hb : b = .leaving) : a = .leaving ∧ ws = [] ∨ ws = [.beingReleased] := by
  cases h with
  | stay => exact .inl ⟨hb, rfl⟩
  | announce => exact .inr rfl
  | _ => cases hb

theorem Effect.word?_eq_beingReleased {k : ContainerId} {e : Effect} :
    e.word? k = some .beingReleased ↔ e = .notify (.containerBeingReleased k) := by
  constructor
  · intro h
    unfold Effect.word? at h
    split at h
    · split at h <;> cases h
    · split at h
      · next hk => rw [hk]
      · cases h
    · split at h <;> cases h
    · split at h <;> cases h
    · cases h
  · rintro rfl
    simp [Effect.word?]

namespace Scheduler

variable {policy : Policy} {s t : Scheduler} {es : List Effect} {k : ContainerId} {c : Cookie}

/-- Once it was decided to announce that a container is taken away, it is leaving and
nothing else was decided about it, or it was given back once, or it has completed. -/
theorem Underway.announced (hs : Underway policy s) {before later : List Effect}
    (h : s.journal = before ++ .notify (.containerBeingReleased k) :: later)
    (hopen : .completed ∉ words k later) :
    Fate (s.ledger.stage k) (.beingReleased :: words k later) := by
  have hall := hs.induct (P := fun s => ∀ before later,
    s.journal = before ++ .notify (.containerBeingReleased k) :: later →
    .completed ∉ words k later → Fate (s.ledger.stage k) (.beingReleased :: words k later))
    ?_ ?_
  · exact hall before later h hopen
  · intro before later h
    cases before <;> cases h
  · intro s es t hs hmove ih before later h hopen
    have hpass := hmove.passes hs.coherent k
    rw [hmove.journal] at h
    rcases append_eq_append_cons h with ⟨mid, hold, rfl⟩ | ⟨mid, -, rfl⟩
    · -- the notice is an old one
      rw [words_append] at hopen ⊢
      rw [List.mem_append, not_or] at hopen
      exact hpass.fate (ih before mid hold hopen.1) (by simp) hopen.2
    · -- the notice is decided now, and it is the only word of this move
      obtain ⟨hannounced, hlater⟩ := hpass.of_word?_eq rfl (if_pos rfl)
      rw [hlater, hannounced.eq_leaving]
      exact .leaving

/-- The last word about a container that is leaving is that it is. -/
theorem Underway.leaving (hs : Underway policy s) (hk : s.ledger.stage k = .leaving) :
    ∃ before later, s.journal = before ++ .notify (.containerBeingReleased k) :: later ∧
      words k later = [] := by
  have hall := hs.induct (P := fun s => s.ledger.stage k = .leaving → ∃ before later,
    s.journal = before ++ .notify (.containerBeingReleased k) :: later ∧ words k later = []) ?_ ?_
  · exact hall hk
  · intro h
    cases h
  · intro s es t hs hmove ih hk
    rcases (hmove.passes hs.coherent k).leaving_cases hk with ⟨hbefore, hnone⟩ | hword
    · obtain ⟨before, later, hjournal, hlater⟩ := ih hbefore
      refine ⟨before, later ++ es, ?_, ?_⟩
      · rw [hmove.journal, hjournal, List.append_assoc, List.cons_append]
      · rw [words_append, hlater, hnone, List.append_nil]
    · obtain ⟨mid, e, later, rfl, -, he, hlater⟩ := List.filterMap_eq_cons_iff.mp hword
      rw [e.word?_eq_beingReleased.mp he] at hmove
      exact ⟨s.journal ++ mid, later, by rw [hmove.journal, List.append_assoc], hlater⟩

/-- What was given back is so until it completes. -/
theorem Course.returned (h : Course policy s t) (hs : s.ledger.Coherent)
    (hk : s.ledger.stage k = .returned) (hopen : .completed ∉ words k (t.effectsSince s)) :
    t.ledger.stage k = .returned := by
  have hall := h.keeps (P := fun t => t.ledger.Coherent ∧ s.journal <+: t.journal ∧
    (.completed ∉ words k (t.effectsSince s) → t.ledger.stage k = .returned)) ?_
    ⟨hs, List.prefix_refl _, fun _ => hk⟩
  · exact hall.2.2 hopen
  · intro t es u hmove ⟨ht, hjournal, hkept⟩
    have hlonger : t.journal <+: u.journal := ⟨es, hmove.journal.symm⟩
    refine ⟨hmove.coherent ht, hjournal.trans hlonger, fun hopen => ?_⟩
    rw [effectsSince_trans hjournal hlonger, words_append, List.mem_append, not_or,
      effectsSince_of_journal hmove.journal] at hopen
    have hpass := hmove.passes ht k
    rw [hkept hopen.1] at hpass
    exact (hpass.eq_of_returned hopen.2).2

/-- The refusal of the notice is made good by giving the container back. -/
theorem stage_refused_containerBeingReleased (s : Scheduler) (now : Instant) (k : ContainerId)
    (cause : DispatchError) :
    (s.refused now (.containerBeingReleased k) cause).ledger.stage k ≠ .leaving := by
  rw [ledger_refused, giveUpUnheard]
  split
  · next c hassignment =>
    have hleaving : s.ledger.stage k = .leaving :=
      Ledger.stage_eq_leaving_iff.mpr ⟨c, hassignment⟩
    rw [stage_releaseHeld (by simp [hleaving])]
    simp
  · next hnot =>
    intro hleaving
    obtain ⟨c, hassignment⟩ := Ledger.stage_eq_leaving_iff.mp hleaving
    exact hnot c hassignment

end Scheduler

/-! ## Nobody waits -/

namespace Courier

variable {policy : Policy} {d d' : Courier} {k : ContainerId}

theorem Step.refused_cases (h : Step policy d d') {before after : List Attempt}
    {notice : Notice} {cause : DispatchError}
    (hlog : d'.log = before ++ .refused notice cause :: after) :
    (∃ mid, d.log = before ++ .refused notice cause :: mid) ∨
      d.inHand = some notice ∧ before = d.log ∧
        ∃ now, d'.scheduler = d.scheduler.refused now notice cause := by
  cases h with
  | operate op now headroom hnext => exact .inl ⟨after, hlog⟩
  | carry h => exact h.refused_cases hlog

/-- A container whose notice was refused is given back from then on, until it completes. -/
theorem Reachable.returned_of_refused (hd : d.Reachable policy) {before after : List Attempt}
    {cause : DispatchError} {later : List Effect}
    (hlog : d.log = before ++ .refused (.containerBeingReleased k) cause :: after)
    (hjournal : d.scheduler.journal = before.map Attempt.effect ++
      .notify (.containerBeingReleased k) :: later)
    (hopen : .completed ∉ words k later) : d.scheduler.ledger.stage k = .returned := by
  have hall := hd.induct (P := fun d => ∀ before after later,
    d.log = before ++ .refused (.containerBeingReleased k) cause :: after →
    d.scheduler.journal = before.map Attempt.effect ++
      .notify (.containerBeingReleased k) :: later →
    .completed ∉ words k later → d.scheduler.ledger.stage k = .returned) ?_ ?_
  · exact hall before after later hlog hjournal hopen
  · intro max before after later hlog
    cases before <;> cases hlog
  · intro d d' hd hstep ih before after later hlog hjournal hopen
    rcases hstep.refused_cases hlog with ⟨mid, hold⟩ | ⟨-, -, now, hrefused⟩
    · -- the refusal is an old one, and so is what was decided before
      have hcourse : d.scheduler.Course policy d'.scheduler :=
        hstep.run.course hd.underway.coherent
      obtain ⟨es, hes⟩ := hcourse.journal
      obtain ⟨old, hold'⟩ := hd.journal_of_log hold
      have hlater : later = old ++ es := by
        rw [← hes, hold', List.append_assoc, List.append_cancel_left_eq] at hjournal
        exact (List.cons.inj hjournal).2.symm
      rw [hlater, words_append, List.mem_append, not_or] at hopen
      have hreturned := ih before mid old hold hold' hopen.1
      refine hcourse.returned hd.underway.coherent hreturned ?_
      rw [Scheduler.effectsSince_of_journal hes.symm]
      exact hopen.2
    · have hfate := (hd.step hstep).underway.announced hjournal hopen
      rw [hrefused] at hfate ⊢
      exact (hfate.of_beingReleased (d.scheduler.stage_refused_containerBeingReleased now k cause)).1

/-- The last word about a container that is to be given up is a notice, and the application
has accepted it. -/
theorem Reachable.accepted_of_leaving (hd : d.Reachable policy) (hrest : d.AtRest)
    (hk : d.scheduler.ledger.stage k = .leaving) :
    ∃ before after, d.log = before ++ .accepted (.containerBeingReleased k) :: after ∧
      words k (after.map Attempt.effect) = [] := by
  obtain ⟨earlier, later, hjournal, hlater⟩ := hd.underway.leaving hk
  obtain ⟨before, attempt, after, hlog, heffect, rfl, rfl⟩ := hd.log_of_journal hrest hjournal
  cases attempt with
  | made call => cases heffect
  | accepted notice =>
      cases heffect
      exact ⟨before, after, hlog, hlater⟩
  | refused notice cause =>
      -- if it had been refused, the container would not be leaving
      cases heffect
      have hreturned := hd.returned_of_refused hlog hjournal (by simp [hlater])
      rw [hk] at hreturned
      cases hreturned

/-- Nobody waits for an answer that was not asked for.  Whenever nothing is left to do, the
last word about a container that is to be given up is a notice that the application has
accepted.  And if the notice was refused, then, until the container completes, it is given
back, which was decided once while it was held, and whoever it was handed to is gone. -/
theorem answer_was_asked_for {d : Courier} (hd : d.Reachable policy) (hrest : d.AtRest)
    (k : ContainerId) :
    (∀ c, d.scheduler.ledger.assignment? k = some (.beingReleased c) →
      ∃ before after, d.log = before ++ .accepted (.containerBeingReleased k) :: after ∧
        words k (after.map Attempt.effect) = []) ∧
    ∀ before after cause, d.log = before ++ .refused (.containerBeingReleased k) cause :: after →
      .completed ∉ words k (after.map Attempt.effect) →
        (∃ task, d.scheduler.ledger.assignment? k = some (.released task)) ∧
          words k (after.map Attempt.effect) = [.givenBack] ∧
          (∃ n, d.scheduler.tale k = .replicate (n + 1) .allocated ++ [.beingReleased, .givenBack]) ∧
          ∀ task c container, .notify (.taskAllocated task c container) ∈ d.effects →
            container.id = k → d.scheduler.ledger.entries.get? c = none := by
  refine ⟨fun c hassignment => ?_, fun before after cause hlog hopen => ?_⟩
  · exact hd.accepted_of_leaving hrest (Ledger.stage_eq_leaving_iff.mpr ⟨c, hassignment⟩)
  · have hs := hd.underway
    have hjournal : d.scheduler.journal = before.map Attempt.effect ++
        .notify (.containerBeingReleased k) :: after.map Attempt.effect := by
      rw [hd.journal_of_atRest hrest, effects, hlog, List.map_append]
      rfl
    have hk := hd.returned_of_refused hlog hjournal hopen
    have hfate := hs.announced hjournal hopen
    obtain ⟨-, hwords⟩ := hfate.of_beingReleased (by simp [hk])
    refine ⟨Ledger.stage_eq_returned_iff.mp hk, hwords, ?_, ?_⟩
    · -- the story ends with these two words
      have htold := hs.told k
      have hword : words k (.notify (.containerBeingReleased k) :: after.map Attempt.effect) =
          [.beingReleased, .givenBack] := by
        rw [← hwords]
        simp [words, Effect.word?]
      rw [hk, Scheduler.tale, hjournal, words_append, hword, List.foldl_append] at htold
      rw [Scheduler.tale, hjournal, words_append, hword, List.foldl_append]
      exact htold.of_announced
    · intro task c container he hid
      rw [← hd.journal_of_atRest hrest] at he
      exact hs.gone_of_returned he (hid ▸ hk)

/-- Two tasks have to give their containers up, and only the second one hears of it.  It has
to answer; the container of the first one is given back, and its request is gone. -/
theorem answer_was_asked_for_refused :
    let policy : Policy := ⟨.standard, .alwaysMatch⟩
    let request (priority : UInt32) (capability : Resource) : TaskRequest :=
      ⟨⟨7⟩, capability, ⟨priority⟩, ⟨[], [], true⟩, ⟨0, ⟨⟨1024, 1⟩, .empty, .empty⟩⟩⟩
    let granted (name : String) (cookie : UInt64) : Container :=
      ⟨⟨name⟩, ⟨"host1", 8041⟩, none, ⟨1024, 1⟩, ⟨5⟩, some ⟨cookie⟩, none⟩
    let ops : List Scheduler.Operation := [.request (request 5 ⟨1024, 1⟩),
      .hear (.allocated [granted "c_1" 1]), .request (request 1 ⟨1024, 1⟩),
      .hear (.allocated [granted "c_2" 2]), .request (request 0 ⟨2048, 2⟩)]
    let w := ops.foldl (fun w op => prompted.operate policy op w)
      (Prompter.start { Client.connect .zero with headroom := some .zero }
        [.ok (), .error .queueFull])
    let d := Prompter.books.courier w
    (∃ before after, d.log = before ++ .accepted (.containerBeingReleased ⟨"c_2"⟩) :: after ∧
        words ⟨"c_2"⟩ (after.map Attempt.effect) = []) ∧
      (∃ task, d.scheduler.ledger.assignment? ⟨"c_1"⟩ = some (.released task)) ∧
      d.scheduler.ledger.entries.get? ⟨1⟩ = none := by
  intro policy request granted ops w d
  have hw : Prompter.books.Resting policy w := by
    refine Prompter.keepsBooks.operations (Prompter.resting_start policy _ rfl _) ops ?_
    decide
  obtain ⟨hasked, -⟩ := answer_was_asked_for hw.reachable hw.atRest ⟨"c_2"⟩
  obtain ⟨-, hrefused⟩ := answer_was_asked_for hw.reachable hw.atRest ⟨"c_1"⟩
  obtain ⟨hreturned, -, -, hgone⟩ :=
    hrefused (d.log.take 4) (d.log.drop 5) .queueFull (by decide +kernel) (by decide +kernel)
  refine ⟨hasked ⟨2⟩ (by decide +kernel), hreturned, ?_⟩
  refine hgone ⟨7⟩ ⟨1⟩ { granted "c_1" 1 with
    signature := some (request 5 ⟨1024, 1⟩).signature } ?_ rfl
  decide +kernel

end Courier

end TaskFleet
