import TaskFleet.Proofs.Scheduler.Protocol

/-!
# Away

A container that was given back is `Away` until it completes.  One that was held is then
marked in the ledger; one that was turned away on arrival is not held, and its completion
is awaited, though not for ever.

What is said of a container is what is recorded of it (`Decision.words_eq`), so it can be
read off the kind of a decision whether it can change that a container is away: it has to
be a grant, or about a completion.  `StaysAway` puts this together for one decision after
another, with `Returns` for what remains where the absence of the container may end.
-/

namespace TaskFleet

/-! ## What is recorded is what is said -/

/-- What is said of the container for which a decision is recorded. -/
def AuditAction.word? : AuditAction → Option Word
  | .allocated | .reused => some .allocated
  | .preempted => some .beingReleased
  | .released | .unsolicited | .lateAllocation => some .givenBack
  | .completed => some .completed
  | .requested | .withdrawn | .idled => none

theorem mem_words_of_allocated {task : TaskId} {c : Cookie} {container : Container}
    {es : List Effect} (he : .notify (.taskAllocated task c container) ∈ es) :
    .allocated ∈ words container.id es :=
  List.mem_filterMap.mpr ⟨_, he, if_pos rfl⟩

namespace Passes

variable {a b : Stage} {ws : List Word}

theorem length_le (h : Passes a ws b) : ws.length ≤ 1 := by
  cases h <;> simp

theorem eq_of_returned (h : Passes .returned ws b) (hws : .completed ∉ ws) :
    ws = [] ∧ b = .returned := by
  cases h with
  | stay => exact ⟨rfl, rfl⟩
  | giveBack _ honce => exact absurd rfl honce
  | complete => simp at hws

theorem eq_of_absent (h : Passes .absent ws b) (hws : .allocated ∉ ws) : b = .absent := by
  cases h with
  | stay => rfl
  | grant => simp at hws
  | turnAway => rfl
  | giveBack hheld => exact absurd rfl hheld
  | complete hheld => exact absurd rfl hheld

theorem ne_absent (h : Passes a ws b) (ha : a ≠ .absent) (hws : .completed ∉ ws) :
    b ≠ .absent := by
  cases h with
  | stay => exact ha
  | turnAway => exact absurd rfl ha
  | complete => simp at hws
  | _ => simp

theorem ne_running (h : Passes a ws b) (ha : a ≠ .running) (hws : .allocated ∉ ws) :
    b ≠ .running := by
  cases h with
  | stay => exact ha
  | grant => simp at hws
  | hand => simp at hws
  | _ => simp

theorem eq_running (h : Passes a ws b) (hws : .allocated ∈ ws) : b = .running := by
  cases h <;> simp at hws ⊢

end Passes

namespace Scheduler

variable {policy : Policy} {s t u : Scheduler} {o : Outcome} {k : ContainerId}

namespace Decision

/-- A decision says of the container that it is recorded for what its record says, and
nothing of any other. -/
theorem words_eq (h : Decision policy s o) (hs : s.ledger.Coherent) (k : ContainerId) :
    words k o.effects =
      if o.container? = some k then (o.action?.bind AuditAction.word?).toList else [] := by
  cases h with
  | ask now hpending hledger => exact words_submit k _
  | hand now hrequest hheld hlarge hserves hledger =>
      rw [words_append, words_withdrawal, List.nil_append, words_about fun _ => rfl]
      simp [Outcome.container?, Outcome.action?, AuditAction.word?]
  | grant now hwanted hrequest hledger hheld =>
      have hid := (hs.allocate hledger).keyed _ _ hheld
      rw [words_append, words_withdrawal, List.nil_append, words_about fun _ => rfl, hid]
      simp [Outcome.container?, Outcome.action?, AuditAction.word?]
  | withdraw => exact words_withdrawal k _ _
  | retire => simp [words, Outcome.action?, AuditAction.word?]
  | turnAway now cookie detail hnew haction =>
      rw [words_about fun _ => rfl]
      rcases haction with rfl | rfl <;> simp [Outcome.container?, Outcome.action?, AuditAction.word?]
  | announce | giveBack | complete =>
      rw [words_about fun _ => rfl]
      simp [Outcome.container?, Outcome.action?, AuditAction.word?]
  | unawait => rfl
  | forget => rfl
  | news notice hnews => exact words_news k hnews

theorem mem_words_iff (h : Decision policy s o) (hs : s.ledger.Coherent) {w : Word} :
    w ∈ words k o.effects ↔
      o.container? = some k ∧ o.action?.bind AuditAction.word? = some w := by
  rw [h.words_eq hs]
  split <;> simp [*]

/-- Of a container that is not held, only a grant says that it is handed out. -/
theorem eq_allocated_of_absent (h : Decision policy s o) (hs : s.ledger.Coherent)
    (habsent : s.ledger.stage k = .absent) (hword : .allocated ∈ words k o.effects) :
    o.action? = some .allocated ∧ o.container? = some k := by
  obtain ⟨hk, hsaid⟩ := (h.mem_words_iff hs).mp hword
  cases h with
  | grant => exact ⟨rfl, hk⟩
  | hand now hrequest hheld hlarge hserves hledger =>
      -- what is handed on from one task to another is held
      obtain ⟨entry, held, -, -, hheld, -, -, rfl, -⟩ := Ledger.assignIdle_ok hledger
      have hk : held.container.id = k := Option.some.inj hk
      rw [← hk, hs.keyed _ held hheld, stage_of_get? hheld] at habsent
      exact absurd habsent held.assignment.stage_ne_absent
  | turnAway now cookie detail hnew haction => rcases haction with rfl | rfl <;> cases hsaid
  | _ => cases hsaid

/-- Only the record of a completion says that a container has completed. -/
theorem completed_notMem (h : Decision policy s o) (hs : s.ledger.Coherent)
    (hcompleted : o.action? ≠ some .completed) : .completed ∉ words k o.effects := by
  intro hword
  obtain ⟨-, hsaid⟩ := (h.mem_words_iff hs).mp hword
  obtain ⟨action, haction, hsaid⟩ := Option.bind_eq_some_iff.mp hsaid
  have hrecorded : action = .completed := by
    cases action <;> simp [AuditAction.word?] at hsaid ⊢
  exact hcompleted (hrecorded ▸ haction)

/-- After a decision a completion is awaited only if it was before, or the container was
turned away. -/
theorem awaiting_cases (h : Decision policy s o) (hawaited : o.awaiting.get? k ≠ none) :
    s.awaiting.get? k ≠ none ∨ o.ledger.stage k = .absent := by
  cases h with
  | @turnAway id action now cookie detail hnew haction =>
      by_cases hk : k = id
      · subst hk
        exact .inr (stage_of_get?_none hnew)
      · rw [SortedMap.get?_insert_ne _ _ hk] at hawaited
        exact .inl hawaited
  | @unawait id hnew =>
      rw [SortedMap.get?_erase] at hawaited
      split at hawaited
      · exact absurd rfl hawaited
      · exact .inl hawaited
  | forget asOf =>
      obtain ⟨at_, hat⟩ := Option.ne_none_iff_exists'.mp hawaited
      rw [SortedMap.get?_filter_eq_some_iff] at hat
      exact .inl (by simp [hat.1])
  | _ => exact .inl hawaited

/-- A decision that is recorded leaves no completion unawaited that was awaited. -/
theorem awaits (h : Decision policy s o) (hkind : o.action? ≠ none)
    (hawaited : s.awaiting.get? k ≠ none) : o.awaiting.get? k ≠ none := by
  cases h with
  | turnAway =>
      rw [SortedMap.get?_insert]
      split
      · simp
      · exact hawaited
  | unawait => exact absurd rfl hkind
  | forget => exact absurd rfl hkind
  | _ => exact hawaited

/-- A container of which it is said that it was given back is marked in the ledger, or it
is not held and its completion is awaited. -/
theorem of_givenBack (h : Decision policy s o) (hs : s.ledger.Coherent)
    (hword : .givenBack ∈ words k o.effects) :
    o.ledger.stage k = .returned ∨
      o.ledger.stage k = .absent ∧ o.awaiting.get? k ≠ none := by
  obtain ⟨hk, hsaid⟩ := (h.mem_words_iff hs).mp hword
  cases h with
  | turnAway now cookie detail hnew haction =>
      cases Option.some.inj hk
      exact .inr ⟨stage_of_get?_none hnew, by simp⟩
  | giveBack now reason hledger =>
      cases Option.some.inj hk
      have hassign := Ledger.assignment?_release hledger k
      rw [if_pos rfl] at hassign
      exact .inl (stage_of_assignment? hassign)
  | _ => cases hsaid

end Decision

/-! ## Away -/

/-- The container was given back and has not completed: the ledger marks it, or it is not
held and its completion is awaited. -/
def Away (s : Scheduler) (k : ContainerId) : Prop :=
  s.ledger.stage k = .returned ∨ s.ledger.stage k = .absent ∧ s.awaiting.get? k ≠ none

/-- The container is not both held and awaited to complete as one that is not held. -/
def Apart (s : Scheduler) (k : ContainerId) : Prop :=
  s.ledger.stage k = .absent ∨ s.awaiting.get? k = none

/-- The effects decided on since an earlier state of the scheduler. -/
def effectsSince (s earlier : Scheduler) : List Effect :=
  s.journal.drop earlier.journal.length

theorem effectsSince_of_journal {es : List Effect} (h : t.journal = s.journal ++ es) :
    t.effectsSince s = es := by
  simp [effectsSince, h]

theorem effectsSince_trans (h : s.journal <+: t.journal) (h' : t.journal <+: u.journal) :
    u.effectsSince s = t.effectsSince s ++ u.effectsSince t := by
  obtain ⟨es, h⟩ := h
  obtain ⟨fs, h'⟩ := h'
  rw [effectsSince_of_journal h.symm, effectsSince_of_journal h'.symm]
  refine effectsSince_of_journal ?_
  rw [← h', ← h, List.append_assoc]

/-- From `s` to `t` the container is not handed out any more once it was given back, and is
then away. -/
structure Returns (k : ContainerId) (s t : Scheduler) : Prop where
  journal : s.journal <+: t.journal
  ordered : (words k (t.effectsSince s)).Pairwise fun a b => a = .givenBack → b ≠ .allocated
  away : .givenBack ∈ words k (t.effectsSince s) → t.Away k
  apart : s.Apart k → t.Apart k

/-- Moreover, if the container is away in `s`, it is not handed out at all and still away
in `t`. -/
structure StaysAway (k : ContainerId) (s t : Scheduler) : Prop extends Returns k s t where
  silent : s.Away k → .allocated ∉ words k (t.effectsSince s)
  still : s.Away k → t.Away k

theorem Returns.trans (h : Returns k s t) (h' : StaysAway k t u) : Returns k s u where
  journal := h.journal.trans h'.journal
  ordered := by
    rw [effectsSince_trans h.journal h'.journal, words_append]
    refine List.pairwise_append.mpr ⟨h.ordered, h'.ordered, fun a ha b hb hgiven hagain => ?_⟩
    exact h'.silent (h.away (hgiven ▸ ha)) (hagain ▸ hb)
  away hword := by
    rw [effectsSince_trans h.journal h'.journal, words_append] at hword
    rcases List.mem_append.mp hword with hfirst | hlast
    · exact h'.still (h.away hfirst)
    · exact h'.away hlast
  apart hs := h'.apart (h.apart hs)

/-- As long as the container is not given back, nothing has to be respected. -/
theorem Returns.trans_of_notMem (h : Returns k s t)
    (hkept : .givenBack ∉ words k (t.effectsSince s)) (h' : Returns k t u) :
    Returns k s u where
  journal := h.journal.trans h'.journal
  ordered := by
    rw [effectsSince_trans h.journal h'.journal, words_append]
    exact List.pairwise_append.mpr
      ⟨h.ordered, h'.ordered, fun a ha b _ hgiven => absurd (hgiven ▸ ha) hkept⟩
  away hword := by
    rw [effectsSince_trans h.journal h'.journal, words_append] at hword
    exact h'.away ((List.mem_append.mp hword).resolve_left hkept)
  apart hs := h'.apart (h.apart hs)

namespace StaysAway

theorem trans (h : StaysAway k s t) (h' : StaysAway k t u) : StaysAway k s u where
  toReturns := h.toReturns.trans h'
  silent haway := by
    rw [effectsSince_trans h.journal h'.journal, words_append, List.mem_append, not_or]
    exact ⟨h.silent haway, h'.silent (h.still haway)⟩
  still haway := h'.still (h.still haway)

/-- Nothing is decided, and the container stands where it stood. -/
theorem of_eq (hjournal : t.journal = s.journal)
    (hstage : t.ledger.stage k = s.ledger.stage k)
    (hawaiting : t.awaiting.get? k = s.awaiting.get? k) : StaysAway k s t := by
  have hnothing : t.effectsSince s = [] :=
    effectsSince_of_journal (hjournal.trans (List.append_nil _).symm)
  have hsame : s.Away k → t.Away k := by
    rw [Away, Away, hstage, hawaiting]
    exact id
  refine ⟨⟨hjournal ▸ List.prefix_refl _, ?_, ?_, ?_⟩, ?_, hsame⟩
  · simp [hnothing, words]
  · simp [hnothing, words]
  · rw [Apart, Apart, hstage, hawaiting]
    exact id
  · simp [hnothing, words]

theorem refl (s : Scheduler) : StaysAway k s s :=
  of_eq rfl rfl rfl

end StaysAway

/-! ## Decisions -/

theorem prefix_journal_adopt (s : Scheduler) (o : Outcome) :
    s.journal <+: (s.adopt o).journal :=
  ⟨o.effects, by simp [journal, adopt]⟩

@[simp] theorem effectsSince_adopt (s : Scheduler) (o : Outcome) :
    (s.adopt o).effectsSince s = o.effects :=
  effectsSince_of_journal (by simp [journal, adopt])

namespace Decision

/-- A decision respects that a container was given back, unless it grants the container
while its completion is awaited. -/
theorem returns (h : Decision policy s o) (hs : s.ledger.Coherent)
    (hgrant : s.ledger.stage k = .absent → s.awaiting.get? k ≠ none →
      .allocated ∉ words k o.effects) : Returns k s (s.adopt o) where
  journal := s.prefix_journal_adopt o
  ordered := by
    rw [effectsSince_adopt]
    have hlength := (h.passes hs k).length_le
    generalize words k o.effects = ws at hlength ⊢
    match ws, hlength with
    | [], _ => exact .nil
    | [w], _ => exact List.pairwise_singleton ..
  away hword := by
    rw [effectsSince_adopt] at hword
    exact h.of_givenBack hs hword
  apart hapart := by
    have hpass := h.passes hs k
    by_cases hawaited : o.awaiting.get? k = none
    · exact .inr hawaited
    · refine .inl ?_
      rcases h.awaiting_cases hawaited with hbefore | habsent
      · -- it was awaited and so not held, and only a grant could change that
        have habsent : s.ledger.stage k = .absent := hapart.resolve_right hbefore
        have hsilent := hgrant habsent hbefore
        rw [habsent] at hpass
        exact hpass.eq_of_absent hsilent
      · exact habsent

/-- A decision by which the container does not complete, and which awaits it as before,
leaves it away. -/
theorem staysAway (h : Decision policy s o) (hs : s.ledger.Coherent)
    (hgrant : s.ledger.stage k = .absent → s.awaiting.get? k ≠ none →
      .allocated ∉ words k o.effects)
    (hcompleted : .completed ∉ words k o.effects)
    (hawaits : s.ledger.stage k = .absent → s.awaiting.get? k ≠ none →
      o.awaiting.get? k ≠ none) : StaysAway k s (s.adopt o) where
  toReturns := h.returns hs hgrant
  silent haway := by
    rw [effectsSince_adopt]
    have hpass := h.passes hs k
    rcases haway with hreturned | ⟨habsent, hawaited⟩
    · rw [hreturned] at hpass
      simp [(hpass.eq_of_returned hcompleted).1]
    · exact hgrant habsent hawaited
  still haway := by
    have hpass := h.passes hs k
    rcases haway with hreturned | ⟨habsent, hawaited⟩
    · rw [hreturned] at hpass
      exact .inl (hpass.eq_of_returned hcompleted).2
    · rw [habsent] at hpass
      exact .inr ⟨hpass.eq_of_absent (hgrant habsent hawaited), hawaits habsent hawaited⟩

/-- A recorded decision that is not about a completion leaves a container away, unless it
grants it. -/
theorem staysAway_of_action (h : Decision policy s o) (hs : s.ledger.Coherent)
    (hnone : o.action? ≠ none) (hcompleted : o.action? ≠ some .completed)
    (hgrant : o.action? = some .allocated → o.container? = some k →
      s.awaiting.get? k = none) : StaysAway k s (s.adopt o) := by
  refine h.staysAway hs (fun habsent hawaited hword => ?_) (h.completed_notMem hs hcompleted)
    fun _ hawaited => h.awaits hnone hawaited
  obtain ⟨haction, hcontainer⟩ := h.eq_allocated_of_absent hs habsent hword
  exact hawaited (hgrant haction hcontainer)

end Decision

theorem DecisionsAmong.coherent {actions : List (Option AuditAction)}
    (h : DecisionsAmong policy actions s t) (hs : s.ledger.Coherent) : t.ledger.Coherent :=
  h.keeps (P := fun t => t.ledger.Coherent) (fun _ _ ho _ ht => ho.coherent ht) hs

theorem DecisionsAmong.journal {actions : List (Option AuditAction)}
    (h : DecisionsAmong policy actions s t) : s.journal <+: t.journal :=
  h.keeps (P := fun t => s.journal <+: t.journal)
    (fun t o _ _ ht => ht.trans (t.prefix_journal_adopt o)) (List.prefix_refl _)

/-- What holds while nothing is decided on and is kept by every decision of these kinds holds
of the decisions, with all that was decided on. -/
theorem DecisionsAmong.induct {actions : List (Option AuditAction)}
    {P : Scheduler → List Effect → Prop} (h : DecisionsAmong policy actions s t)
    (hs : s.ledger.Coherent) (hstart : P s [])
    (hstep : ∀ t es o, t.ledger.Coherent → Decision policy t o → o.action? ∈ actions →
      P t es → P (t.adopt o) (es ++ o.effects)) : P t (t.effectsSince s) := by
  have hall := h.keeps (P := fun t => t.ledger.Coherent ∧ s.journal <+: t.journal ∧
    P t (t.effectsSince s)) ?_ ⟨hs, List.prefix_refl _, ?_⟩
  · exact hall.2.2
  · intro t o ho haction ⟨ht, hjournal, hP⟩
    have hlonger := t.prefix_journal_adopt o
    refine ⟨ho.coherent ht, hjournal.trans hlonger, ?_⟩
    rw [effectsSince_trans hjournal hlonger, effectsSince_adopt]
    exact hstep t _ o ht ho haction hP
  · rw [effectsSince, List.drop_length]
    exact hstart

theorem DecisionsAmong.staysAway {actions : List (Option AuditAction)}
    (h : DecisionsAmong policy actions s t) (hs : s.ledger.Coherent)
    (hactions : none ∉ actions ∧ some .completed ∉ actions ∧ some .allocated ∉ actions) :
    StaysAway k s t := by
  obtain ⟨hnone, hcompleted, hallocated⟩ := hactions
  refine h.induct (P := fun t _ => StaysAway k s t) hs (.refl s) ?_
  intro t _ o ht ho haction hst
  refine hst.trans (ho.staysAway_of_action ht ?_ ?_ ?_)
  · exact fun heq => hnone (heq ▸ haction)
  · exact fun heq => hcompleted (heq ▸ haction)
  · exact fun heq => absurd (heq ▸ haction) hallocated

/-- Decisions that are recorded as something else do not say a word of any container. -/
theorem DecisionsAmong.silent {actions : List (Option AuditAction)} {w : Word}
    (h : DecisionsAmong policy actions s t) (hs : s.ledger.Coherent)
    (hactions : ∀ action ∈ actions, action.bind AuditAction.word? ≠ some w) (k : ContainerId) :
    w ∉ words k (t.effectsSince s) := by
  refine h.induct (P := fun _ es => w ∉ words k es) hs List.not_mem_nil ?_
  intro t es o ht ho haction hsilent
  rw [words_append, List.mem_append, not_or]
  exact ⟨hsilent, fun hword => hactions _ haction ((ho.mem_words_iff ht).mp hword).2⟩

/-- Only a grant and the reuse of a container hand one out. -/
theorem DecisionsAmong.allocated_notMem {actions : List (Option AuditAction)}
    (h : DecisionsAmong policy actions s t) (hs : s.ledger.Coherent)
    (hactions : some .allocated ∉ actions ∧ some .reused ∉ actions) (k : ContainerId) :
    .allocated ∉ words k (t.effectsSince s) := by
  refine h.silent hs (fun action hmem => ?_) k
  cases action with
  | none => simp
  | some action => cases action <;> simp_all [AuditAction.word?]

end Scheduler

end TaskFleet
