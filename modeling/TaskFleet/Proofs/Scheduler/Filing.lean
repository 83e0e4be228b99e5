import TaskFleet.Proofs.Scheduler.Allocation

/-!
# What is on record of a request

The trail keeps that the cluster was asked on behalf of a request, and that the request
waits no longer: it was withdrawn or given a container.  The ledger keeps neither, since a
request that was served is no longer told from one that was never asked for, and one that
has ended is forgotten.

Both can be told apart as long as it matters (`Underway.filed`).  A request that is new is
one for which the cluster was not asked, by the trail and by the journal alike; one that is
requested is one for which it was; and one that waits was not answered before.  A decision
concerns one request at most, and `Files` tells which of these it changes.
-/

namespace TaskFleet

/-! ## What is asked for and what is recorded -/

/-- The cookie on whose behalf the cluster is asked. -/
def Effect.asksFor? : Effect → Option Cookie
  | .call (.submit r) => some r.cookie
  | _ => none

/-- The cookie of the request that waits no longer. -/
def AuditRecord.answers? (r : AuditRecord) : Option Cookie :=
  match r.action with
  | .withdrawn | .allocated | .reused => r.cookie
  | _ => none

/-- It is on record that the cluster was asked on behalf of a cookie. -/
def wasRequested (trail : List AuditRecord) (c : Cookie) : Bool :=
  trail.any fun r => decide (r.action = .requested ∧ r.cookie = some c)

theorem asksFor?_of_mem_tiers {request : TaskRequest} {c : Cookie} {e : Effect}
    (he : e ∈ (request.tiers c).map fun r => Effect.call (.submit r)) : e.asksFor? = some c := by
  obtain ⟨r, hr, rfl⟩ := List.mem_map.mp he
  obtain ⟨tier, -, rfl⟩ := List.mem_map.mp hr
  rfl

theorem asksFor?_of_mem_withdrawal {previous : RequestState} {cookie : Cookie} {e : Effect}
    (he : e ∈ withdrawal previous cookie) : e.asksFor? = none := by
  unfold withdrawal at he
  split at he
  · rw [List.mem_singleton.mp he]
    rfl
  · cases he

/-- What follows the withdrawal of a request asks for nothing. -/
theorem asksFor?_of_mem_withdrawal_append {previous : RequestState} {cookie : Cookie}
    {notice : Notice} : ∀ e ∈ withdrawal previous cookie ++ [.notify notice],
      e.asksFor? = none := by
  intro e he
  rcases List.mem_append.mp he with he | he
  · exact asksFor?_of_mem_withdrawal he
  · rw [List.mem_singleton.mp he]
    rfl

/-! ## One decision -/

namespace Scheduler

variable {policy : Policy} {s t : Scheduler} {o : Outcome} {es : List Effect} {c : Cookie}

/-- What a decision means to the request under a cookie, to what the cluster is asked for on
its behalf, and to what is recorded of it. -/
inductive Files (c : Cookie) (entry : Option Entry) (o : Outcome) : Prop
  /-- The cluster is asked. -/
  | ask {request : TaskRequest} (hpending : entry = some ⟨request, .pending⟩)
      (hrequested : o.ledger.entries.get? c = some ⟨request, .requested (request.tiers c)⟩)
      (hrecord : wasRequested o.records c = true)
      (hanswers : o.records.filterMap AuditRecord.answers? = [])
  /-- The request waits no longer. -/
  | answer (hwaits : waiting entry = true)
      (hserved : waiting (o.ledger.entries.get? c) = false)
      (hanswers : o.records.filterMap AuditRecord.answers? = [c])
      (hrecord : wasRequested o.records c = false)
      (hasks : ∀ e ∈ o.effects, e.asksFor? ≠ some c)
  /-- The decision is not about a request that waits. -/
  | pass (hsame : waiting (o.ledger.entries.get? c) = true → o.ledger.entries.get? c = entry)
      (hanswers : c ∉ o.records.filterMap AuditRecord.answers?)
      (hrecord : wasRequested o.records c = false)
      (hasks : ∀ e ∈ o.effects, e.asksFor? ≠ some c)

namespace Files

variable {cookie : Cookie} {r : AuditRecord}

/-- One request waits no longer. -/
theorem of_answer (hwaits : waiting (s.ledger.entries.get? cookie) = true)
    (hserved : waiting (o.ledger.entries.get? cookie) = false)
    (hothers : ∀ c, c ≠ cookie → o.ledger.entries.get? c = s.ledger.entries.get? c)
    (hrecords : o.records = [r]) (hanswers : r.answers? = some cookie)
    (hasks : ∀ e ∈ o.effects, e.asksFor? = none) (c : Cookie) :
    Files c (s.ledger.entries.get? c) o := by
  have hlist : o.records.filterMap AuditRecord.answers? = [cookie] := by
    rw [hrecords]
    simp [hanswers]
  have hrecord : wasRequested o.records c = false := by
    have haction : r.action ≠ .requested := by
      intro heq
      rw [AuditRecord.answers?, heq] at hanswers
      cases hanswers
    simp [wasRequested, hrecords, haction]
  have hsilent : ∀ e ∈ o.effects, e.asksFor? ≠ some c := by
    intro e he
    rw [hasks e he]
    exact nofun
  by_cases hc : c = cookie
  · subst hc
    exact .answer hwaits hserved hlist hrecord hsilent
  · refine .pass (fun _ => hothers c hc) ?_ hrecord hsilent
    rw [hlist, List.mem_singleton]
    exact hc

/-- No request that waits is touched. -/
theorem of_pass (hsame : ∀ c, waiting (o.ledger.entries.get? c) = true →
      o.ledger.entries.get? c = s.ledger.entries.get? c)
    (hanswers : ∀ r ∈ o.records, r.answers? = none)
    (hrecord : ∀ r ∈ o.records, r.action ≠ .requested)
    (hasks : ∀ e ∈ o.effects, e.asksFor? = none) (c : Cookie) :
    Files c (s.ledger.entries.get? c) o := by
  refine .pass (hsame c) ?_ ?_ ?_
  · rw [List.filterMap_eq_nil_iff.mpr hanswers]
    exact List.not_mem_nil
  · rw [wasRequested, List.any_eq_false]
    intro r hr hboth
    exact hrecord r hr (of_decide_eq_true hboth).1
  · intro e he
    rw [hasks e he]
    exact nofun

end Files

/-- Where an entry only ends or is served, a request that waits afterwards is untouched. -/
theorem eq_of_waiting_ite {p : Prop} [Decidable p] {entry other : Option Entry}
    (hother : waiting other = false) (h : waiting (if p then other else entry) = true) :
    (if p then other else entry) = entry := by
  split at h
  · rw [hother] at h
    cases h
  · next hp => rw [if_neg hp]

theorem Decision.files (h : Decision policy s o) (c : Cookie) :
    Files c (s.ledger.entries.get? c) o := by
  cases h with
  | @ask cookie request ledger now hpending hledger =>
      obtain ⟨request', hentry, rfl⟩ := Ledger.markRequested_ok hledger
      rw [hpending] at hentry
      cases hentry
      by_cases hc : cookie = c
      · subst hc
        exact .ask hpending (SortedMap.get?_insert_self ..) (by simp [wasRequested]) rfl
      · refine .pass (fun _ => SortedMap.get?_insert_ne _ _ (Ne.symm hc)) (by nofun) ?_ ?_
        · simp [wasRequested, hc]
        · intro e he
          rw [asksFor?_of_mem_tiers he]
          exact fun heq => hc (Option.some.inj heq)
  | @hand cookie id request h ledger container previous now hrequest hheld hlarge hserves
      hledger =>
      obtain ⟨entry, held, hentry, hfree, -, -, -, -, rfl⟩ := Ledger.assignIdle_ok hledger
      refine .of_answer ?_ ?_ ?_ rfl rfl asksFor?_of_mem_withdrawal_append c
      · rw [hentry]
        exact entry.phase.isOutstanding_iff.mpr hfree
      · rw [SortedMap.get?_insert_self]
        rfl
      · exact fun c hc => SortedMap.get?_insert_ne _ _ hc
  | @grant cookie container request h ledger previous now hwanted hrequest hledger hheld =>
      obtain ⟨entry, -, hentry, hfree, -, rfl⟩ := Ledger.allocate_ok hledger
      refine .of_answer ?_ ?_ ?_ rfl rfl asksFor?_of_mem_withdrawal_append c
      · rw [hentry]
        exact entry.phase.isOutstanding_iff.mpr hfree
      · rw [SortedMap.get?_insert_self]
        rfl
      · exact fun c hc => SortedMap.get?_insert_ne _ _ hc
  | @withdraw cookie ledger removed now hwaiting hledger =>
      obtain ⟨entry, hentry, -, hprevious, -, hentries, -⟩ := Ledger.remove_ok hledger
      refine .of_answer ?_ ?_ ?_ rfl rfl (fun e he => asksFor?_of_mem_withdrawal he) c
      · rw [hprevious] at hwaiting
        rw [hentry]
        exact hwaiting
      · rw [hentries, SortedMap.get?_erase, if_pos rfl]
        rfl
      · intro c hc
        rw [hentries, SortedMap.get?_erase, if_neg hc]
  | @retire cookie id ledger removed now hrunning hledger =>
      obtain ⟨entry, -, -, -, -, hentries, -⟩ := Ledger.remove_ok hledger
      refine .of_pass (fun c hwaits => ?_) (by simp [AuditRecord.answers?]) (by simp) (by simp) c
      rw [hentries, SortedMap.get?_erase] at hwaits ⊢
      exact eq_of_waiting_ite rfl hwaits
  | turnAway now cookie detail hnew haction =>
      refine .of_pass (fun _ _ => rfl) ?_ ?_ (by simp [Effect.asksFor?]) c
      · rcases haction with rfl | rfl <;> simp [AuditRecord.answers?]
      · rcases haction with rfl | rfl <;> simp
  | @announce id ledger victim now detail hledger =>
      obtain ⟨held, hheld, -, rfl⟩ := Ledger.beginRelease_ok hledger
      refine .of_pass (fun c hwaits => ?_) (by simp [AuditRecord.answers?]) (by simp)
        (by simp [Effect.asksFor?]) c
      rw [SortedMap.get?_modify] at hwaits ⊢
      refine eq_of_waiting_ite ?_ hwaits
      cases s.ledger.entries.get? c <;> rfl
  | @giveBack id ledger task now reason hledger =>
      obtain ⟨held, -, -, -, -, -, hentries⟩ := Ledger.release_ok hledger
      refine .of_pass (fun c hwaits => ?_) (by simp [AuditRecord.answers?]) (by simp)
        (by simp [Effect.asksFor?]) c
      rw [hentries] at hwaits ⊢
      exact eq_of_waiting_ite rfl hwaits
  | complete now hledger =>
      obtain ⟨held, -, -, -, -, -, hentries⟩ := Ledger.complete_ok hledger
      refine .of_pass (fun c hwaits => ?_) (by simp [AuditRecord.answers?]) (by simp)
        (by simp [Effect.asksFor?]) c
      rw [hentries] at hwaits ⊢
      exact eq_of_waiting_ite rfl hwaits
  | unawait hnew => exact .of_pass (fun _ _ => rfl) (by simp) (by simp) (by simp) c
  | forget asOf => exact .of_pass (fun _ _ => rfl) (by simp) (by simp) (by simp) c
  | news notice hnews =>
      exact .of_pass (fun _ _ => rfl) (by simp) (by simp) (by simp [Effect.asksFor?]) c

/-! ## Under way -/

/-- The cluster was not asked on behalf of this cookie: it is not issued yet, or its request
is new. -/
def Unasked (s : Scheduler) (c : Cookie) : Prop :=
  s.ledger.wasIssued c = false ∨ s.ledger.phase? c = some .pending

/-- The trail and the journal tell how far the request under a cookie has come. -/
structure Filed (s : Scheduler) (c : Cookie) : Prop where
  unasked : s.Unasked c → wasRequested s.trail c = false ∧ ∀ e ∈ s.journal, e.asksFor? ≠ some c
  asked : ∀ asked, s.ledger.phase? c = some (.requested asked) → wasRequested s.trail c = true
  unanswered : s.Unserved c → c ∉ s.trail.filterMap AuditRecord.answers?

theorem waits_of_phase? {l : Ledger} {phase : Phase} (h : l.phase? c = some phase)
    (hphase : phase.isOutstanding = true) : l.waits c = true := by
  obtain ⟨entry, hentry, rfl⟩ := Option.map_eq_some_iff.mp h
  rw [Ledger.waits, hentry]
  exact hphase

theorem Unasked.unserved (h : s.Unasked c) : s.Unserved c := by
  rcases h with hunissued | hpending
  · exact .inl hunissued
  · exact .inr (waits_of_phase? hpending rfl)

/-- The cluster was asked on behalf of a request that waits if it is on record that it was. -/
theorem Filed.wasRequested_eq (h : s.Filed c) {entry : Entry}
    (hentry : s.ledger.entries.get? c = some entry) (hfree : entry.phase.isOutstanding = true) :
    wasRequested s.trail c = decide (entry.phase.state = .requested) := by
  have hphase := Ledger.phase?_of_get? hentry
  cases hentered : entry.phase with
  | pending => exact (h.unasked (.inr (hentered ▸ hphase))).1
  | requested asked => exact h.asked asked (hentered ▸ hphase)
  | allocated id =>
      rw [hentered] at hfree
      cases hfree
  | releasing id =>
      rw [hentered] at hfree
      cases hfree

theorem Filed.congr (h : s.Filed c) (hledger : t.ledger = s.ledger)
    (hjournal : t.journal = s.journal) (htrail : t.trail = s.trail) : t.Filed c := by
  refine ⟨?_, ?_, ?_⟩
  · rw [Unasked, hledger, hjournal, htrail]
    exact h.unasked
  · rw [hledger, htrail]
    exact h.asked
  · rw [Unserved, hledger, htrail]
    exact h.unanswered

theorem Filed.enter (h : s.Filed c) (hs : s.ledger.Coherent) (hnext : s.ledger.HasCookies)
    (request : TaskRequest) : (s.enter request).Filed c := by
  have hissued := wasIssued_enter (c := c) hs hnext request
  by_cases hc : c = ⟨s.ledger.nextCookie⟩
  · have hbefore : s.ledger.wasIssued c = false := hc ▸ not_wasIssued_nextCookie s.ledger
    refine ⟨fun _ => h.unasked (.inl hbefore), ?_, fun _ => h.unanswered (.inl hbefore)⟩
    intro asked hasked
    rw [hc, Ledger.phase?_of_get? (s.get?_enter request)] at hasked
    cases hasked
  · have hsame := s.get?_enter_of_ne request hc
    have hphase : (s.enter request).ledger.phase? c = s.ledger.phase? c :=
      congrArg (Option.map Entry.phase) hsame
    have hold : (s.enter request).ledger.wasIssued c = s.ledger.wasIssued c := by
      rw [Bool.eq_iff_iff, hissued]
      simp [hc]
    refine ⟨?_, ?_, ?_⟩
    · rw [Unasked, hphase, hold]
      exact h.unasked
    · rw [hphase]
      exact h.asked
    · rw [Unserved, hold, waits_enter_of_ne request hc]
      exact h.unanswered

theorem wasRequested_adopt (s : Scheduler) (o : Outcome) (c : Cookie) :
    wasRequested (s.adopt o).trail c = (wasRequested s.trail c || wasRequested o.records c) :=
  List.any_append

theorem answers_adopt (s : Scheduler) (o : Outcome) :
    (s.adopt o).trail.filterMap AuditRecord.answers? =
      s.trail.filterMap AuditRecord.answers? ++ o.records.filterMap AuditRecord.answers? :=
  List.filterMap_append

/-- A cookie whose request was live is unserved only as long as the request waits. -/
theorem Decision.waits_of_unserved (h : Decision policy s o) (hs : s.ledger.Coherent)
    {entry : Entry} (hentry : s.ledger.entries.get? c = some entry)
    (hc : (s.adopt o).Unserved c) : o.ledger.waits c = true := by
  rcases hc with hunissued | hwaits
  · rw [adopt, wasIssued_congr h.nextCookie, wasIssued_of_get? hs hentry] at hunissued
    cases hunissued
  · exact hwaits

/-- A request stays as it is filed where the decision is not about it. -/
theorem Filed.pass (hc : s.Filed c) (h : Decision policy s o)
    (hsame : waiting (o.ledger.entries.get? c) = true →
      o.ledger.entries.get? c = s.ledger.entries.get? c)
    (hanswers : c ∉ o.records.filterMap AuditRecord.answers?)
    (hrecord : wasRequested o.records c = false) (hasks : ∀ e ∈ o.effects, e.asksFor? ≠ some c) :
    (s.adopt o).Filed c := by
  have hissued : o.ledger.wasIssued c = s.ledger.wasIssued c := wasIssued_congr h.nextCookie
  -- a request that waits afterwards is the one that waited before
  have hphase : ∀ phase, (s.adopt o).ledger.phase? c = some phase →
      phase.isOutstanding = true → s.ledger.phase? c = some phase := by
    intro phase hafter hfree
    rw [Ledger.phase?, ← hsame (waits_of_phase? hafter hfree)]
    exact hafter
  refine ⟨fun hnew => ?_, fun asked hasked => ?_, fun hnew => ?_⟩
  · have hold : s.Unasked c := by
      rcases hnew with hunissued | hpending
      · exact .inl (hissued ▸ hunissued)
      · exact .inr (hphase _ hpending rfl)
    obtain ⟨hunrecorded, hsilent⟩ := hc.unasked hold
    rw [wasRequested_adopt, hunrecorded, hrecord, (Move.decide h).journal]
    exact ⟨rfl, fun e he => (List.mem_append.mp he).elim (hsilent e) (hasks e)⟩
  · rw [wasRequested_adopt, hc.asked asked (hphase _ hasked rfl), Bool.true_or]
  · have hold : s.Unserved c := by
      rcases hnew with hunissued | hwaits
      · exact .inl (hissued ▸ hunissued)
      · exact .inr ((congrArg waiting (hsame hwaits)).symm.trans hwaits)
    rw [answers_adopt, List.mem_append]
    rintro (hbefore | hthis)
    · exact hc.unanswered hold hbefore
    · exact hanswers hthis

theorem Decision.filed (h : Decision policy s o) (hs : s.ledger.Coherent) (hc : s.Filed c) :
    (s.adopt o).Filed c := by
  cases h.files c with
  | @ask request hpending hafter hrecord hanswers =>
      have hphase : (s.adopt o).ledger.phase? c = some (.requested (request.tiers c)) :=
        Ledger.phase?_of_get? hafter
      refine ⟨fun hnew => ?_, fun _ _ => ?_, fun _ => ?_⟩
      · rcases hnew with hunissued | hnew
        · rw [adopt, wasIssued_congr h.nextCookie, wasIssued_of_get? hs hpending] at hunissued
          cases hunissued
        · rw [hphase] at hnew
          cases hnew
      · rw [wasRequested_adopt, hrecord, Bool.or_true]
      · rw [answers_adopt, hanswers, List.append_nil]
        exact hc.unanswered (.inr (waits_of_phase? (Ledger.phase?_of_get? hpending) rfl))
  | answer hwaits hserved hanswers hrecord hasks =>
      obtain ⟨entry, hentry, -⟩ := (Option.any_eq_true ..).mp hwaits
      have hclosed : ¬ (s.adopt o).Unserved c := fun hnew =>
        Bool.false_ne_true (hserved.symm.trans (h.waits_of_unserved hs hentry hnew))
      refine ⟨fun hnew => absurd hnew.unserved hclosed, fun asked hasked => ?_,
        fun hnew => absurd hnew hclosed⟩
      exact absurd (.inr (waits_of_phase? hasked rfl)) hclosed
  | pass hsame hanswers hrecord hasks => exact hc.pass h hsame hanswers hrecord hasks

theorem Underway.filed (hs : Underway policy s) (c : Cookie) : s.Filed c := by
  refine hs.induct (P := fun s => s.Filed c) ?_ ?_
  · refine ⟨fun _ => ⟨rfl, by nofun⟩, ?_, fun _ => List.not_mem_nil⟩
    intro asked hasked
    cases hasked
  · intro s es t hs h ih
    cases h with
    | enter request hnext => exact ih.enter hs.coherent hnext request
    | decide h => exact h.filed hs.coherent ih
    | takeUp h => exact ih.congr (ledger_takeUp? h) (journal_takeUp? h) (trail_takeUp? h)
    | aside => exact ih.congr rfl rfl rfl

/-- No request is asked for that was asked for before. -/
theorem Decision.unasked_of_asksFor? (h : Decision policy s o) {e : Effect} (he : e ∈ o.effects)
    (hasks : e.asksFor? = some c) : s.Unasked c := by
  cases h.files c with
  | ask hpending => exact .inr (Ledger.phase?_of_get? hpending)
  | answer hwaits hserved hanswers hrecord hsilent => exact absurd hasks (hsilent e he)
  | pass hsame hanswers hrecord hsilent => exact absurd hasks (hsilent e he)

/-- What a decision answers waited until then. -/
theorem Decision.unserved_of_answers (h : Decision policy s o)
    (hc : c ∈ o.records.filterMap AuditRecord.answers?) :
    s.Unserved c ∧ o.records.filterMap AuditRecord.answers? = [c] := by
  cases h.files c with
  | ask hpending hrequested hrecord hanswers =>
      rw [hanswers] at hc
      cases hc
  | answer hwaits hserved hanswers hrecord hasks => exact ⟨.inr hwaits, hanswers⟩
  | pass hsame hanswers hrecord hasks => exact absurd hc hanswers

end Scheduler

end TaskFleet
