import TaskFleet.Proofs.Ledger.Outstanding
import TaskFleet.Proofs.Scheduler.Conservation
import TaskFleet.Proofs.Scheduler.Race
import TaskFleet.Proofs.Scheduler.Submission

/-!
# The container that a task leaves

When a task is done and its container is kept, the request leaves the ledger, the container is
idle, and the waiting requests are looked through for one that it can serve.  They stand in the
order in which they are served, so the first one found is the most important
(`Ledger.NextFor`), and there is nothing that could go wrong between finding it and handing the
container over: it waits, the container is idle, and the cluster was asked on its behalf.

Two lemmas follow the operation in its two halves, the removal (`remove_running`) and the
offer (`offerIdle_served`, `offerIdle_unserved`).  Each tells the ledger afterwards as far as
lookups go, so that what is not mentioned is seen not to have changed.
-/

namespace TaskFleet

variable {m : Matcher} {h : Holding}

/-! ## Who is served -/

/-- The waiting request that a container serves: it can run in the container, and it is served
before every other that could. -/
structure Ledger.NextFor (m : Matcher) (l : Ledger) (h : Holding)
    (row : Cookie × TaskRequest) : Prop where
  waits : row ∈ l.outstanding
  runs : m.CanRun h row.2
  first : ∀ other ∈ l.outstanding, m.CanRun h other.2 → other ≠ row → ServedFirst row other

theorem Matcher.canRun_iff {request : TaskRequest} :
    (m.serves h request && h.container.resource.covers request.capability) = true ↔
      m.CanRun h request := by
  rw [Bool.and_eq_true, Matcher.serves_iff, Matcher.CanRun, and_comm]

/-- There is at most one such request. -/
theorem Ledger.NextFor.unique {l : Ledger} {row other : Cookie × TaskRequest}
    (hrow : l.NextFor m h row) (hother : l.NextFor m h other) : other = row := by
  refine Classical.byContradiction fun hne => ?_
  apply not_servedFirst_of_servedFirst (hrow.first other hother.waits hother.runs hne)
  exact hother.first row hrow.waits hrow.runs (Ne.symm hne)

namespace Scheduler

/-- The search finds nobody, and then nobody could run in the container, or it finds the
request that is served before the others. -/
theorem firstServed?_outstanding (hm : m.Answers) (h : Holding) (l : Ledger) :
    (firstServed? m h l.outstanding = .ok none ∧
      ∀ row ∈ l.outstanding, ¬ m.CanRun h row.2) ∨
    ∃ row, firstServed? m h l.outstanding = .ok (some row) ∧ l.NextFor m h row := by
  rw [firstServed?_eq_find? hm]
  cases hfind : l.outstanding.find? fun row =>
      m.serves h row.2 && h.container.resource.covers row.2.capability with
  | none =>
      refine .inl ⟨rfl, fun row hrow hrun => ?_⟩
      exact List.find?_eq_none.mp hfind row hrow (Matcher.canRun_iff.mpr hrun)
  | some row =>
      obtain ⟨hrun, before, after, hsplit, hbefore⟩ := List.find?_eq_some_iff_append.mp hfind
      refine .inr ⟨row, rfl, ?_, Matcher.canRun_iff.mp hrun, fun other hother hruns hne => ?_⟩
      · rw [hsplit]
        exact List.mem_append_right _ List.mem_cons_self
      · -- who stands before the one that was found cannot run
        have hsorted := hsplit ▸ l.pairwise_outstanding
        rw [hsplit] at hother
        rcases List.mem_append.mp hother with hearlier | hlater
        · have hcannot := hbefore other hearlier
          rw [Matcher.canRun_iff.mpr hruns] at hcannot
          cases hcannot
        · have hafter := (List.mem_cons.mp hlater).resolve_left hne
          exact (List.pairwise_cons.mp (List.pairwise_append.mp hsorted).2.1).1 other hafter

end Scheduler

/-! ## The removal -/

/-- When a running request leaves, its container is idle, and nothing else happens. -/
theorem Ledger.Coherent.remove_running {l : Ledger} (hl : l.Coherent) (now : Instant)
    {c : Cookie} {k : ContainerId} (hrunning : l.phase? c = some (.allocated k)) :
    ∃ h l' removed, l.held.get? k = some h ∧ l.remove now c = (.ok removed, l') ∧
      l'.nextCookie = l.nextCookie ∧ l'.entries = l.entries.erase c ∧
      l'.held.get? k = some { h with assignment := .idle now } ∧
      (∀ k', k' ≠ k → l'.held.get? k' = l.held.get? k') ∧
      l'.outstanding = l.outstanding := by
  obtain ⟨h, hheld, hactive⟩ := Option.map_eq_some_iff.mp ((hl.active c k).mp hrunning)
  obtain ⟨entry, hentry, hphase⟩ := Option.map_eq_some_iff.mp hrunning
  obtain ⟨removed, l', hremove⟩ : ∃ removed l', l.remove now c = (.ok removed, l') := by
    simp [Ledger.remove, hentry]
  obtain ⟨entry', hentry', -, -, hnext, hentries, hheld'⟩ := Ledger.remove_ok hremove
  rw [hentry] at hentry'
  cases hentry'
  refine ⟨h, l', removed, hheld, hremove, hnext, hentries, ?_, fun k' hk => ?_, ?_⟩
  · rw [hheld', hphase, hheld, Phase.container?, if_pos rfl, Option.map_some, hactive]
    rfl
  · rw [hheld', hphase, Phase.container?, if_neg]
    exact fun heq => hk (Option.some.inj heq).symm
  · apply Ledger.outstanding_congr
    intro row
    obtain ⟨c', request⟩ := row
    rw [Ledger.mem_outstanding_iff, Ledger.mem_outstanding_iff, hentries]
    refine exists_congr fun phase => and_congr_left fun hwaits => ?_
    rw [SortedMap.get?_erase]
    split
    · next heq =>
      -- who runs in a container does not wait for one
      rw [heq, hentry]
      refine iff_of_false (fun hnone => ?_) fun hsame => ?_
      · cases hnone
      · cases hsame
        have hbusy : phase = .allocated k := hphase
        rw [hbusy] at hwaits
        cases hwaits
    · rfl

/-! ## The offer -/

namespace Scheduler

/-- What becomes of a container that a waiting request takes over from the request `c`. -/
structure GoesTo (s : Scheduler) (now : Instant) (c : Cookie) (k : ContainerId) (h : Holding)
    (t : Scheduler) (row : Cookie × TaskRequest) : Prop where
  request : t.ledger.entries.get? row.1 = some ⟨row.2, .allocated k⟩
  holding : t.ledger.holding? k = some { h with
    container := { h.container with cookie := some row.1 }
    assignment := .active row.1
    assignedAt := now
    lastTask := row.2.task }
  effects : t.pending = s.pending ++ [.call (.withdraw row.1),
    .notify (.taskAllocated row.2.task row.1 { h.container with cookie := some row.1 })]
  others : ∀ c', c' ≠ c → c' ≠ row.1 →
    t.ledger.entries.get? c' = s.ledger.entries.get? c'

/-- What becomes of a container that nobody takes over from the request `c`. -/
structure StaysIdle (s : Scheduler) (now : Instant) (c : Cookie) (k : ContainerId)
    (h : Holding) (t : Scheduler) : Prop where
  holding : t.ledger.holding? k = some { h with assignment := .idle now }
  effects : t.pending = s.pending
  others : ∀ c', c' ≠ c → t.ledger.entries.get? c' = s.ledger.entries.get? c'

variable {s : Scheduler} {k : ContainerId} {h : Holding}

theorem offerIdle_unserved (s : Scheduler) (cx : Context) (hheld : s.ledger.holding? k = some h)
    (hfirst : firstServed? cx.policy.matcher h s.ledger.outstanding = .ok none) :
    s.offerIdle cx k = (.ok (), s) := by
  simp only [offerIdle, hheld, hfirst]

/-- The scheduler once the container `k` was handed to a request for which the cluster was
asked. -/
def handed (s : Scheduler) (now : Instant) (k : ContainerId) (h : Holding)
    (row : Cookie × TaskRequest) : Scheduler :=
  { s with
    ledger := { s.ledger with
      entries := s.ledger.entries.insert row.1 ⟨row.2, .allocated k⟩
      held := s.ledger.held.insert k { h with
        container := { h.container with cookie := some row.1 }
        assignment := .active row.1
        assignedAt := now
        lastTask := row.2.task } }
    pending := s.pending ++ [.call (.withdraw row.1),
      .notify (.taskAllocated row.2.task row.1 { h.container with cookie := some row.1 })]
    trail := s.trail ++
      [⟨.reused, some row.1, some row.2.task, some h.container.id, none, now⟩] }

/-- A request that was submitted and is found is handed the container. -/
theorem offerIdle_served (s : Scheduler) (cx : Context) {row : Cookie × TaskRequest}
    {asked : List ContainerRequest} (hheld : s.ledger.holding? k = some h)
    (hidle : h.isIdle = true)
    (hfirst : firstServed? cx.policy.matcher h s.ledger.outstanding = .ok (some row))
    (hentry : s.ledger.entries.get? row.1 = some ⟨row.2, .requested asked⟩) :
    s.offerIdle cx k = (.ok (), s.handed cx.now k h row) := by
  unfold Ledger.holding? at hheld
  simp only [offerIdle, Ledger.holding?, hheld, hfirst, handOver, Ledger.assignIdle, hidle,
    hentry, if_true, Phase.container?, reuse, withdrawAfter_eq, withdrawal, Phase.state, note,
    queue, List.append_assoc, List.singleton_append, handed]

/-- The two halves together: what becomes of the container of a running request that is done. -/
theorem retain_running (cx : Context) (hm : cx.policy.matcher.Answers)
    (hl : s.ledger.Coherent) (hsettled : s.Settled) {c : Cookie}
    (hrunning : s.ledger.phase? c = some (.allocated k)) :
    ∃ h t, s.ledger.holding? k = some h ∧ s.retain cx c k = (.ok (some k), t) ∧
      t.ledger.entries.get? c = none ∧
      ((∃ row, s.ledger.NextFor cx.policy.matcher h row ∧ s.GoesTo cx.now c k h t row) ∨
        (∀ row ∈ s.ledger.outstanding, ¬ cx.policy.matcher.CanRun h row.2) ∧
          s.StaysIdle cx.now c k h t) ∧
      (∀ k', k' ≠ k → t.ledger.holding? k' = s.ledger.holding? k') ∧
      t.ledger.nextCookie = s.ledger.nextCookie ∧ t.carriedOut = s.carriedOut := by
  obtain ⟨h, l, removed, hheld, hremove, hnext, hentries, hidle, hothers, hsame⟩ :=
    hl.remove_running cx.now hrunning
  have hgone : l.entries.get? c = none := by
    rw [hentries, SortedMap.get?_erase, if_pos rfl]
  have hrest : ∀ c', c' ≠ c → l.entries.get? c' = s.ledger.entries.get? c' := by
    intro c' hne
    rw [hentries, SortedMap.get?_erase, if_neg hne]
  let u : Scheduler := { s with ledger := l }.note cx.now .idled (some c)
    (some removed.request.task) (some k) none
  have hretain : ∀ t, u.offerIdle cx k = (.ok (), t) →
      s.retain cx c k = (.ok (some k), t) := by
    intro t ht
    simp only [retain, hremove, u] at ht ⊢
    rw [ht]
  rcases firstServed?_outstanding hm { h with assignment := .idle cx.now } l with
    ⟨hfirst, hnone⟩ | ⟨row, hfirst, hrow⟩
  · refine ⟨h, u, hheld, hretain u (offerIdle_unserved u cx hidle hfirst), hgone, .inr ⟨?_, ?_⟩,
      hothers, hnext, rfl⟩
    · exact hsame ▸ hnone
    · exact ⟨hidle, rfl, hrest⟩
  · obtain ⟨phase, hentry, hphase⟩ := Ledger.mem_outstanding_iff.mp hrow.waits
    have hne : row.1 ≠ c := by
      intro heq
      rw [heq, hgone] at hentry
      cases hentry
    -- whoever waits was submitted, so the cluster was asked
    obtain ⟨asked, rfl⟩ : ∃ asked, phase = .requested asked := by
      have hsubmitted := hsettled row.1
      rw [Ledger.phase?, ← hrest row.1 hne, hentry] at hsubmitted
      cases phase with
      | pending => exact absurd rfl hsubmitted
      | requested asked => exact ⟨asked, rfl⟩
      | allocated id => cases hphase
      | releasing id => cases hphase
    have hoffer := offerIdle_served u cx hidle rfl hfirst hentry
    refine ⟨h, _, hheld, hretain _ hoffer, ?_, .inl ⟨row, ?_, ?_⟩, fun k' hk => ?_, hnext, rfl⟩
    · exact (SortedMap.get?_insert_ne _ _ hne.symm).trans hgone
    · exact ⟨hsame ▸ hrow.waits, hrow.runs, hsame ▸ hrow.first⟩
    · refine ⟨SortedMap.get?_insert_self .., SortedMap.get?_insert_self .., rfl, ?_⟩
      intro c' hc hother
      exact (SortedMap.get?_insert_ne _ _ hother).trans (hrest c' hc)
    · exact (SortedMap.get?_insert_ne _ _ hk).trans (hothers k' hk)

end Scheduler

/-! ## The operation -/

namespace Fleet

variable {w : Fleet} {config : SchedulerConfig} {kind : MatcherKind}

/-- When the task of a running request is done and containers are reused, the request is
retired and its container is answered.  If waiting requests could run in the container, the one
of them that is served first has it now, and all that is queued for the cluster and the
application is that this request is withdrawn and was allocated the container; otherwise the
container is idle from now on, and nothing is queued.  No other request and no other container
changes. -/
theorem freed_container_serves (hw : w.Reachable ⟨config, kind.matcher⟩)
    (hreuse : config.reuseEnabled = true) (now : Instant) (headroom : Option Resource)
    {c : Cookie} {k : ContainerId} (hrunning : w.1.ledger.phase? c = some (.allocated k)) :
    ∃ h t, w.1.ledger.holding? k = some h ∧
      w.1.deallocateTask ⟨⟨config, kind.matcher⟩, now, headroom⟩ c true = (.ok (some k), t) ∧
      (∀ (σ : Type) (here : Surroundings σ) (x : σ), here.now x = now →
        here.headroom x = headroom →
        here.deallocateTask ⟨config, kind.matcher⟩ c true (w.1, x) =
          (.ok (some k), here.flush (t, x))) ∧
      t.ledger.classify c = .retired ∧
      ((∃ row, w.1.ledger.NextFor kind.matcher h row ∧ w.1.GoesTo now c k h t row) ∨
        (∀ row ∈ w.1.ledger.outstanding, ¬ kind.matcher.CanRun h row.2) ∧
          w.1.StaysIdle now c k h t) ∧
      (∀ k', k' ≠ k → t.ledger.holding? k' = w.1.ledger.holding? k') ∧
      t.carriedOut = w.1.carriedOut := by
  have hl : w.1.ledger.Coherent := hw.underway.coherent
  obtain ⟨h, t, hheld, hretain, hgone, hserved, hothers, hnext, hcarried⟩ :=
    Scheduler.retain_running ⟨⟨config, kind.matcher⟩, now, headroom⟩ kind.answers hl hw.settled
      hrunning
  obtain ⟨entry, hentry, hphase⟩ := Option.map_eq_some_iff.mp hrunning
  have hdone : w.1.deallocateTask ⟨⟨config, kind.matcher⟩, now, headroom⟩ c true =
      (.ok (some k), t) := by
    rw [Scheduler.deallocateTask, hentry]
    dsimp only
    rw [hphase]
    dsimp only
    rw [Bool.true_and, if_pos hreuse]
    exact hretain
  refine ⟨h, t, hheld, hdone, fun σ here x hnow hroom => ?_, ?_, hserved, hothers, hcarried⟩
  · rw [Surroundings.deallocateTask, Surroundings.perform, hnow, hroom, hdone]
  · refine Ledger.classify_eq_retired_iff.mpr ⟨hgone, ?_⟩
    exact (Scheduler.wasIssued_congr hnext).trans (Scheduler.wasIssued_of_get? hl hentry)

/-- Three requests wait when a task is done.  The first is too large for the container, and of
the other two the younger is the more important one. -/
theorem freed_container_serves_waiting :
    let cx : Context := ⟨⟨.standard, MatcherKind.launchContext.matcher⟩, .epoch, none⟩
    let signature : Signature := ⟨0, ⟨⟨1024, 1⟩, .empty, .empty⟩⟩
    let request (task memory : UInt64) (priority : UInt32) : TaskRequest :=
      ⟨⟨task⟩, ⟨memory, 1⟩, ⟨priority⟩, ⟨[], [], true⟩, signature⟩
    let container : Container :=
      ⟨⟨"c_1"⟩, ⟨"host1", 8041⟩, none, ⟨1024, 1⟩, ⟨5⟩, some ⟨1⟩, some signature⟩
    let ops : List Scheduler.Operation := [.request (request 7 1024 5),
      .hear (.allocated [container]), .request (request 8 4096 1), .request (request 9 512 9),
      .request (request 10 1024 3)]
    let w : Fleet := (ops.foldl (fun s op => s.after cx op) .fresh, .connect .zero)
    ∃ t, w.1.deallocateTask cx ⟨1⟩ true = (.ok (some ⟨"c_1"⟩), t) ∧
      t.ledger.classify ⟨1⟩ = .retired ∧
      w.1.GoesTo .epoch ⟨1⟩ ⟨"c_1"⟩ ⟨container, signature, .active ⟨1⟩, .epoch, ⟨7⟩⟩ t
        (⟨4⟩, request 10 1024 3) := by
  intro cx signature request container ops w
  have hw : w.Reachable cx.policy := by
    apply (Reachable.start .zero).operations
    decide
  obtain ⟨h, t, hheld, hdone, -, hretired, hserved, -⟩ :=
    freed_container_serves hw rfl .epoch none (c := ⟨1⟩) (k := ⟨"c_1"⟩) (by decide +kernel)
  have hh : h = ⟨container, signature, .active ⟨1⟩, .epoch, ⟨7⟩⟩ := by
    apply Option.some.inj
    rw [← hheld]
    decide +kernel
  subst hh
  have hwaits : ∀ row, row ∈ w.1.ledger.outstanding ↔
      row ∈ [(⟨2⟩, request 8 4096 1), (⟨3⟩, request 9 512 9), (⟨4⟩, request 10 1024 3)] := by
    intro row
    have hrows : (w.1.ledger.entries.rows.filter fun row => row.2.phase.isOutstanding).map
        (fun row => (row.1, row.2.request)) =
          [(⟨2⟩, request 8 4096 1), (⟨3⟩, request 9 512 9), (⟨4⟩, request 10 1024 3)] := by
      decide +kernel
    rw [← hrows]
    exact List.mem_mergeSort
  have hnext : w.1.ledger.NextFor cx.policy.matcher
      ⟨container, signature, .active ⟨1⟩, .epoch, ⟨7⟩⟩ (⟨4⟩, request 10 1024 3) := by
    refine ⟨(hwaits _).mpr (by simp), Matcher.canRun_iff.mp (by decide +kernel), ?_⟩
    intro other hother hruns hne
    have hcases := (hwaits other).mp hother
    simp only [List.mem_cons, List.not_mem_nil, or_false] at hcases
    rcases hcases with rfl | rfl | rfl
    · have htoo := Matcher.canRun_iff.mpr hruns
      exact absurd htoo (by decide +kernel)
    · exact .inl (by decide +kernel)
    · exact absurd rfl hne
  obtain ⟨row, hrow, hgoes⟩ := hserved.resolve_right fun hnobody =>
    hnobody.1 _ hnext.waits hnext.runs
  exact ⟨t, hdone, hretired, hnext.unique hrow ▸ hgoes⟩

end Fleet

end TaskFleet
