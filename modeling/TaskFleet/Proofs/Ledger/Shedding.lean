import TaskFleet.Proofs.Ledger.Ownership
import TaskFleet.Proofs.Reuse

/-!
# Idle containers and waiting requests become fewer

No idle container could run a request that waits (`Ledger.Conserving`).  That is true of
fewer idle containers and of fewer waiting requests as well, so it is kept by whatever only
sheds some of either (`Ledger.Sheds`).

All operations on a ledger do but two: `add`, which has another request wait, and `remove`
of a request that runs, which leaves its container idle.
-/

namespace TaskFleet.Ledger

variable {l l' l'' : Ledger} {m : Matcher} {now : Instant} {cookie : Cookie} {id : ContainerId}

/-- No idle container could run a request that waits. -/
def Conserving (m : Matcher) (l : Ledger) : Prop :=
  ∀ k h, l.held.get? k = some h → h.isIdle = true →
    ∀ row ∈ l.outstanding, ¬ m.CanRun h row.2

/-- Everything idle was idle before, as it is now, and every request that waits waited
before. -/
structure Sheds (l l' : Ledger) : Prop where
  idle : ∀ k h, l'.held.get? k = some h → h.isIdle = true → l.held.get? k = some h
  waiting : ∀ row ∈ l'.outstanding, row ∈ l.outstanding

theorem Sheds.refl (l : Ledger) : l.Sheds l :=
  ⟨fun _ _ hget _ => hget, fun _ hrow => hrow⟩

theorem Sheds.trans (h : l.Sheds l') (h' : l'.Sheds l'') : l.Sheds l'' where
  idle k held hget hidle := h.idle k held (h'.idle k held hget hidle) hidle
  waiting row hrow := h.waiting row (h'.waiting row hrow)

theorem Sheds.conserving (h : l.Sheds l') (hl : l.Conserving m) : l'.Conserving m :=
  fun k held hget hidle row hrow => hl k held (h.idle k held hget hidle) hidle row
    (h.waiting row hrow)

/-! ## Tables that change in one place -/

/-- A container that is noted in use sheds. -/
theorem idle_insert {held : Holding} (hheld : l'.held = l.held.insert id held)
    (hbusy : held.isIdle = false) {k : ContainerId} {h : Holding}
    (hget : l'.held.get? k = some h) (hidle : h.isIdle = true) :
    k ≠ id ∧ l.held.get? k = some h := by
  rw [hheld, SortedMap.get?_insert] at hget
  split at hget
  · cases hget
    rw [hbusy] at hidle
    cases hidle
  · next hk => exact ⟨hk, hget⟩

/-- Who waits was not the request that was given something, and waited before. -/
theorem waiting_insert {entry : Entry} (hentries : l'.entries = l.entries.insert cookie entry)
    (hserved : entry.phase.isOutstanding = false) {row : Cookie × TaskRequest}
    (hrow : row ∈ l'.outstanding) : row.1 ≠ cookie ∧ row ∈ l.outstanding := by
  obtain ⟨c, request⟩ := row
  obtain ⟨phase, hget, hwaiting⟩ := mem_outstanding_iff.mp hrow
  rw [hentries, SortedMap.get?_insert] at hget
  split at hget
  · cases hget
    rw [hserved] at hwaiting
    cases hwaiting
  · next hc => exact ⟨hc, mem_outstanding_iff.mpr ⟨phase, hget, hwaiting⟩⟩

/-- Who waits after a request left waited before. -/
theorem waiting_of_gone {p : Cookie → Prop} [DecidablePred p]
    (hentries : ∀ c, l'.entries.get? c = if p c then none else l.entries.get? c)
    {row : Cookie × TaskRequest} (hrow : row ∈ l'.outstanding) : row ∈ l.outstanding := by
  obtain ⟨c, request⟩ := row
  obtain ⟨phase, hget, hwaiting⟩ := mem_outstanding_iff.mp hrow
  rw [hentries] at hget
  split at hget
  · cases hget
  · exact mem_outstanding_iff.mpr ⟨phase, hget, hwaiting⟩

/-! ## The operations -/

theorem sheds_markRequested {asked : List ContainerRequest}
    (h : l.markRequested cookie asked = (.ok (), l')) : l.Sheds l' := by
  obtain ⟨request, hpending, rfl⟩ := markRequested_ok h
  refine ⟨fun _ _ hget _ => hget, fun ⟨c, request'⟩ hrow => ?_⟩
  obtain ⟨phase, hget, hwaiting⟩ := mem_outstanding_iff.mp hrow
  rw [SortedMap.get?_insert] at hget
  split at hget
  · next hc =>
    -- it waits for the cluster now, and it waited to be submitted before
    cases hget
    exact hc ▸ mem_outstanding_iff.mpr ⟨.pending, hpending, rfl⟩
  · exact mem_outstanding_iff.mpr ⟨phase, hget, hwaiting⟩

/-- A container that is handed over is idle no longer. -/
theorem idle_assignIdle {container : Container} {previous : RequestState}
    (h : l.assignIdle now cookie id = (.ok (container, previous), l')) {k : ContainerId}
    {held : Holding} (hget : l'.held.get? k = some held) (hidle : held.isIdle = true) :
    k ≠ id ∧ l.held.get? k = some held := by
  obtain ⟨entry, old, -, -, -, -, -, -, rfl⟩ := assignIdle_ok h
  exact idle_insert rfl rfl hget hidle

/-- A request that is handed a container waits no longer. -/
theorem waiting_assignIdle {container : Container} {previous : RequestState}
    (h : l.assignIdle now cookie id = (.ok (container, previous), l'))
    {row : Cookie × TaskRequest} (hrow : row ∈ l'.outstanding) :
    row.1 ≠ cookie ∧ row ∈ l.outstanding := by
  obtain ⟨entry, old, -, -, -, -, -, -, rfl⟩ := assignIdle_ok h
  exact waiting_insert rfl rfl hrow

theorem sheds_assignIdle {container : Container} {previous : RequestState}
    (h : l.assignIdle now cookie id = (.ok (container, previous), l')) : l.Sheds l' :=
  ⟨fun _ _ hget hidle => (idle_assignIdle h hget hidle).2,
    fun _ hrow => (waiting_assignIdle h hrow).2⟩

theorem sheds_allocate {container : Container} {previous : RequestState}
    (h : l.allocate now cookie container = (.ok previous, l')) : l.Sheds l' := by
  obtain ⟨entry, -, -, -, -, rfl⟩ := allocate_ok h
  exact ⟨fun _ _ hget hidle => (idle_insert rfl rfl hget hidle).2,
    fun _ hrow => (waiting_insert rfl rfl hrow).2⟩

/-- A request that waits has no container to leave idle. -/
theorem sheds_remove {removed : RemovedRequest} (h : l.remove now cookie = (.ok removed, l'))
    (hwaiting : removed.previousState.isOutstanding = true) : l.Sheds l' := by
  obtain ⟨entry, -, -, hprevious, -, hentries, hheld⟩ := remove_ok h
  have hnone : entry.phase.container? = none := by
    rw [hprevious] at hwaiting
    cases hphase : entry.phase <;> simp_all [Phase.state, RequestState.isOutstanding,
      Phase.container?]
  refine ⟨fun k held hget _ => ?_, fun _ => waiting_of_gone (p := fun c => c = cookie) ?_⟩
  · rwa [hheld, hnone, if_neg (by simp)] at hget
  · intro c
    rw [hentries, SortedMap.get?_erase]

theorem sheds_beginRelease {victim : Cookie} (h : l.beginRelease id = (.ok victim, l')) :
    l.Sheds l' := by
  obtain ⟨held, -, -, rfl⟩ := beginRelease_ok h
  refine ⟨fun _ _ hget hidle => (idle_insert rfl rfl hget hidle).2, fun ⟨c, request⟩ hrow => ?_⟩
  obtain ⟨phase, hget, hwaiting⟩ := mem_outstanding_iff.mp hrow
  rw [SortedMap.get?_modify] at hget
  split at hget
  · obtain ⟨entry, -, hentry⟩ := Option.map_eq_some_iff.mp hget
    cases hentry
    cases hwaiting
  · exact mem_outstanding_iff.mpr ⟨phase, hget, hwaiting⟩

theorem sheds_release {task : Option TaskId} (h : l.release id = (.ok task, l')) :
    l.Sheds l' := by
  obtain ⟨held, -, -, -, -, hheld, hentries⟩ := release_ok h
  exact ⟨fun _ _ hget hidle => (idle_insert hheld rfl hget hidle).2,
    fun _ => waiting_of_gone hentries⟩

theorem sheds_complete {done : CompletedContainer} (h : l.complete id = (.ok done, l')) :
    l.Sheds l' := by
  obtain ⟨held, -, -, -, -, hheld, hentries⟩ := complete_ok h
  refine ⟨fun k held hget _ => ?_, fun _ => waiting_of_gone hentries⟩
  rw [hheld, SortedMap.get?_erase] at hget
  split at hget
  · cases hget
  · exact hget

/-! ## The two that do not -/

/-- Only the request that is recorded waits in addition. -/
theorem waiting_add {request : TaskRequest} {row : Cookie × TaskRequest}
    (hrow : row ∈ (l.add request).2.outstanding) :
    row = (⟨l.nextCookie⟩, request) ∨ row ∈ l.outstanding := by
  obtain ⟨c, request'⟩ := row
  obtain ⟨phase, hget, hwaiting⟩ := mem_outstanding_iff.mp hrow
  simp only [add, SortedMap.get?_insert] at hget
  split at hget
  · next hc =>
    cases hget
    exact .inl (by rw [hc])
  · exact .inr (mem_outstanding_iff.mpr ⟨phase, hget, hwaiting⟩)

/-- Only the container of the request that leaves is idle in addition. -/
theorem idle_remove {removed : RemovedRequest} (h : l.remove now cookie = (.ok removed, l'))
    (hrunning : l.phase? cookie = some (.allocated id)) :
    (∀ k held, l'.held.get? k = some held → k ≠ id → l.held.get? k = some held) ∧
      ∀ row ∈ l'.outstanding, row ∈ l.outstanding := by
  obtain ⟨entry, hentry, -, -, -, hentries, hheld⟩ := remove_ok h
  have hphase : entry.phase = .allocated id := by
    rw [phase?_of_get? hentry] at hrunning
    exact Option.some.inj hrunning
  refine ⟨fun k held hget hk => ?_, fun _ => waiting_of_gone (p := fun c => c = cookie) ?_⟩
  · rwa [hheld, hphase, Phase.container?, if_neg fun heq => hk (Option.some.inj heq).symm] at hget
  · intro c
    rw [hentries, SortedMap.get?_erase]

end TaskFleet.Ledger
