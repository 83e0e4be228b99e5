import TaskFleet.Ledger.Basic
import TaskFleet.Proofs.SortedMap

/-!
# What a ledger operation does

Two lemmas for each operation that can be refused.  The one says what the ledger had when the
operation went through, and what it has afterwards; the other that a refusal leaves the ledger
as it was (`Atomic`).  Whatever is proved of ledgers later reads these lemmas and does not open
the operations again.

The tables are described by their lookups, `phase?` for requests and `assignment?` for
containers being the two that point at each other.
-/

namespace TaskFleet

/-! ## Refusals -/

/-- What an operation leaves when it is refused is what it found. -/
def Atomic {σ ε α : Type} (s : σ) (result : Except ε α × σ) : Prop :=
  ∀ cause s', result = (.error cause, s') → s' = s

namespace Atomic

variable {σ ε α : Type} {s s' : σ}

theorem answered (a : α) : Atomic s ((.ok a : Except ε α), s') :=
  nofun

theorem refused (cause : ε) : Atomic s ((.error cause : Except ε α), s) := by
  intro cause' s' h
  cases h
  rfl

end Atomic

namespace Ledger

variable {l l' : Ledger} {now : Instant} {cookie : Cookie} {id : ContainerId}

/-- Where a live request stands. -/
def phase? (l : Ledger) (cookie : Cookie) : Option Phase :=
  (l.entries.get? cookie).map Entry.phase

/-- What a held container is in use for. -/
def assignment? (l : Ledger) (id : ContainerId) : Option Assignment :=
  (l.held.get? id).map Holding.assignment

/-- The request that owns a held container. -/
def ownerOf? (l : Ledger) (id : ContainerId) : Option Cookie :=
  (l.assignment? id).bind Assignment.owner?

theorem state?_eq (l : Ledger) (cookie : Cookie) :
    l.state? cookie = (l.phase? cookie).map Phase.state := by
  simp only [state?, phase?, Option.map_map]
  rfl

theorem containerOf?_eq (l : Ledger) (cookie : Cookie) :
    l.containerOf? cookie = (l.phase? cookie).bind Phase.container? := by
  cases h : l.entries.get? cookie <;> simp [containerOf?, phase?, h]

theorem phase?_of_get? {entry : Entry} (h : l.entries.get? cookie = some entry) :
    l.phase? cookie = some entry.phase := by
  simp [phase?, h]

theorem assignment?_of_get? {h : Holding} (hget : l.held.get? id = some h) :
    l.assignment? id = some h.assignment := by
  simp [assignment?, hget]

theorem ownerOf?_of_get? {h : Holding} (hget : l.held.get? id = some h) :
    l.ownerOf? id = h.assignment.owner? := by
  rw [ownerOf?, assignment?_of_get? hget, Option.bind_some]

/-! ## Requests -/

theorem markRequested_ok {asked : List ContainerRequest}
    (h : l.markRequested cookie asked = (.ok (), l')) :
    ∃ request, l.entries.get? cookie = some ⟨request, .pending⟩ ∧
      l' = { l with entries := l.entries.insert cookie ⟨request, .requested asked⟩ } := by
  unfold markRequested at h
  split at h
  · cases h
  · next entry hentry =>
    split at h
    · next hphase =>
      cases h
      obtain ⟨request, phase⟩ := entry
      cases hphase
      exact ⟨request, hentry, rfl⟩
    · cases h

theorem atomic_markRequested {asked : List ContainerRequest} :
    Atomic l (l.markRequested cookie asked) := by
  unfold markRequested
  split
  · exact .refused _
  · split
    · exact .answered _
    · exact .refused _

/-- Removal drops the entry and vacates the container that it names. -/
theorem remove_ok {removed : RemovedRequest} (h : l.remove now cookie = (.ok removed, l')) :
    ∃ entry, l.entries.get? cookie = some entry ∧
      removed.request = entry.request ∧ removed.previousState = entry.phase.state ∧
      l'.nextCookie = l.nextCookie ∧ l'.entries = l.entries.erase cookie ∧
      ∀ k, l'.held.get? k =
        if entry.phase.container? = some k then
          (l.held.get? k).map fun h =>
            { h with assignment := vacate now entry.request.task h.assignment }
        else l.held.get? k := by
  unfold remove at h
  split at h
  · cases h
  · next entry hentry =>
    cases h
    refine ⟨entry, hentry, rfl, rfl, rfl, rfl, fun k => ?_⟩
    cases hc : entry.phase.container? with
    | none => simp
    | some id =>
        cases hh : l.held.get? id with
        | none =>
            by_cases hk : id = k
            · subst hk
              simp [hh]
            · simp [hh, hk]
        | some h =>
            by_cases hk : id = k
            · subst hk
              simp [hh]
            · simp [hh, hk, SortedMap.get?_insert_ne _ _ (Ne.symm hk)]

/-- The entry goes before the check whether there was one. -/
theorem atomic_remove : Atomic l (l.remove now cookie) := by
  unfold remove
  split
  · next hnone =>
    rw [SortedMap.erase_eq_self hnone]
    exact .refused _
  · exact .answered _

/-! ## Containers -/

theorem allocate_ok {container : Container} {previous : RequestState}
    (h : l.allocate now cookie container = (.ok previous, l')) :
    ∃ entry, l.held.get? container.id = none ∧ l.entries.get? cookie = some entry ∧
      entry.phase.container? = none ∧ previous = entry.phase.state ∧
      l' = { l with
        entries := l.entries.insert cookie { entry with phase := .allocated container.id }
        held := l.held.insert container.id {
          container := { container with
            cookie := some cookie
            signature := some (container.signature.getD entry.request.signature) }
          signature := container.signature.getD entry.request.signature
          assignment := .active cookie
          assignedAt := now
          lastTask := entry.request.task } } := by
  unfold allocate at h
  split at h
  · cases h
  · next hnew =>
    have hheld : l.held.get? container.id = none :=
      l.held.contains_eq_false_iff.mp (Bool.not_eq_true _ ▸ hnew)
    split at h
    · cases h
    · next entry hentry =>
      split at h
      · cases h
      · next hfree =>
        rw [if_pos (entry.phase.isOutstanding_iff.mpr hfree)] at h
        cases h
        exact ⟨entry, hheld, hentry, hfree, rfl, rfl⟩

theorem atomic_allocate {container : Container} :
    Atomic l (l.allocate now cookie container) := by
  unfold allocate
  split
  · exact .refused _
  · split
    · exact .refused _
    · split
      · exact .refused _
      · split
        · exact .answered _
        · exact .refused _

theorem assignIdle_ok {container : Container} {previous : RequestState}
    (h : l.assignIdle now cookie id = (.ok (container, previous), l')) :
    ∃ entry held, l.entries.get? cookie = some entry ∧ entry.phase.container? = none ∧
      l.held.get? id = some held ∧ held.isIdle = true ∧ previous = entry.phase.state ∧
      container = { held.container with cookie := some cookie } ∧
      l' = { l with
        entries := l.entries.insert cookie { entry with phase := .allocated id }
        held := l.held.insert id { held with
          container := { held.container with cookie := some cookie }
          assignment := .active cookie
          assignedAt := now
          lastTask := entry.request.task } } := by
  unfold assignIdle at h
  split at h
  · cases h
  · next held hheld =>
    split at h
    · next hidle =>
      split at h
      · cases h
      · next entry hentry =>
        split at h
        · cases h
        · next hfree =>
          cases h
          exact ⟨entry, held, hentry, hfree, hheld, hidle, rfl, rfl, rfl⟩
    · cases h

theorem atomic_assignIdle : Atomic l (l.assignIdle now cookie id) := by
  unfold assignIdle
  split
  · exact .refused _
  · split
    · split
      · exact .refused _
      · split
        · exact .refused _
        · exact .answered _
    · exact .refused _

theorem beginRelease_ok {victim : Cookie} (h : l.beginRelease id = (.ok victim, l')) :
    ∃ held, l.held.get? id = some held ∧ held.assignment = .active victim ∧
      l' = { l with
        entries := l.entries.modify victim fun entry => { entry with phase := .releasing id }
        held := l.held.insert id { held with assignment := .beingReleased victim } } := by
  unfold beginRelease at h
  split at h
  · cases h
  · next held hheld =>
    split at h
    · next cookie hactive =>
      cases h
      exact ⟨held, hheld, hactive, rfl⟩
    · cases h

theorem atomic_beginRelease : Atomic l (l.beginRelease id) := by
  unfold beginRelease
  split
  · exact .refused _
  · split
    · exact .answered _
    · exact .refused _

/-- Release marks the container and drops the request that owned it. -/
theorem release_ok {task : Option TaskId} (h : l.release id = (.ok task, l')) :
    ∃ held, l.held.get? id = some held ∧ (∀ task', held.assignment ≠ .released task') ∧
      task = held.assignment.owner?.map (fun _ => held.lastTask) ∧
      l'.nextCookie = l.nextCookie ∧
      l'.held = l.held.insert id { held with assignment := .released task } ∧
      ∀ c, l'.entries.get? c =
        if held.assignment.owner? = some c then none else l.entries.get? c := by
  unfold release at h
  split at h
  · cases h
  · next held hheld =>
    refine ⟨held, hheld, ?_⟩
    split at h
    case h_1 cookie hactive | h_2 cookie hactive =>
      cases h
      refine ⟨by simp [hactive], by simp [hactive, Assignment.owner?], rfl, rfl, fun c => ?_⟩
      simp [hactive, Assignment.owner?, SortedMap.get?_erase, eq_comm]
    case h_3 since hidle =>
      cases h
      exact ⟨by simp [hidle], by simp [hidle, Assignment.owner?], rfl, rfl,
        fun c => by simp [hidle, Assignment.owner?]⟩
    case h_4 => cases h

theorem atomic_release : Atomic l (l.release id) := by
  unfold release
  split
  · exact .refused _
  · split
    case h_1 | h_2 | h_3 => exact .answered _
    case h_4 => exact .refused _

/-- Completion drops the container and the request that owned it. -/
theorem complete_ok {done : CompletedContainer} (h : l.complete id = (.ok done, l')) :
    ∃ held, l.held.get? id = some held ∧ done.container = held.container ∧
      done.cookie = held.assignment.owner? ∧ l'.nextCookie = l.nextCookie ∧
      l'.held = l.held.erase id ∧
      ∀ c, l'.entries.get? c =
        if held.assignment.owner? = some c then none else l.entries.get? c := by
  unfold complete at h
  split at h
  · cases h
  · next held hheld =>
    refine ⟨held, hheld, ?_⟩
    split at h
    case h_1 cookie hactive | h_2 cookie hactive =>
      cases h
      refine ⟨rfl, by simp [hactive, Assignment.owner?], rfl, rfl, fun c => ?_⟩
      simp [hactive, Assignment.owner?, SortedMap.get?_erase, eq_comm]
    case h_3 task hreleased =>
      cases h
      exact ⟨rfl, by simp [hreleased, Assignment.owner?], rfl, rfl,
        fun c => by simp [hreleased, Assignment.owner?]⟩
    case h_4 since hidle =>
      cases h
      exact ⟨rfl, by simp [hidle, Assignment.owner?], rfl, rfl,
        fun c => by simp [hidle, Assignment.owner?]⟩

theorem complete_error {cause : LedgerError} (h : l.complete id = (.error cause, l')) :
    l.held.get? id = none := by
  unfold complete at h
  split at h
  · assumption
  · split at h <;> cases h

/-- Whether or not it was held, the container is not held afterwards. -/
theorem held_complete (l : Ledger) (id : ContainerId) :
    (l.complete id).2.held = l.held.erase id := by
  unfold complete
  split
  · rfl
  · split <;> rfl

/-- The holding goes before the check whether there was one. -/
theorem atomic_complete : Atomic l (l.complete id) := by
  unfold complete
  split
  · next hnone =>
    rw [SortedMap.erase_eq_self hnone]
    exact .refused _
  · split <;> exact .answered _

/-! ## The two tables after an operation -/

theorem phase?_add (l : Ledger) (request : TaskRequest) (c : Cookie) :
    (l.add request).2.phase? c = if c = ⟨l.nextCookie⟩ then some .pending else l.phase? c := by
  simp only [add, phase?, SortedMap.get?_insert]
  split <;> rfl

theorem phase?_markRequested {asked : List ContainerRequest}
    (h : l.markRequested cookie asked = (.ok (), l')) (c : Cookie) :
    l'.phase? c = if c = cookie then some (.requested asked) else l.phase? c := by
  obtain ⟨request, -, rfl⟩ := markRequested_ok h
  simp only [phase?, SortedMap.get?_insert]
  split <;> rfl

theorem held_markRequested {asked : List ContainerRequest}
    (h : l.markRequested cookie asked = (.ok (), l')) : l'.held = l.held := by
  obtain ⟨request, -, rfl⟩ := markRequested_ok h
  rfl

theorem phase?_remove {removed : RemovedRequest}
    (h : l.remove now cookie = (.ok removed, l')) (c : Cookie) :
    l'.phase? c = if c = cookie then none else l.phase? c := by
  obtain ⟨entry, -, -, -, -, hentries, -⟩ := remove_ok h
  simp only [phase?, hentries, SortedMap.get?_erase]
  split <;> rfl

theorem assignment?_remove {removed : RemovedRequest}
    (h : l.remove now cookie = (.ok removed, l')) (k : ContainerId) :
    l'.assignment? k = if l.containerOf? cookie = some k then
      (l.assignment? k).map (vacate now removed.request.task) else l.assignment? k := by
  obtain ⟨entry, hentry, hrequest, -, -, -, hheld⟩ := remove_ok h
  simp only [assignment?, hheld, containerOf?, hentry, Option.bind_some, hrequest]
  split
  · cases l.held.get? k <;> rfl
  · rfl

theorem phase?_allocate {container : Container} {previous : RequestState}
    (h : l.allocate now cookie container = (.ok previous, l')) (c : Cookie) :
    l'.phase? c = if c = cookie then some (.allocated container.id) else l.phase? c := by
  obtain ⟨entry, -, -, -, -, rfl⟩ := allocate_ok h
  simp only [phase?, SortedMap.get?_insert]
  split <;> rfl

theorem assignment?_allocate {container : Container} {previous : RequestState}
    (h : l.allocate now cookie container = (.ok previous, l')) (k : ContainerId) :
    l'.assignment? k = if k = container.id then some (.active cookie) else l.assignment? k := by
  obtain ⟨entry, -, -, -, -, rfl⟩ := allocate_ok h
  simp only [assignment?, SortedMap.get?_insert]
  split <;> rfl

theorem holding?_allocate {container : Container} {previous : RequestState}
    (h : l.allocate now cookie container = (.ok previous, l')) :
    ∃ held, l'.holding? container.id = some held ∧ held.container.cookie = some cookie := by
  obtain ⟨entry, -, -, -, -, rfl⟩ := allocate_ok h
  exact ⟨_, SortedMap.get?_insert_self .., rfl⟩

theorem phase?_assignIdle {container : Container} {previous : RequestState}
    (h : l.assignIdle now cookie id = (.ok (container, previous), l')) (c : Cookie) :
    l'.phase? c = if c = cookie then some (.allocated id) else l.phase? c := by
  obtain ⟨entry, held, -, -, -, -, -, -, rfl⟩ := assignIdle_ok h
  simp only [phase?, SortedMap.get?_insert]
  split <;> rfl

theorem assignment?_assignIdle {container : Container} {previous : RequestState}
    (h : l.assignIdle now cookie id = (.ok (container, previous), l')) (k : ContainerId) :
    l'.assignment? k = if k = id then some (.active cookie) else l.assignment? k := by
  obtain ⟨entry, held, -, -, -, -, -, -, rfl⟩ := assignIdle_ok h
  simp only [assignment?, SortedMap.get?_insert]
  split <;> rfl

/-- The container that is answered is the one that is held from then on. -/
theorem holding?_assignIdle {container : Container} {previous : RequestState}
    (h : l.assignIdle now cookie id = (.ok (container, previous), l')) :
    ∃ held, l'.holding? id = some held ∧ held.container = container ∧
      container.cookie = some cookie := by
  obtain ⟨entry, held, -, -, -, -, -, rfl, rfl⟩ := assignIdle_ok h
  exact ⟨_, SortedMap.get?_insert_self .., rfl, rfl⟩

theorem phase?_beginRelease {victim : Cookie} (h : l.beginRelease id = (.ok victim, l'))
    (c : Cookie) :
    l'.phase? c = if c = victim then (l.phase? c).map fun _ => .releasing id
      else l.phase? c := by
  obtain ⟨held, -, -, rfl⟩ := beginRelease_ok h
  simp only [phase?, SortedMap.get?_modify]
  split
  · cases l.entries.get? c <;> rfl
  · rfl

theorem assignment?_beginRelease {victim : Cookie}
    (h : l.beginRelease id = (.ok victim, l')) (k : ContainerId) :
    l'.assignment? k = if k = id then some (.beingReleased victim) else l.assignment? k := by
  obtain ⟨held, -, -, rfl⟩ := beginRelease_ok h
  simp only [assignment?, SortedMap.get?_insert]
  split <;> rfl

theorem phase?_release {task : Option TaskId} (h : l.release id = (.ok task, l'))
    (c : Cookie) :
    l'.phase? c = if l.ownerOf? id = some c then none else l.phase? c := by
  obtain ⟨held, hheld, -, -, -, -, hentries⟩ := release_ok h
  simp only [phase?, hentries, ownerOf?, assignment?, hheld, Option.map_some, Option.bind_some]
  split <;> rfl

theorem assignment?_release {task : Option TaskId} (h : l.release id = (.ok task, l'))
    (k : ContainerId) :
    l'.assignment? k = if k = id then some (.released task) else l.assignment? k := by
  obtain ⟨held, -, -, -, -, hheld, -⟩ := release_ok h
  simp only [assignment?, hheld, SortedMap.get?_insert]
  split <;> rfl

theorem phase?_complete {done : CompletedContainer} (h : l.complete id = (.ok done, l'))
    (c : Cookie) :
    l'.phase? c = if l.ownerOf? id = some c then none else l.phase? c := by
  obtain ⟨held, hheld, -, -, -, -, hentries⟩ := complete_ok h
  simp only [phase?, hentries, ownerOf?, assignment?, hheld, Option.map_some, Option.bind_some]
  split <;> rfl

theorem assignment?_complete {done : CompletedContainer} (h : l.complete id = (.ok done, l'))
    (k : ContainerId) : l'.assignment? k = if k = id then none else l.assignment? k := by
  obtain ⟨held, -, -, -, -, hheld, -⟩ := complete_ok h
  simp only [assignment?, hheld, SortedMap.get?_erase]
  split <;> rfl

end Ledger

end TaskFleet
