import TaskFleet.Proofs.Scheduler.RequestLife

/-!
# A request is given a container at most once

Three decisions allocate: a new request picks an idle container, a container that a task
leaves is offered, and a grant is taken.  They race for the same requests, and the cluster
may grant too much, too late or twice.

A request can only be given a container as long as it is `unserved`: its cookie is not
issued yet, or it waits.  No move makes a cookie unserved again
(`Move.unserved_of_unserved`), and a move that allocates ends this (`Move.allocations_cases`).
So a cookie that is unserved was never told of, and the others once at most.
-/

namespace TaskFleet

/-! ## Allocations in a history -/

/-- The tasks and containers of the allocations for a cookie. -/
def allocations (c : Cookie) (es : List Effect) : List (TaskId × Container) :=
  es.filterMap fun
    | .notify (.taskAllocated task c' container) => if c' = c then some (task, container) else none
    | _ => none

/-- The allocations for a cookie that were ever decided. -/
def Scheduler.allocations (s : Scheduler) (c : Cookie) : List (TaskId × Container) :=
  TaskFleet.allocations c s.journal

/-- The entry is that of a request that waits for a container. -/
def waiting (entry : Option Entry) : Bool :=
  entry.any fun entry => entry.phase.isOutstanding

/-- The request under a cookie waits for a container. -/
def Ledger.waits (l : Ledger) (c : Cookie) : Bool :=
  waiting (l.entries.get? c)

theorem allocations_append (c : Cookie) (es fs : List Effect) :
    allocations c (es ++ fs) = allocations c es ++ allocations c fs :=
  List.filterMap_append

theorem mem_allocations_iff {c : Cookie} {es : List Effect} {task : TaskId}
    {container : Container} : (task, container) ∈ allocations c es ↔
      .notify (.taskAllocated task c container) ∈ es := by
  rw [allocations, List.mem_filterMap]
  constructor
  · rintro ⟨e, he, hsome⟩
    split at hsome
    · split at hsome
      · next hc =>
        cases hsome
        exact hc ▸ he
      · cases hsome
    · cases hsome
  · intro he
    exact ⟨_, he, if_pos rfl⟩

/-- Only effects that concern a request allocate for it. -/
theorem allocations_about (c : Cookie) (es : List Effect) :
    allocations c (about c es) = allocations c es := by
  rw [allocations, allocations, about, List.filterMap_filter]
  congr 1
  funext e
  split
  · rfl
  · next he =>
    cases e with
    | call call => rfl
    | notify notice => cases notice <;> simp_all [Effect.concerns]

theorem allocations_submit (c : Cookie) (rs : List ContainerRequest) :
    allocations c (rs.map fun r => .call (.submit r)) = [] := by
  induction rs with
  | nil => rfl
  | cons r rs ih => exact ih

theorem allocations_withdrawal (c c' : Cookie) (previous : RequestState) :
    allocations c (withdrawal previous c') = [] := by
  unfold withdrawal
  split <;> rfl

/-! ## One turn of a request -/

/-- A request that waits is not allocated. -/
theorem not_allocated_of_waiting {entry : Option Entry} (h : waiting entry = true) :
    (entry.map fun entry => entry.phase.state) ≠ some .allocated := by
  cases entry with
  | none => cases h
  | some entry =>
      obtain ⟨request, phase⟩ := entry
      cases phase with
      | pending => simp [Phase.state]
      | requested asked => simp [Phase.state]
      | allocated id => cases h
      | releasing id => cases h

/-- Either a turn allocates, and then the request waited and has the container, or it does
not, and then no waiting request got one and none began to wait. -/
theorem Turns.allocations_cases {c : Cookie} {entry entry' : Option Entry}
    {es : List Effect} (h : Turns c entry es entry') :
    (∃ old container, entry = some old ∧ waiting entry = true ∧
        allocations c es = [(old.request.task, container)] ∧
        entry' = some { old with phase := .allocated container.id }) ∨
      allocations c es = [] ∧ (waiting entry' = true → waiting entry = true) ∧
        (waiting entry = true → (entry'.map fun entry => entry.phase.state) ≠ some .allocated) := by
  cases h with
  | stay => exact .inr ⟨rfl, id, not_allocated_of_waiting⟩
  | ask request =>
      refine .inr ⟨allocations_submit c _, fun _ => rfl, fun _ => ?_⟩
      exact not_allocated_of_waiting rfl
  | @allocate request phase container hwaiting =>
      refine .inl ⟨⟨request, phase⟩, container, rfl, hwaiting, ?_, rfl⟩
      rw [allocations_append, allocations_withdrawal]
      simp [allocations]
  | withdraw request hwaiting =>
      refine .inr ⟨allocations_withdrawal c c _, ?_, ?_⟩
      · intro h
        cases h
      · simp
  | lose request id =>
      refine .inr ⟨rfl, ?_, ?_⟩
      · intro h
        cases h
      · intro h
        cases h
  | finish hserved =>
      refine .inr ⟨rfl, ?_, ?_⟩
      · intro h
        cases h
      · simp

/-- A turn does not change what was requested. -/
theorem Turns.request {c : Cookie} {entry entry' : Option Entry} {es : List Effect}
    (h : Turns c entry es entry') {new : Entry} (hnew : entry' = some new) :
    ∃ old, entry = some old ∧ old.request = new.request := by
  cases h with
  | stay => exact ⟨new, hnew, rfl⟩
  | ask request =>
      cases hnew
      exact ⟨_, rfl, rfl⟩
  | allocate request container hwaiting =>
      cases hnew
      exact ⟨_, rfl, rfl⟩
  | withdraw request hwaiting => cases hnew
  | lose request id =>
      cases hnew
      exact ⟨_, rfl, rfl⟩
  | finish hserved => cases hnew

/-! ## One move -/

namespace Scheduler

variable {policy : Policy} {s t : Scheduler} {es : List Effect} {c : Cookie}

/-- No container was given to the request under this cookie: it is not issued yet, or its
request waits. -/
def Unserved (s : Scheduler) (c : Cookie) : Prop :=
  s.ledger.wasIssued c = false ∨ s.ledger.waits c = true

theorem wasIssued_iff {l : Ledger} :
    l.wasIssued c = true ↔ 0 < c.val.toNat ∧ c.val.toNat < l.nextCookie.toNat := by
  simp [Ledger.wasIssued, UInt64.lt_iff_toNat_lt]

/-- A cookie that was issued stays so, and only the next one is issued. -/
theorem wasIssued_enter (hs : s.ledger.Coherent) (hnext : s.ledger.HasCookies)
    (request : TaskRequest) :
    (s.enter request).ledger.wasIssued c = true ↔
      s.ledger.wasIssued c = true ∨ c = ⟨s.ledger.nextCookie⟩ := by
  have hsucc := Ledger.toNat_nextCookie_add hnext request
  have hstarted := hs.started
  have hval : c = ⟨s.ledger.nextCookie⟩ ↔ c.val.toNat = s.ledger.nextCookie.toNat := by
    constructor
    · intro h
      rw [h]
    · intro h
      exact congrArg Cookie.mk (UInt64.toNat_inj.mp h)
  show Ledger.wasIssued (s.ledger.add request).2 c = true ↔ _
  rw [wasIssued_iff, wasIssued_iff, hval, hsucc]
  omega

theorem waits_enter_of_ne (request : TaskRequest) (hc : c ≠ ⟨s.ledger.nextCookie⟩) :
    (s.enter request).ledger.waits c = s.ledger.waits c := by
  rw [Ledger.waits, s.get?_enter_of_ne request hc, Ledger.waits]

theorem not_wasIssued_nextCookie (l : Ledger) : l.wasIssued ⟨l.nextCookie⟩ = false := by
  rw [← Bool.not_eq_true, wasIssued_iff]
  intro h
  exact Nat.lt_irrefl _ h.2

theorem wasIssued_congr {l l' : Ledger} (h : l'.nextCookie = l.nextCookie) :
    l'.wasIssued c = l.wasIssued c := by
  rw [Ledger.wasIssued, h, Ledger.wasIssued]

theorem wasIssued_of_get? (hs : s.ledger.Coherent) {entry : Entry}
    (hentry : s.ledger.entries.get? c = some entry) : s.ledger.wasIssued c = true := by
  refine wasIssued_iff.mpr (hs.issued c ?_)
  rw [Ledger.phase?_of_get? hentry]
  exact Option.some_ne_none _

/-- A cookie that is unserved after a move was so before, and nothing was allocated. -/
theorem Move.unserved_of_unserved (h : Move policy s es t) (hs : s.ledger.Coherent)
    (ht : t.Unserved c) : s.Unserved c ∧ TaskFleet.allocations c es = [] := by
  rcases h.turns hs with ⟨request, hnext, rfl, rfl⟩ | ⟨hsame, hturns⟩
  · refine ⟨?_, rfl⟩
    -- either the cookie is the new one or nothing happened to it
    by_cases hc : c = ⟨s.ledger.nextCookie⟩
    · exact .inl (hc ▸ not_wasIssued_nextCookie s.ledger)
    · rcases ht with hunissued | hwaits
      · rw [← Bool.not_eq_true, wasIssued_enter hs hnext request] at hunissued
        exact .inl (by simpa using fun h => hunissued (.inl h))
      · exact .inr (waits_enter_of_ne request hc ▸ hwaits)
  · rcases (hturns c).allocations_cases with ⟨old, container, hold, hwaits, -, hnew⟩ |
      ⟨hnone, hwaits, -⟩
    · -- an allocated request no longer waits, and its cookie was issued
      exfalso
      rcases ht with hunissued | hwaiting
      · rw [wasIssued_congr hsame, wasIssued_of_get? hs hold] at hunissued
        cases hunissued
      · rw [Ledger.waits, hnew] at hwaiting
        cases hwaiting
    · refine ⟨?_, allocations_about c es ▸ hnone⟩
      rcases ht with hunissued | hwaiting
      · exact .inl (wasIssued_congr hsame ▸ hunissued)
      · exact .inr (hwaits hwaiting)

/-- A move allocates for a cookie exactly when its request goes from waiting to allocated,
and it allocates once. -/
theorem Move.allocations_cases (h : Move policy s es t) (hs : s.ledger.Coherent)
    (c : Cookie) :
    (∃ old container, s.ledger.entries.get? c = some old ∧ s.ledger.waits c = true ∧
        TaskFleet.allocations c es = [(old.request.task, container)] ∧
        t.ledger.entries.get? c = some { old with phase := .allocated container.id }) ∨
      TaskFleet.allocations c es = [] ∧
        (s.ledger.waits c = true → t.ledger.state? c ≠ some .allocated) := by
  rcases h.turns hs with ⟨request, hnext, rfl, rfl⟩ | ⟨-, hturns⟩
  · refine .inr ⟨rfl, fun hwaits => ?_⟩
    by_cases hc : c = ⟨s.ledger.nextCookie⟩
    · rw [hc, Ledger.state?, get?_enter]
      simp [Phase.state]
    · rw [Ledger.state?, s.get?_enter_of_ne request hc]
      exact not_allocated_of_waiting hwaits
  · rcases (hturns c).allocations_cases with ⟨old, container, hold, hwaits, hnew, hafter⟩ |
      ⟨hnone, -, hnot⟩
    · exact .inl ⟨old, container, hold, hwaits, allocations_about c es ▸ hnew, hafter⟩
    · exact .inr ⟨allocations_about c es ▸ hnone, hnot⟩

/-! ## The whole history -/

theorem Move.allocations (h : Move policy s es t) (c : Cookie) :
    t.allocations c = s.allocations c ++ TaskFleet.allocations c es := by
  rw [Scheduler.allocations, h.journal, allocations_append, Scheduler.allocations]

/-- A cookie that is unserved was never told of. -/
theorem Underway.allocations_of_unserved (hs : Underway policy s) :
    s.Unserved c → s.allocations c = [] := by
  refine hs.induct (P := fun s => s.Unserved c → s.allocations c = []) (fun _ => rfl) ?_
  intro s es t hs h ih ht
  obtain ⟨hbefore, hnone⟩ := h.unserved_of_unserved hs.coherent ht
  rw [h.allocations, ih hbefore, hnone, List.append_nil]

theorem Underway.length_allocations_le (hs : Underway policy s) (c : Cookie) :
    (s.allocations c).length ≤ 1 := by
  refine hs.induct (P := fun s => (s.allocations c).length ≤ 1) (Nat.zero_le 1) ?_
  intro s es t hs h ih
  rw [h.allocations, List.length_append]
  rcases h.allocations_cases hs.coherent c with ⟨old, container, -, hwaits, hnew, -⟩ |
    ⟨hnone, -⟩
  · -- the request waited, so this allocation is the first
    rw [hs.allocations_of_unserved (.inr hwaits), hnew]
    exact Nat.le_refl 1
  · rw [hnone]
    exact ih

/-- Once a cookie is issued and its request waits no longer, nothing is allocated for it
any more. -/
theorem Underway.allocations_course (hs : Underway policy s) (hserved : ¬ s.Unserved c)
    (h : Course policy s t) : t.allocations c = s.allocations c := by
  have hkept : ¬ t.Unserved c ∧ t.allocations c = s.allocations c := by
    refine hs.keeps (P := fun t => ¬ t.Unserved c ∧ t.allocations c = s.allocations c) h ?_
      ⟨hserved, rfl⟩
    intro u es v hu h ⟨hclosed, hsame⟩
    refine ⟨fun hv => hclosed (h.unserved_of_unserved hu.coherent hv).1, ?_⟩
    rcases h.allocations_cases hu.coherent c with ⟨old, container, -, hwaits, -, -⟩ |
      ⟨hnone, -⟩
    · exact absurd (.inr hwaits) hclosed
    · rw [h.allocations, hnone, List.append_nil, hsame]
  exact hkept.2

/-- The cookie was issued for this request, and nothing was ever done for it on behalf of
another. -/
structure IssuedFor (s : Scheduler) (c : Cookie) (request : TaskRequest) : Prop where
  issued : s.ledger.wasIssued c = true
  recorded : ∀ entry, s.ledger.entries.get? c = some entry → entry.request = request
  told : ∀ p ∈ s.allocations c, p.1 = request.task

theorem Underway.issuedFor_enter (hs : Underway policy s) (hnext : s.ledger.HasCookies)
    (request : TaskRequest) : (s.enter request).IssuedFor ⟨s.ledger.nextCookie⟩ request := by
  have hnone := hs.allocations_of_unserved (.inl (not_wasIssued_nextCookie s.ledger))
  refine ⟨(wasIssued_enter hs.coherent hnext request).mpr (.inr rfl), ?_, ?_⟩
  · intro entry hentry
    rw [get?_enter] at hentry
    cases hentry
    rfl
  · intro p hp
    have hp : p ∈ s.allocations ⟨s.ledger.nextCookie⟩ := hp
    rw [hnone] at hp
    cases hp

theorem Move.issuedFor (h : Move policy s es t) (hs : s.ledger.Coherent)
    {request : TaskRequest} (hc : s.IssuedFor c request) : t.IssuedFor c request := by
  refine ⟨?_, ?_, ?_⟩
  · rcases h.turns hs with ⟨request', hnext, rfl, rfl⟩ | ⟨hsame, -⟩
    · exact (wasIssued_enter hs hnext request').mpr (.inl hc.issued)
    · exact (wasIssued_congr hsame).trans hc.issued
  · intro entry hentry
    rcases h.turns hs with ⟨request', -, rfl, rfl⟩ | ⟨-, hturns⟩
    · -- a cookie that was issued is not issued again
      have hne : c ≠ ⟨s.ledger.nextCookie⟩ := by
        intro heq
        have hissued := hc.issued
        rw [heq, not_wasIssued_nextCookie] at hissued
        cases hissued
      rw [s.get?_enter_of_ne request' hne] at hentry
      exact hc.recorded entry hentry
    · obtain ⟨old, hold, hrequest⟩ := (hturns c).request hentry
      rw [← hrequest]
      exact hc.recorded old hold
  · intro p hp
    rw [h.allocations, List.mem_append] at hp
    rcases hp with hp | hp
    · exact hc.told p hp
    · rcases h.allocations_cases hs c with ⟨old, container, hold, -, hnew, -⟩ | ⟨hnone, -⟩
      · rw [hnew, List.mem_singleton] at hp
        rw [hp, hc.recorded old hold]
      · rw [hnone] at hp
        cases hp

theorem Underway.issuedFor_course (hs : Underway policy s) (h : Course policy s t)
    {request : TaskRequest} (hc : s.IssuedFor c request) : t.IssuedFor c request :=
  hs.keeps (P := fun t => t.IssuedFor c request) h
    (fun _ _ _ hs h hc => h.issuedFor hs.coherent hc) hc

/-- An answered request has the next cookie, which from then on is its own. -/
theorem Underway.issuedFor_request (hs : Underway policy s) (hnext : s.ledger.HasCookies)
    {cx : Context} (hcx : cx.policy = policy) {request : TaskRequest}
    (hanswer : (s.request cx request).1 = .ok c) :
    (s.request cx request).2.IssuedFor c request := by
  subst hcx
  rcases request_spec cx hs.coherent request with ⟨cause, hrefused⟩ | htaken
  · rw [hrefused] at hanswer
    cases hanswer
  · have hcookie := htaken.cookie
    rw [hanswer] at hcookie
    cases hcookie
    obtain ⟨o, ho, -, -, hrest⟩ := htaken.settled
    have hcourse : Course cx.policy (s.enter request) (s.request cx request).2 :=
      (Course.of_move (.decide ho)).trans (.of_decisions hrest.decisions)
    have hentered : Underway cx.policy (s.enter request) := hs.move (.enter request hnext)
    exact hentered.issuedFor_course hcourse (hs.issuedFor_enter hnext request)

end Scheduler

/-! ## The container that is named -/

/-- Held containers carry the signature that the holding notes. -/
def Ledger.Signed (l : Ledger) : Prop :=
  ∀ k h, l.held.get? k = some h → h.container.signature = some h.signature

/-- A new holding that is signed leaves all holdings signed. -/
theorem Ledger.Signed.insert {l l' : Ledger} (hl : l.Signed) {id : ContainerId} {h : Holding}
    (hheld : l'.held = l.held.insert id h) (hsigned : h.container.signature = some h.signature) :
    l'.Signed := by
  intro k h' hk
  rw [hheld, SortedMap.get?_insert] at hk
  split at hk
  · cases hk
    exact hsigned
  · exact hl k h' hk

theorem Ledger.Signed.remove {l l' : Ledger} (hl : l.Signed) {now : Instant} {cookie : Cookie}
    {removed : RemovedRequest} (h : l.remove now cookie = (.ok removed, l')) : l'.Signed := by
  obtain ⟨entry, -, -, -, -, -, hheld⟩ := Ledger.remove_ok h
  intro k h' hk
  rw [hheld] at hk
  split at hk
  · obtain ⟨old, hold, rfl⟩ := Option.map_eq_some_iff.mp hk
    exact hl k old hold
  · exact hl k h' hk

namespace Scheduler

variable {policy : Policy} {s t : Scheduler} {es : List Effect} {c : Cookie}

theorem Decision.signed {o : Outcome} (h : Decision policy s o) (hs : s.ledger.Signed) :
    o.ledger.Signed := by
  cases h with
  | ask now hpending hledger =>
      intro k h hk
      rw [Ledger.held_markRequested hledger] at hk
      exact hs k h hk
  | hand now hrequest hheld hlarge hserves hledger =>
      obtain ⟨entry, held, -, -, hheld, -, -, -, rfl⟩ := Ledger.assignIdle_ok hledger
      exact hs.insert rfl (hs _ held hheld)
  | grant now hwanted hrequest hledger hheld =>
      obtain ⟨entry, -, -, -, -, rfl⟩ := Ledger.allocate_ok hledger
      exact hs.insert rfl rfl
  | withdraw now hwaiting hledger => exact hs.remove hledger
  | retire now hrunning hledger => exact hs.remove hledger
  | turnAway => exact hs
  | announce now detail hledger =>
      obtain ⟨held, hheld, -, rfl⟩ := Ledger.beginRelease_ok hledger
      exact hs.insert rfl (hs _ held hheld)
  | giveBack now reason hledger =>
      obtain ⟨held, hheld, -, -, -, hafter, -⟩ := Ledger.release_ok hledger
      exact hs.insert hafter (hs _ held hheld)
  | complete now hledger =>
      obtain ⟨held, -, -, -, -, hafter, -⟩ := Ledger.complete_ok hledger
      intro k h hk
      rw [hafter, SortedMap.get?_erase] at hk
      split at hk
      · cases hk
      · exact hs k h hk
  | unawait => exact hs
  | forget => exact hs
  | news => exact hs

theorem Underway.signed (hs : Underway policy s) : s.ledger.Signed := by
  refine hs.induct (P := fun s => s.ledger.Signed) ?_ ?_
  · intro k h hk
    simp [Scheduler.fresh, Ledger.empty] at hk
  · intro s es t hs h ih
    cases h with
    | enter request => exact ih
    | decide h => exact h.signed ih
    | takeUp h => exact ledger_takeUp? h ▸ ih
    | aside => exact ih

theorem notify_not_mem_withdrawal {notice : Notice} {previous : RequestState}
    {cookie : Cookie} : ¬ .notify notice ∈ withdrawal previous cookie := by
  unfold withdrawal
  split <;> simp

/-- The container that an allocation names is the one that the ledger then holds, with the
cookie and with a signature. -/
theorem Decision.holding_of_allocated {o : Outcome} (h : Decision policy s o)
    (hs : s.ledger.Coherent) (hsigned : s.ledger.Signed) {task : TaskId}
    {container : Container}
    (he : .notify (.taskAllocated task c container) ∈ o.effects) :
    ∃ held, o.ledger.holding? container.id = some held ∧ held.container = container ∧
      container.cookie = some c ∧ container.signature = some held.signature := by
  have hafter := h.signed hsigned
  cases h with
  | ask now hpending hledger => simp at he
  | hand now hrequest hheld hlarge hserves hledger =>
      obtain ⟨held, hheld, hsame, hcookie⟩ := Ledger.holding?_assignIdle hledger
      have hid := (hs.assignIdle hledger).keyed _ held hheld
      rcases List.mem_append.mp he with he | he
      · exact absurd he notify_not_mem_withdrawal
      · cases List.mem_singleton.mp he
        rw [hsame] at hid
        have hsign := hafter _ held hheld
        rw [hsame] at hsign
        exact ⟨held, hid ▸ hheld, hsame, hcookie, hsign⟩
  | @grant cookie container request held ledger previous now hwanted hrequest hledger hheld =>
      obtain ⟨held', hheld', hcookie⟩ := Ledger.holding?_allocate hledger
      rw [Option.some.inj (hheld'.symm.trans hheld)] at hcookie
      have hid := (hs.allocate hledger).keyed _ held hheld
      rcases List.mem_append.mp he with he | he
      · exact absurd he notify_not_mem_withdrawal
      · cases List.mem_singleton.mp he
        exact ⟨held, hid ▸ hheld, rfl, hcookie, hafter _ held hheld⟩
  | withdraw now hwaiting hledger => exact absurd he notify_not_mem_withdrawal
  | news notice hnews =>
      cases List.mem_singleton.mp he
      cases hnews
  | _ => simp at he

/-- All that is ever said of allocations for a cookie in a scheduler under way. -/
structure AllocatesOnce (policy : Policy) (s : Scheduler) (c : Cookie) : Prop where
  once : (s.allocations c).length ≤ 1
  neverIssued : s.ledger.wasIssued c = false → s.allocations c = []
  /-- After a request was withdrawn, has ended or has a container, nothing is allocated for
  it any more. -/
  served : s.ledger.wasIssued c = true → s.ledger.waits c = false →
    ∀ t, Course policy s t → t.allocations c = s.allocations c
  /-- The next allocation is decided just when the request stops waiting and is allocated. -/
  whenAllocated : ∀ es t, Move policy s es t → t.journal = s.journal ++ es ∧
    (TaskFleet.allocations c es ≠ [] ↔
      s.ledger.waits c = true ∧ t.ledger.state? c = some .allocated)
  /-- It carries the task of the request and the container that the ledger then records,
  with its cookie and its signature. -/
  carries : ∀ es t, Move policy s es t → ∀ task container,
    .notify (.taskAllocated task c container) ∈ es →
      (∃ request, s.ledger.lookup c = .ok request ∧ task = request.task) ∧
      t.ledger.containerOf? c = some container.id ∧
      (t.ledger.holding? container.id).map Holding.container = some container ∧
      container.cookie = some c ∧ container.signature.isSome = true

theorem Underway.allocatesOnce (hs : Underway policy s) (c : Cookie) :
    s.AllocatesOnce policy c := by
  have hcoherent := hs.coherent
  refine ⟨hs.length_allocations_le c, ?_, ?_, ?_, ?_⟩
  · intro hunissued
    exact hs.allocations_of_unserved (.inl hunissued)
  · intro hissued hserved t h
    refine hs.allocations_course ?_ h
    rintro (hunissued | hwaits)
    · rw [hissued] at hunissued
      cases hunissued
    · rw [hserved] at hwaits
      cases hwaits
  · intro es t h
    refine ⟨h.journal, ?_⟩
    rcases h.allocations_cases hcoherent c with ⟨old, container, -, hwaits, hnew, hafter⟩ |
      ⟨hnone, hnot⟩
    · have hstate : t.ledger.state? c = some .allocated := by
        rw [Ledger.state?, hafter]
        rfl
      simp [hnew, hwaits, hstate]
    · constructor
      · intro hsome
        exact absurd hnone hsome
      · rintro ⟨hwaits, hstate⟩
        exact absurd hstate (hnot hwaits)
  · intro es t h task container he
    rcases h.allocations_cases hcoherent c with ⟨old, container', hold, -, hnew, hafter⟩ |
      ⟨hnone, -⟩
    · have hmem := mem_allocations_iff.mpr he
      rw [hnew, List.mem_singleton] at hmem
      cases hmem
      have hheld : ∃ held, t.ledger.holding? container.id = some held ∧
          held.container = container ∧ container.cookie = some c ∧
          container.signature = some held.signature := by
        cases h with
        | decide h => exact h.holding_of_allocated hcoherent hs.signed he
        | _ => cases he
      obtain ⟨held, hheld, hsame, hcookie, hsign⟩ := hheld
      refine ⟨⟨old.request, ?_, rfl⟩, ?_, ?_, hcookie, ?_⟩
      · rw [Ledger.lookup, hold]
      · rw [Ledger.containerOf?, hafter]
        rfl
      · rw [hheld, Option.map_some, hsame]
      · rw [hsign]
        rfl
    · have hmem := mem_allocations_iff.mpr he
      rw [hnone] at hmem
      cases hmem

end Scheduler

/-- However a scheduler is used, and however often and in whatever order the cluster grants
containers, a container is allocated for a cookie at most once, when its request stops
waiting, and for the task of the request that the cookie was issued for. -/
theorem Fleet.allocated_once {policy : Policy} {w : Fleet} (hw : w.Reachable policy)
    (c : Cookie) :
    (∀ w', w.Run policy w' → w.1.Course policy w'.1) ∧
      (∀ s, w.1.Course policy s → s.AllocatesOnce policy c) ∧
      ∀ cx request, cx.policy = policy → w.1.ledger.HasCookies →
        (w.1.request cx request).1 = .ok c →
        ∀ t, (w.1.request cx request).2.Course policy t → ∀ task container,
          .notify (.taskAllocated task c container) ∈ t.journal → task = request.task := by
  have hs := hw.underway
  refine ⟨fun w' hrun => hrun.course hs.coherent,
    fun s hcourse => (hs.course hcourse).allocatesOnce c, ?_⟩
  intro cx request hcx hnext hanswer t hcourse task container he
  have hissued := hs.issuedFor_request hnext hcx hanswer
  have hrequested : (w.1.request cx request).2.Underway policy := by
    subst hcx
    exact hs.course (Scheduler.course_after hs.coherent cx (.request request) fun _ => hnext)
  exact (hrequested.issuedFor_course hcourse hissued).told _ (mem_allocations_iff.mpr he)

/-- The cluster grants a container twice and then another one for the same request. -/
theorem Fleet.allocated_once_surplus :
    let cx : Context := ⟨⟨.standard, .alwaysMatch⟩, .epoch, none⟩
    let request : TaskRequest :=
      ⟨⟨7⟩, ⟨1024, 1⟩, ⟨5⟩, ⟨[], [], true⟩, ⟨0, ⟨⟨1024, 1⟩, .empty, .empty⟩⟩⟩
    let granted (name : String) : Container :=
      ⟨⟨name⟩, ⟨"host1", 8041⟩, none, ⟨1024, 1⟩, ⟨5⟩, some ⟨1⟩, none⟩
    let s := (Scheduler.fresh.request cx request).2
    let t := s.after cx (.hear (.allocated [granted "c_1", granted "c_1", granted "c_2"]))
    t.AllocatesOnce cx.policy ⟨1⟩ ∧
      t.allocations ⟨1⟩ = [(⟨7⟩, { granted "c_1" with signature := some request.signature })] ∧
      ∀ task container, .notify (.taskAllocated task ⟨1⟩ container) ∈ t.journal →
        task = request.task := by
  intro cx request granted s t
  have hstart : Fleet.Reachable cx.policy (.fresh, .connect .zero) := Fleet.Reachable.start .zero
  obtain ⟨-, honce, htask⟩ := Fleet.allocated_once hstart ⟨1⟩
  have hs : Scheduler.Course cx.policy .fresh s :=
    Scheduler.course_after Ledger.coherent_empty cx (.request request) fun _ => by decide
  have ht : Scheduler.Course cx.policy s t :=
    Scheduler.course_after (hs.coherent Ledger.coherent_empty) cx _ fun h => by cases h
  refine ⟨honce t (hs.trans ht), ?_, htask cx request rfl ?_ rfl t ht⟩
  · decide +kernel
  · decide

end TaskFleet
