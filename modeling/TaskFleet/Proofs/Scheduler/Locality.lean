import TaskFleet.Proofs.Scheduler.Allocation
import TaskFleet.Proofs.Scheduler.Events
import TaskFleet.Proofs.Scheduler.Grants
import TaskFleet.Proofs.Scheduler.Returned

/-!
# Where a request may run

A request that names nodes or racks and is not relaxed is strict: it may run there and
nowhere else (`Locality.admits`).  A container reaches a request in three ways, and the ways
differ in how this is seen to.  A grant that names the request was made for it, so where it
lies is up to the cluster.  A grant that names none is matched with the places that the
cluster was asked for, which are those of the request (`Underway.asks`).  An idle container is
handed on by its size and its signature alone, wherever it is.

So whatever is allocated was granted in place, or it was held before and is reused
(`allocated_in_place`); without reuse strict requests only ever run where they may.
-/

namespace TaskFleet

/-! ## Strict requests -/

namespace Locality

/-- Places are named, and no other will do. -/
def isStrict (l : Locality) : Bool :=
  !l.relaxed && !(l.nodes.isEmpty && l.racks.isEmpty)

/-- The container is on one of the nodes or racks. -/
def includes (l : Locality) (container : Container) : Bool :=
  decide (container.node.host ∈ l.nodes) ||
    container.rack.any fun rack => decide (rack ∈ l.racks)

/-- A request with this locality may run in the container. -/
def admits (l : Locality) (container : Container) : Bool :=
  !l.isStrict || l.includes container

end Locality

/-- A strict request asks for its nodes and racks and for nothing else. -/
theorem TaskRequest.places_of_isStrict {r : TaskRequest} (h : r.locality.isStrict = true) :
    r.places = r.locality.nodes.map LocalityTier.node ++
      r.locality.racks.map LocalityTier.rack := by
  simp only [Locality.isStrict, Bool.and_eq_true, Bool.not_eq_true', Bool.and_eq_false_iff] at h
  obtain ⟨hstrict, hnamed⟩ := h
  have hsome : (r.locality.nodes.map LocalityTier.node ++
      r.locality.racks.map LocalityTier.rack).isEmpty = false := by
    rw [List.isEmpty_eq_false_iff, Ne, List.append_eq_nil_iff, List.map_eq_nil_iff,
      List.map_eq_nil_iff]
    rintro ⟨hnodes, hracks⟩
    simp [hnodes, hracks] at hnamed
  simp [TaskRequest.places, hstrict, hsome]

/-- A container at one of the places of a request may run it. -/
theorem TaskRequest.admits_of_nearness {r : TaskRequest} {container : Container}
    {tier : LocalityTier} {rank : Nat} (htier : tier ∈ r.places)
    (hnear : Ledger.nearness? container tier = some rank) :
    r.locality.admits container = true := by
  unfold Locality.admits
  cases hstrict : r.locality.isStrict with
  | false => rfl
  | true =>
      rw [r.places_of_isStrict hstrict, List.mem_append] at htier
      rcases htier with hnode | hrack
      · obtain ⟨host, hhost, rfl⟩ := List.mem_map.mp hnode
        simp only [Ledger.nearness?] at hnear
        split at hnear
        · next hhere => simp [Locality.includes, ← hhere, hhost]
        · cases hnear
      · obtain ⟨rack, hnamed, rfl⟩ := List.mem_map.mp hrack
        simp only [Ledger.nearness?] at hnear
        split at hnear
        · next hhere => simp [Locality.includes, ← hhere, hnamed]
        · cases hnear

/-- A submitted request was submitted with its tiers, and a turn does not change that. -/
theorem Turns.asks {c : Cookie} {entry entry' : Option Entry} {es : List Effect}
    (h : Turns c entry es entry')
    (hentry : ∀ e ∈ entry, ∀ asked, e.phase = .requested asked → asked = e.request.tiers c) :
    ∀ e ∈ entry', ∀ asked, e.phase = .requested asked → asked = e.request.tiers c := by
  cases h with
  | stay => exact hentry
  | ask request =>
      intro e he asked hasked
      cases he
      cases hasked
      rfl
  | allocate request container hwaiting =>
      intro e he asked hasked
      cases he
      cases hasked
  | withdraw request hwaiting => simp
  | lose request id =>
      intro e he asked hasked
      cases he
      cases hasked
  | finish hserved => simp

namespace Scheduler

variable {policy : Policy} {s t : Scheduler} {es : List Effect} {now : Instant}

/-! ## Grants -/

/-- The cluster was asked for what the requests then asked for, and for nothing else. -/
theorem Underway.asks (hs : Underway policy s) {c : Cookie} {entry : Entry}
    {asked : List ContainerRequest} (hentry : s.ledger.entries.get? c = some entry)
    (hasked : entry.phase = .requested asked) : asked = entry.request.tiers c := by
  have hall := hs.induct (P := fun s => ∀ e ∈ s.ledger.entries.get? c, ∀ asked,
    e.phase = .requested asked → asked = e.request.tiers c) ?_ ?_
  · exact hall entry hentry asked hasked
  · intro e he
    cases he
  · intro s es t hs h ih
    rcases h.turns hs.coherent with ⟨request, -, -, rfl⟩ | ⟨-, hturns⟩
    · by_cases hc : c = ⟨s.ledger.nextCookie⟩
      · rw [hc, get?_enter]
        intro e he asked hasked
        cases he
        cases hasked
      · rw [s.get?_enter_of_ne request hc]
        exact ih
    · exact (hturns c).asks ih

/-- A request is only matched with a container in which it may run. -/
theorem Underway.admits_of_matchOutstanding (hs : Underway policy s) {container : Container}
    {c : Cookie} {entry : Entry} (hmatch : s.ledger.matchOutstanding container = some c)
    (hentry : s.ledger.entries.get? c = some entry) :
    entry.request.locality.admits container = true := by
  obtain ⟨entry', rank, hentry', hrank⟩ := Ledger.matchOutstanding_sound hmatch
  obtain ⟨hstate, -, -, r, hr, hnear⟩ := Ledger.rank?_sound hrank
  rw [hentry] at hentry'
  cases hentry'
  -- the place at which the container lies was one of those asked for
  have htier : r ∈ entry.request.tiers c := by
    cases hphase : entry.phase with
    | requested asked =>
        rw [hphase] at hr
        exact hs.asks hentry hphase ▸ hr
    | _ => simp [hphase, Phase.state] at hstate
  obtain ⟨tier, hplace, rfl⟩ := List.mem_map.mp htier
  exact TaskRequest.admits_of_nearness hplace hnear

/-- If the container names a live request, that one may run in it. -/
def inPlace (s : Scheduler) (container : Container) : Bool :=
  container.cookie.all fun c =>
    (s.ledger.lookup c).toOption.all fun request => request.locality.admits container

/-- Whatever is allocated is allocated to a request that may run there. -/
def AllocatesInPlace (s : Scheduler) (es : List Effect) : Prop :=
  ∀ task c container, .notify (.taskAllocated task c container) ∈ es →
    ∃ request, s.ledger.lookup c = .ok request ∧ request.locality.admits container = true

theorem lookup_of_get? {l : Ledger} {c : Cookie} {entry : Entry}
    (hentry : l.entries.get? c = some entry) : l.lookup c = .ok entry.request := by
  simp [Ledger.lookup, hentry]

namespace Receives

variable {container : Container} {way : Receipt}

/-- To receive a container changes no request. -/
theorem lookup (h : Receives now s container way t) (c : Cookie) :
    t.ledger.lookup c = s.ledger.lookup c := by
  cases h with
  | ignored => rfl
  | @assigned cookie entry ledger held hwanted hentry hwaiting hledger hheld =>
      obtain ⟨entry', -, hentry', -, -, rfl⟩ := Ledger.allocate_ok hledger
      rw [hentry] at hentry'
      cases hentry'
      show Ledger.lookup { s.ledger with entries := _, held := _ } c = _
      by_cases hc : c = cookie
      · simp [Ledger.lookup, hc, hentry]
      · simp [Ledger.lookup, SortedMap.get?_insert_ne _ _ hc]
  | returned => rfl

theorem allocatesInPlace (h : Receives now s container way t) (hs : Underway policy s)
    (hplace : s.inPlace container = true) : s.AllocatesInPlace (t.effectsSince s) := by
  intro task c granted he
  cases h with
  | ignored => simp [effectsSince] at he
  | @assigned cookie entry ledger held hwanted hentry hwaiting hledger hheld =>
      rw [effectsSince_adopt] at he
      rcases List.mem_append.mp he with he | he
      · exact absurd he notify_not_mem_withdrawal
      · cases List.mem_singleton.mp he
        refine ⟨entry.request, lookup_of_get? hentry, ?_⟩
        -- what is held is what was granted, with its cookie and its signature
        have hsame : entry.request.locality.admits held.container =
            entry.request.locality.admits container := by
          obtain ⟨entry', -, -, -, -, rfl⟩ := Ledger.allocate_ok hledger
          rw [Ledger.holding?, SortedMap.get?_insert_self] at hheld
          cases hheld
          rfl
        rw [hsame]
        cases hnamed : container.cookie with
        | some c' =>
            rw [hnamed] at hwanted
            cases hwanted
            simpa [inPlace, hnamed, lookup_of_get? hentry, Except.toOption] using hplace
        | none =>
            rw [hnamed] at hwanted
            exact hs.admits_of_matchOutstanding hwanted hentry
  | returned record =>
      rw [effectsSince_adopt] at he
      simp at he

end Receives

/-- Granted containers of which each lies in place are allocated in place. -/
theorem allocatesInPlace_receiveEach (hs : Underway policy s) (now : Instant)
    {containers : List Container} (hplace : ∀ container ∈ containers, s.inPlace container = true) :
    s.AllocatesInPlace ((s.receiveEach now containers).effectsSince s) := by
  induction containers generalizing s with
  | nil => simp [receiveEach, effectsSince, AllocatesInPlace]
  | cons container rest ih =>
      obtain ⟨hfirst, hrest⟩ := List.forall_mem_cons.mp hplace
      obtain ⟨way, hway, -⟩ := existsUnique_receives now s container
      have hlookup := hway.lookup
      have hreceipt : DecisionsAmong policy grantActions s (s.receive now container) :=
        decisions_receive s now container
      have hlater : DecisionsAmong policy grantActions (s.receive now container)
          ((s.receive now container).receiveEach now rest) :=
        decisions_receiveEach (s.receive now container) now rest
      have hcourse : Underway policy (s.receive now container) :=
        hs.course (.of_decisions hreceipt.decisions)
      -- the requests are still those that the containers were in place for
      have hstill : ∀ c ∈ rest, (s.receive now container).inPlace c = true := by
        intro c hc
        rw [inPlace]
        simp only [hlookup]
        exact hrest c hc
      show s.AllocatesInPlace (((s.receive now container).receiveEach now rest).effectsSince s)
      rw [effectsSince_trans hreceipt.journal hlater.journal]
      intro task cookie granted he
      rcases List.mem_append.mp he with he | he
      · exact hway.allocatesInPlace hs hfirst task cookie granted he
      · rw [← hlookup cookie]
        exact ih hcourse hstill task cookie granted he

/-! ## Reuse -/

/-- What is handed out by decisions that take no grant was held before. -/
theorem DecisionsAmong.held_of_allocated {actions : List (Option AuditAction)}
    {k : ContainerId} (h : DecisionsAmong policy actions s t) (hs : s.ledger.Coherent)
    (hactions : some .allocated ∉ actions) (hword : .allocated ∈ words k (t.effectsSince s)) :
    s.ledger.stage k ≠ .absent := by
  intro habsent
  have hall := h.induct
    (P := fun t es => t.ledger.stage k = .absent ∧ .allocated ∉ words k es) hs
    ⟨habsent, List.not_mem_nil⟩ ?_
  · exact hall.2 hword
  · intro u es o hu ho haction ⟨habsent, hsilent⟩
    have hnext : .allocated ∉ words k o.effects := by
      intro hword
      have hgrant := (ho.eq_allocated_of_absent hu habsent hword).1
      exact hactions (hgrant ▸ haction)
    have hpass := ho.passes hu k
    rw [habsent] at hpass
    refine ⟨hpass.eq_of_absent hnext, ?_⟩
    rw [words_append, List.mem_append, not_or]
    exact ⟨hsilent, hnext⟩

/-- The container was held before, and containers are reused. -/
def Reuses (policy : Policy) (s : Scheduler) (k : ContainerId) : Prop :=
  policy.config.reuseEnabled = true ∧ s.ledger.holding? k ≠ none

theorem reuses_request (hs : s.ledger.Coherent) (cx : Context) (request : TaskRequest)
    (hnext : s.ledger.HasCookies) {k : ContainerId}
    (hword : .allocated ∈ words k ((s.request cx request).2.effectsSince s)) :
    Reuses cx.policy s k := by
  have hentered : (s.enter request).ledger.Coherent := hs.add hnext request
  rcases s.request_cases cx request with ⟨cause, hrefused⟩ | ⟨reusable, hreuse, hplace⟩
  · rw [hrefused] at hword
    simp [effectsSince, words] at hword
  · rw [hplace] at hword
    cases reusable with
    | none =>
        -- the cluster is asked, and nothing is handed out
        exact absurd hword
          ((s.decisions_place_none cx request).allocated_notMem hentered (by decide) k)
    | some id =>
        have hon : cx.policy.config.reuseEnabled = true := by
          unfold reusable? at hreuse
          split at hreuse
          · assumption
          · cases hreuse
        refine ⟨hon, fun hnone => ?_⟩
        exact (decisions_place_some hs (pickIdle?_of_reusable? hreuse)).held_of_allocated hentered
          (by decide) hword (Ledger.stage_eq_absent_iff.mpr hnone)

theorem reuses_deallocateTask (hs : s.ledger.Coherent) (cx : Context) (cookie : Cookie)
    (succeeded : Bool) {k : ContainerId}
    (hword : .allocated ∈ words k ((s.deallocateTask cx cookie succeeded).2.effectsSince s)) :
    Reuses cx.policy s k := by
  rcases s.deallocateTask_cases cx cookie succeeded with hgone |
    ⟨⟨-, hon⟩, t, hidled, hreused⟩
  · exact absurd hword (hgone.allocated_notMem hs (by decide) k)
  · have hkept : DecisionsAmong cx.policy [some .idled, some .reused] s
        (s.deallocateTask cx cookie succeeded).2 :=
      (hidled.mono (by simp)).trans (hreused.mono (by simp))
    refine ⟨hon, fun hnone => ?_⟩
    exact hkept.held_of_allocated hs (by decide) hword (Ledger.stage_eq_absent_iff.mpr hnone)

/-- What an operation allocates lies in place, if granted containers do, or it is reused. -/
theorem allocated_after (hs : Underway policy s) {cx : Context} (hcx : cx.policy = policy)
    {op : Operation} (hnext : op.isRequest = true → s.ledger.HasCookies)
    (hplace : ∀ containers, op = .hear (.allocated containers) →
      ∀ container ∈ containers, s.inPlace container = true)
    {task : TaskId} {c : Cookie} {container : Container}
    (he : .notify (.taskAllocated task c container) ∈ (s.after cx op).effectsSince s) :
    (∃ request, s.ledger.lookup c = .ok request ∧ request.locality.admits container = true) ∨
      Reuses policy s container.id := by
  subst hcx
  have hcoherent := hs.coherent
  have hword := mem_words_of_allocated he
  have hnone : op.isRequest = false → some .allocated ∉ op.actions ∧ some .reused ∉ op.actions →
      .allocated ∉ words container.id ((s.after cx op).effectsSince s) := fun hop hactions =>
    (decisions_after s cx hop).allocated_notMem hcoherent hactions container.id
  cases op with
  | request request => exact .inr (reuses_request hcoherent cx request (hnext rfl) hword)
  | deallocateTask cookie succeeded =>
      exact .inr (reuses_deallocateTask hcoherent cx cookie succeeded hword)
  | deallocateContainer | preempt | releaseExpired | housekeep =>
      exact absurd hword (hnone rfl (by simp [Operation.actions, walkActions]))
  | hear event =>
      cases event with
      | allocated containers =>
          have hgrants : DecisionsAmong cx.policy grantActions s
              (s.receiveEach cx.now containers) := decisions_receiveEach s cx.now containers
          have hwalk : DecisionsAmong cx.policy walkActions (s.receiveEach cx.now containers)
              (s.receiveAll cx containers) := decisions_walkAfter s cx containers
          have hsplit : (s.after cx (.hear (.allocated containers))).effectsSince s = _ :=
            effectsSince_trans hgrants.journal hwalk.journal
          rw [hsplit] at he
          rcases List.mem_append.mp he with he | he
          · exact .inl (allocatesInPlace_receiveEach hs cx.now (hplace containers rfl)
              task c container he)
          · exact absurd (mem_words_of_allocated he)
              (hwalk.allocated_notMem (hgrants.coherent hcoherent) (by decide) container.id)
      | _ => exact absurd hword (hnone rfl (by simp [Operation.actions]))

end Scheduler

/-! ## Runs -/

namespace Fleet

open Scheduler

variable {policy : Policy} {w : Fleet}

/-- Containers that are granted by the event for a live request lie where it may run. -/
def Event.grantsInPlace (w : Fleet) : Event → Bool
  | .use (.hear (.allocated containers)) _ _ => containers.all w.1.inPlace
  | _ => true

/-- By the event the container is allocated to a request that may run there, or it was held
before and is reused. -/
structure AllocatedInPlace (policy : Policy) (w : Fleet) (e : Event) (task : TaskId)
    (c : Cookie) (container : Container) : Prop where
  decided : .notify (.taskAllocated task c container) ∈ (w.after policy e).1.effectsSince w.1
  inPlace : (∃ request, w.1.ledger.lookup c = .ok request ∧
    request.locality.admits container = true) ∨ Reuses policy w.1 container.id

theorem allocated_event (hw : w.Reachable policy) {e : Event} (he : e.Possible w)
    (hplace : e.grantsInPlace w = true) {task : TaskId} {c : Cookie} {container : Container}
    (hmem : .notify (.taskAllocated task c container) ∈
      (w.after policy e).1.effectsSince w.1) :
    AllocatedInPlace policy w e task c container := by
  have hs := hw.underway
  refine ⟨hmem, ?_⟩
  -- only operations decide, but for what is made good when a notice is refused
  cases e with
  | use op now headroom =>
      refine allocated_after hs rfl he ?_ hmem
      rintro containers rfl
      exact List.all_eq_true.mp hplace
  | carryOut =>
      simp only [after] at hmem
      split at hmem
      · simp [effectsSince] at hmem
      · next htake =>
        rw [effectsSince, journal_takeUp? htake] at hmem
        simp at hmem
  | refuse now notice cause =>
      obtain ⟨t, reports, ht, heq⟩ := refused_eq policy w.1 now notice cause
      simp only [after, heq] at hmem
      exact absurd (mem_words_of_allocated hmem)
        (ht.allocated_notMem hs.coherent (by decide) container.id)
  | aside => simp [after, effectsSince, journal] at hmem
  | client d => simp [after, effectsSince] at hmem

theorem allocated_events (hw : w.Reachable policy) {es : List Event}
    (hes : Follows policy (fun w e => e.grantsInPlace w = true) w es) {task : TaskId} {c : Cookie}
    {container : Container} (hmem : .notify (.taskAllocated task c container) ∈
      (w.afterAll policy es).1.effectsSince w.1) :
    ∃ before e after, es = before ++ e :: after ∧
      AllocatedInPlace policy (w.afterAll policy before) e task c container := by
  induction es generalizing w with
  | nil => simp [afterAll, effectsSince] at hmem
  | cons e es ih =>
      obtain ⟨he, hplace, hrest⟩ := hes
      have hnext : (w.after policy e).Reachable policy := hw.run he.run
      have hfirst : w.1.Course policy (w.after policy e).1 :=
        he.run.course hw.underway.coherent
      have hlater := hrest.run.course hnext.underway.coherent
      have hsplit : (w.afterAll policy (e :: es)).1.effectsSince w.1 = _ :=
        effectsSince_trans hfirst.journal hlater.journal
      rw [hsplit] at hmem
      rcases List.mem_append.mp hmem with hmem | hmem
      · exact ⟨[], e, es, rfl, allocated_event hw he hplace hmem⟩
      · obtain ⟨before, e', after, rfl, hbefore⟩ := ih hnext hrest hmem
        exact ⟨e :: before, e', after, rfl, hbefore⟩

/-- If the cluster grants in place whatever it grants by name, then whatever was ever
allocated in a run was allocated to a request that may run there, or it was held before
and reused. -/
theorem allocated_in_place {max : Resource} {es : List Event}
    (hes : Follows policy (fun w e => e.grantsInPlace w = true) (.fresh, .connect max) es)
    {task : TaskId} {c : Cookie} {container : Container}
    (hmem : .notify (.taskAllocated task c container) ∈
      (afterAll policy (.fresh, .connect max) es).1.journal) :
    ∃ before e after, es = before ++ e :: after ∧
      AllocatedInPlace policy (afterAll policy (.fresh, .connect max) before) e task c
        container :=
  allocated_events (.start max) hes hmem

/-- A strict request waits for a container on its node; one that names no request comes from
elsewhere and goes back, and the next one is there. -/
theorem allocated_in_place_matched :
    let cx : Context := ⟨⟨.standard, .alwaysMatch⟩, .epoch, none⟩
    let request : TaskRequest :=
      ⟨⟨7⟩, ⟨1024, 1⟩, ⟨5⟩, ⟨["host1"], [], false⟩, ⟨0, ⟨⟨1024, 1⟩, .empty, .empty⟩⟩⟩
    let granted (name host : String) : Container :=
      ⟨⟨name⟩, ⟨host, 8041⟩, none, ⟨1024, 1⟩, ⟨5⟩, none, none⟩
    let given : Container :=
      { granted "c_2" "host1" with cookie := some ⟨1⟩, signature := some request.signature }
    let es : List Event := [.use (.request request) cx.now cx.headroom,
      .use (.hear (.allocated [granted "c_1" "host2", granted "c_2" "host1"])) cx.now cx.headroom]
    ∃ before e after, es = before ++ e :: after ∧
      AllocatedInPlace cx.policy (afterAll cx.policy (.fresh, .connect .zero) before) e ⟨7⟩ ⟨1⟩
        given := by
  intro cx request granted given es
  have hes : Follows cx.policy (fun w e => e.grantsInPlace w = true) (.fresh, .connect .zero)
      es := by
    decide +kernel
  have hmem : .notify (.taskAllocated ⟨7⟩ ⟨1⟩ given) ∈
      (afterAll cx.policy (.fresh, .connect .zero) es).1.journal := by
    decide +kernel
  exact allocated_in_place hes hmem

/-- Reuse looks neither at nodes nor at racks.  A container on one node that a task has left
is given to a request that insists on another node, be it that the request comes then or
that it was waiting. -/
theorem reused_out_of_place :
    let cx : Context := ⟨⟨.standard, .alwaysMatch⟩, .epoch, none⟩
    let request (task : UInt64) (locality : Locality) : TaskRequest :=
      ⟨⟨task⟩, ⟨1024, 1⟩, ⟨5⟩, locality, ⟨0, ⟨⟨1024, 1⟩, .empty, .empty⟩⟩⟩
    let anywhere := request 7 ⟨[], [], true⟩
    let strict := request 8 ⟨["host2"], [], false⟩
    let granted : Container := ⟨⟨"c_1"⟩, ⟨"host1", 8041⟩, none, ⟨1024, 1⟩, ⟨5⟩, some ⟨1⟩, none⟩
    let given : Container :=
      { granted with cookie := some ⟨2⟩, signature := some anywhere.signature }
    let use (op : Operation) : Event := .use op cx.now cx.headroom
    let start : Fleet := (.fresh, .connect .zero)
    let onRequest := [use (.request anywhere), use (.hear (.allocated [granted])),
      use (.deallocateTask ⟨1⟩ true), use (.request strict)]
    let onOffer := [use (.request anywhere), use (.request strict),
      use (.hear (.allocated [granted])), use (.deallocateTask ⟨1⟩ true)]
    strict.locality.admits given = false ∧
      ∀ es ∈ [onRequest, onOffer], Follows cx.policy (fun w e => e.grantsInPlace w = true) start es ∧
        ((start.afterAll cx.policy es).1.ledger.lookup ⟨2⟩).toOption = some strict ∧
        .notify (.taskAllocated ⟨8⟩ ⟨2⟩ given) ∈ (start.afterAll cx.policy es).1.journal := by
  intro cx request anywhere strict granted given use start onRequest onOffer
  refine ⟨by decide, List.forall_mem_cons.mpr ⟨⟨?_, ?_, ?_⟩,
    List.forall_mem_singleton.mpr ⟨?_, ?_, ?_⟩⟩⟩
  all_goals decide +kernel

end Fleet

end TaskFleet
