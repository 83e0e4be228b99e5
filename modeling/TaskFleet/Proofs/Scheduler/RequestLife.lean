import TaskFleet.Proofs.Scheduler.Run

/-!
# The life of a request

A request is recorded, submitted to the cluster or served at once, allocated, perhaps made
to give its container up, and gone; a waiting request may also be withdrawn.  A decision
turns each entry of the ledger by at most one such step and decides exactly on the effects
that belong to it (`Decision.turns`), so the ledger's side of a request and the effects
that name its cookie can be followed together.

Three facts recur in the cases.  A waiting request names no container, a container in use
names a request that names it back, and what an operation does not touch stays.
-/

namespace TaskFleet

/-- The effect concerns the request with this cookie. -/
def Effect.concerns (c : Cookie) : Effect → Bool
  | .call (.submit r) => decide (r.cookie = c)
  | .call (.withdraw c') => decide (c' = c)
  | .notify (.taskAllocated _ c' _) => decide (c' = c)
  | _ => false

/-- The effects that concern a request. -/
def about (c : Cookie) (es : List Effect) : List Effect :=
  es.filter (Effect.concerns c)

/-- What a decision does to the entry under a cookie, with the effects that concern it. -/
inductive Turns (c : Cookie) : Option Entry → List Effect → Option Entry → Prop
  | stay (entry : Option Entry) : Turns c entry [] entry
  /-- The cluster is asked on behalf of a new request. -/
  | ask (request : TaskRequest) :
      Turns c (some ⟨request, .pending⟩) ((request.tiers c).map fun r => .call (.submit r))
        (some ⟨request, .requested (request.tiers c)⟩)
  /-- A waiting request gets a container. -/
  | allocate (request : TaskRequest) {phase : Phase} (container : Container)
      (hwaiting : phase.isOutstanding = true) :
      Turns c (some ⟨request, phase⟩)
        (withdrawal phase.state c ++ [.notify (.taskAllocated request.task c container)])
        (some ⟨request, .allocated container.id⟩)
  /-- A waiting request is given up. -/
  | withdraw (request : TaskRequest) {phase : Phase} (hwaiting : phase.isOutstanding = true) :
      Turns c (some ⟨request, phase⟩) (withdrawal phase.state c) none
  /-- A running task has to give its container up. -/
  | lose (request : TaskRequest) (id : ContainerId) :
      Turns c (some ⟨request, .allocated id⟩) [] (some ⟨request, .releasing id⟩)
  /-- A request that had a container ends. -/
  | finish {entry : Entry} (hserved : entry.phase.isOutstanding = false) :
      Turns c (some entry) [] none

/-! ## Effects about a cookie -/

theorem about_append (c : Cookie) (es fs : List Effect) :
    about c (es ++ fs) = about c es ++ about c fs :=
  List.filter_append ..

theorem about_submit_self (c : Cookie) (request : TaskRequest) :
    about c ((request.tiers c).map fun r => .call (.submit r)) =
      (request.tiers c).map fun r => .call (.submit r) := by
  rw [about, List.filter_eq_self]
  intro e he
  obtain ⟨r, hr, rfl⟩ := List.mem_map.mp he
  obtain ⟨tier, -, rfl⟩ := List.mem_map.mp hr
  simp [Effect.concerns]

theorem about_submit_of_ne {c c' : Cookie} (h : c' ≠ c) (request : TaskRequest) :
    about c ((request.tiers c').map fun r => .call (.submit r)) = [] := by
  rw [about, List.filter_eq_nil_iff]
  intro e he
  obtain ⟨r, hr, rfl⟩ := List.mem_map.mp he
  obtain ⟨tier, -, rfl⟩ := List.mem_map.mp hr
  simpa [Effect.concerns] using h

theorem about_withdrawal_self (c : Cookie) (previous : RequestState) :
    about c (withdrawal previous c) = withdrawal previous c := by
  unfold withdrawal
  split <;> simp [about, Effect.concerns]

theorem about_withdrawal_of_ne {c c' : Cookie} (h : c' ≠ c) (previous : RequestState) :
    about c (withdrawal previous c') = [] := by
  unfold withdrawal
  split <;> simp [about, Effect.concerns, h]

/-- News concern no request. -/
theorem about_news (c : Cookie) {notice : Notice} (hnews : notice.container? = none) :
    about c [.notify notice] = [] := by
  cases notice with
  | taskAllocated task cookie container => cases hnews
  | _ => rfl

/-! ## Entries -/

/-- The owner of a container has been served. -/
theorem Ledger.Coherent.isOutstanding_of_ownerOf? {l : Ledger} (hl : l.Coherent)
    {id : ContainerId} {c : Cookie} {entry : Entry} (howner : l.ownerOf? id = some c)
    (hentry : l.entries.get? c = some entry) : entry.phase.isOutstanding = false := by
  have hnamed := (hl.containerOf?_eq_iff c id).mpr howner
  rw [Ledger.containerOf?, hentry, Option.bind_some] at hnamed
  rw [← Bool.not_eq_true, entry.phase.isOutstanding_iff, hnamed]
  simp

namespace Turns

variable {c : Cookie}

theorem of_eq {entry entry' : Option Entry} {es : List Effect} (hes : es = [])
    (h : entry' = entry) : Turns c entry es entry' := by
  subst hes h
  exact .stay entry'

/-- The entry of a request that parts with its container, if it is the owner. -/
theorem part {l l' : Ledger} (hl : l.Coherent) {owner : Option Cookie} {id : ContainerId}
    (howner : owner = l.ownerOf? id)
    (hentries : l'.entries.get? c = if owner = some c then none else l.entries.get? c) :
    Turns c (l.entries.get? c) [] (l'.entries.get? c) := by
  rw [hentries]
  split
  · next hc =>
    cases hentry : l.entries.get? c with
    | none => exact .stay none
    | some entry =>
        exact .finish (hl.isOutstanding_of_ownerOf? (howner.symm.trans hc) hentry)
  · exact .stay _

/-- A waiting request gets a container, and the others stay. -/
theorem of_allocation {l l' : Ledger} {cookie : Cookie} {entry : Entry}
    {container : Container} (hentry : l.entries.get? cookie = some entry)
    (hfree : entry.phase.container? = none)
    (hentries : l'.entries = l.entries.insert cookie
      { entry with phase := .allocated container.id }) :
    Turns c (l.entries.get? c)
      (about c (withdrawal entry.phase.state cookie ++
        [.notify (.taskAllocated entry.request.task cookie container)]))
      (l'.entries.get? c) := by
  by_cases hc : cookie = c
  · subst hc
    rw [about_append, about_withdrawal_self, hentries, SortedMap.get?_insert_self, hentry]
    have hself : about cookie [.notify (.taskAllocated entry.request.task cookie container)] =
        [.notify (.taskAllocated entry.request.task cookie container)] := by
      simp [about, Effect.concerns]
    rw [hself]
    exact .allocate entry.request container (entry.phase.isOutstanding_iff.mpr hfree)
  · refine of_eq ?_ ?_
    · rw [about_append, about_withdrawal_of_ne hc]
      simp [about, Effect.concerns, hc]
    · rw [hentries, SortedMap.get?_insert_ne _ _ (Ne.symm hc)]

end Turns

/-! ## Decisions turn entries -/

theorem Scheduler.Decision.turns {policy : Policy} {s : Scheduler} {o : Outcome}
    (h : s.Decision policy o) (hs : s.ledger.Coherent) (c : Cookie) :
    Turns c (s.ledger.entries.get? c) (about c o.effects) (o.ledger.entries.get? c) := by
  cases h with
  | @ask cookie request ledger now hpending hledger =>
      obtain ⟨request', hentry, rfl⟩ := Ledger.markRequested_ok hledger
      rw [hpending] at hentry
      cases hentry
      by_cases hc : cookie = c
      · subst hc
        rw [about_submit_self, hpending, SortedMap.get?_insert_self]
        exact .ask request
      · exact .of_eq (about_submit_of_ne hc request)
          (SortedMap.get?_insert_ne _ _ (Ne.symm hc))
  | @hand cookie id request h ledger container previous now hrequest hheld hlarge hserves
      hledger =>
      obtain ⟨entry, held, hentry, hfree, hheld', -, rfl, hcontainer, rfl⟩ :=
        Ledger.assignIdle_ok hledger
      have hid : container.id = id := by
        rw [hcontainer]
        exact hs.keyed id held hheld'
      -- the task that is told is looked up in the entry that is turned
      have hsame : entry.request = request := by
        simpa [Ledger.lookup, hentry] using hrequest
      subst hsame hid
      exact .of_allocation hentry hfree rfl
  | @grant cookie container request h ledger previous now hwanted hrequest hledger hheld =>
      have hid := (hs.allocate hledger).keyed _ _ hheld
      obtain ⟨entry, -, hentry, hfree, rfl, rfl⟩ := Ledger.allocate_ok hledger
      have hsame : entry.request = request := by
        simpa [Ledger.lookup, hentry] using hrequest
      subst hsame
      refine .of_allocation hentry hfree ?_
      rw [hid]
  | @withdraw cookie ledger removed now hwaiting hledger =>
      obtain ⟨entry, hentry, -, hprevious, -, hentries, -⟩ := Ledger.remove_ok hledger
      rw [hprevious] at hwaiting ⊢
      rw [hentries, SortedMap.get?_erase]
      by_cases hc : cookie = c
      · subst hc
        rw [about_withdrawal_self, if_pos rfl, hentry]
        exact .withdraw entry.request hwaiting
      · rw [about_withdrawal_of_ne hc, if_neg (Ne.symm hc)]
        exact .stay _
  | @retire cookie id ledger removed now hrunning hledger =>
      obtain ⟨entry, hentry, -, -, -, hentries, -⟩ := Ledger.remove_ok hledger
      rw [hentries, SortedMap.get?_erase]
      split
      · next hc =>
        subst hc
        rw [hentry]
        have hphase : entry.phase = .allocated id :=
          Option.some.inj ((Ledger.phase?_of_get? hentry).symm.trans hrunning)
        refine .finish ?_
        rw [hphase]
        rfl
      · exact .stay _
  | turnAway now cookie detail hnew haction => exact .stay _
  | @announce id ledger victim now detail hledger =>
      obtain ⟨held, hheld, hactive, rfl⟩ := Ledger.beginRelease_ok hledger
      -- the container names its request, and by coherence that one runs in it
      have hassigned := Ledger.assignment?_of_get? hheld
      rw [hactive, ← hs.active] at hassigned
      obtain ⟨⟨request, phase⟩, hentry, hphase⟩ := Option.map_eq_some_iff.mp hassigned
      cases hphase
      rw [SortedMap.get?_modify]
      split
      · next hc =>
        subst hc
        rw [hentry]
        exact .lose request id
      · exact .stay _
  | @giveBack id ledger task now reason hledger =>
      obtain ⟨held, hheld, -, -, -, -, hentries⟩ := Ledger.release_ok hledger
      exact .part hs (Ledger.ownerOf?_of_get? hheld).symm (hentries c)
  | complete now hledger =>
      obtain ⟨held, hheld, -, -, -, -, hentries⟩ := Ledger.complete_ok hledger
      exact .part hs (Ledger.ownerOf?_of_get? hheld).symm (hentries c)
  | unawait hnew => exact .stay _
  | forget asOf => exact .stay _
  | news notice hnews => exact .of_eq (about_news c hnews) rfl

/-- A move issues a cookie, or it issues none and turns every entry. -/
theorem Scheduler.Move.turns {policy : Policy} {s t : Scheduler} {es : List Effect}
    (h : s.Move policy es t) (hs : s.ledger.Coherent) :
    (∃ request, s.ledger.HasCookies ∧ es = [] ∧ t = s.enter request) ∨
      t.ledger.nextCookie = s.ledger.nextCookie ∧
        ∀ c, Turns c (s.ledger.entries.get? c) (about c es) (t.ledger.entries.get? c) := by
  cases h with
  | enter request hnext => exact .inl ⟨request, hnext, rfl, rfl⟩
  | decide h => exact .inr ⟨h.nextCookie, h.turns hs⟩
  | takeUp h =>
      rw [ledger_takeUp? h]
      exact .inr ⟨rfl, fun c => .stay _⟩
  | aside => exact .inr ⟨rfl, fun c => .stay _⟩

theorem Scheduler.get?_enter_of_ne (s : Scheduler) (request : TaskRequest) {c : Cookie}
    (hc : c ≠ ⟨s.ledger.nextCookie⟩) :
    (s.enter request).ledger.entries.get? c = s.ledger.entries.get? c :=
  SortedMap.get?_insert_ne _ _ hc

end TaskFleet
