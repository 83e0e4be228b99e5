import TaskFleet.Proofs.Ledger.Ownership

/-!
# Lifecycles only move forward

A live request goes from waiting to running to leaving and never back, and the container
that it gets is the one it has until it ends.  A held container may change hands while it
is idle, but once it is on its way out it stays on its way out until its completion.

The half about requests is not checked where it matters: `add` writes over whatever has the
next cookie, and `beginRelease` over the state of the request that the container names.
That there is nothing to lose is what `Coherent` says.  The half about containers needs no
more than the checks of each operation.

A single operation is `Coherent.forward_after` for requests and `continues_after` for
containers; both are carried along a run.
-/

namespace TaskFleet

/-- How far a request has come. -/
def RequestState.rank : RequestState → Nat
  | pending => 0
  | requested => 1
  | allocated => 2
  | releasing => 3
  | completed | released => 4

/-- A live request may go on from one phase to another. -/
structure Phase.Precedes (p p' : Phase) : Prop where
  rank_le : p.state.rank ≤ p'.state.rank
  container : ∀ k, p.container? = some k → p'.container? = some k

theorem Phase.Precedes.refl (p : Phase) : p.Precedes p :=
  ⟨Nat.le_refl _, fun _ h => h⟩

theorem Phase.Precedes.trans {p p' p'' : Phase} (h : p.Precedes p') (h' : p'.Precedes p'') :
    p.Precedes p'' :=
  ⟨Nat.le_trans h.rank_le h'.rank_le, fun k hk => h'.container k (h.container k hk)⟩

/-- The ways in which the use of a held container changes. -/
inductive Assignment.Moves : Assignment → Assignment → Prop where
  | vacate (cookie : Cookie) (since : Instant) : Moves (.active cookie) (.idle since)
  | announce (cookie : Cookie) : Moves (.active cookie) (.beingReleased cookie)
  | giveBackActive (cookie : Cookie) (task : Option TaskId) :
      Moves (.active cookie) (.released task)
  | hand (since : Instant) (cookie : Cookie) : Moves (.idle since) (.active cookie)
  | giveBackIdle (since : Instant) (task : Option TaskId) : Moves (.idle since) (.released task)
  | giveBackLeaving (cookie : Cookie) (task : Option TaskId) :
      Moves (.beingReleased cookie) (.released task)

namespace Assignment

theorem Moves.isLeaving {a a' : Assignment} (h : a.Moves a') (ha : a.isLeaving = true) :
    a'.isLeaving = true := by
  cases h <;> first | rfl | cases ha

theorem not_moves_released {task : Option TaskId} {a : Assignment} :
    ¬ (released task).Moves a := nofun

theorem moves_released {a : Assignment} (ha : ∀ task, a ≠ .released task)
    (task : Option TaskId) : a.Moves (.released task) := by
  cases a with
  | active cookie => exact .giveBackActive cookie task
  | idle since => exact .giveBackIdle since task
  | beingReleased cookie => exact .giveBackLeaving cookie task
  | released task' => exact absurd rfl (ha task')

theorem moves_active {a : Assignment} (ha : a.isIdle = true) (cookie : Cookie) :
    a.Moves (.active cookie) := by
  cases a with
  | idle since => exact .hand since cookie
  | active cookie' | beingReleased cookie' | released task => cases ha

/-- A container whose request leaves stays as it was or moves on. -/
theorem vacate_eq_or_moves (now : Instant) (task : TaskId) (a : Assignment) :
    Ledger.vacate now task a = a ∨ a.Moves (Ledger.vacate now task a) := by
  cases a with
  | active cookie => exact .inr (.vacate cookie now)
  | beingReleased cookie => exact .inr (.giveBackLeaving cookie (some task))
  | idle since => exact .inl rfl
  | released task' => exact .inl rfl

end Assignment

/-- A held container stays as it was, or its use changes in one of the ways it may. -/
def Holding.Continues (h h' : Holding) : Prop :=
  h' = h ∨ h.assignment.Moves h'.assignment

namespace Ledger

variable {l l' : Ledger} {now : Instant} {cookie : Cookie} {id : ContainerId}

/-! ## Requests -/

/-- Requests only move forward, and who has ended does not come back. -/
structure Forward (l l' : Ledger) : Prop where
  counter : l.nextCookie.toNat ≤ l'.nextCookie.toNat
  retired : ∀ c, c.val.toNat < l.nextCookie.toNat → l.phase? c = none → l'.phase? c = none
  phases : ∀ c p p', l.phase? c = some p → l'.phase? c = some p' → p.Precedes p'

theorem Forward.refl (l : Ledger) : l.Forward l where
  counter := Nat.le_refl _
  retired _ _ h := h
  phases c p p' h h' := by
    have heq : p = p' := Option.some.inj (h.symm.trans h')
    exact heq ▸ .refl p

/-- A request that is live at both ends was live all the time. -/
theorem Forward.trans {l'' : Ledger} (hl : l.Coherent) (h : l.Forward l')
    (h' : l'.Forward l'') : l.Forward l'' where
  counter := Nat.le_trans h.counter h'.counter
  retired c hc hgone :=
    h'.retired c (Nat.lt_of_lt_of_le hc h.counter) (h.retired c hc hgone)
  phases c p p'' hp hp'' := by
    have hissued := Nat.lt_of_lt_of_le (hl.issued c (by simp [hp])).2 h.counter
    cases hp' : l'.phase? c with
    | none =>
        have hgone := h'.retired c hissued hp'
        rw [hp''] at hgone
        cases hgone
    | some p' => exact (h.phases c p p' hp hp').trans (h'.phases c p' p'' hp' hp'')

/-- An operation that issues no cookie is told by where the phases come from. -/
private theorem forward_of_phases (hnext : l'.nextCookie = l.nextCookie)
    (hphases : ∀ c p', l'.phase? c = some p' → ∃ p, l.phase? c = some p ∧ p.Precedes p') :
    l.Forward l' where
  counter := hnext ▸ Nat.le_refl _
  retired c _ hgone := by
    cases hp' : l'.phase? c with
    | none => rfl
    | some p' =>
        obtain ⟨p, hp, -⟩ := hphases c p' hp'
        rw [hgone] at hp
        cases hp
  phases c p p' hp hp' := by
    obtain ⟨q, hq, hprecedes⟩ := hphases c p' hp'
    have heq : q = p := Option.some.inj (hq.symm.trans hp)
    exact heq ▸ hprecedes

/-- One request goes on to another phase. -/
private theorem forward_of_update {phase phase' : Phase}
    (hnext : l'.nextCookie = l.nextCookie) (hold : l.phase? cookie = some phase)
    (hnew : ∀ c, l'.phase? c = if c = cookie then some phase' else l.phase? c)
    (hprecedes : phase.Precedes phase') : l.Forward l' := by
  refine forward_of_phases hnext fun c p' hp' => ?_
  rw [hnew] at hp'
  split at hp'
  · next hcookie =>
    cases hp'
    exact ⟨phase, hcookie ▸ hold, hprecedes⟩
  · exact ⟨p', hp', .refl p'⟩

/-- One request, or none, leaves the ledger. -/
private theorem forward_of_end {ends : Cookie → Prop} [DecidablePred ends]
    (hnext : l'.nextCookie = l.nextCookie)
    (hnew : ∀ c, l'.phase? c = if ends c then none else l.phase? c) : l.Forward l' := by
  refine forward_of_phases hnext fun c p' hp' => ?_
  rw [hnew] at hp'
  split at hp'
  · cases hp'
  · exact ⟨p', hp', .refl p'⟩

/-- A request that waits may get any container. -/
private theorem precedes_allocated {phase : Phase} (hfree : phase.container? = none) :
    phase.Precedes (.allocated id) := by
  cases phase with
  | pending => exact ⟨Nat.zero_le 2, nofun⟩
  | requested asked => exact ⟨Nat.le_succ 1, nofun⟩
  | allocated k | releasing k => cases hfree

theorem Coherent.forward_add (hl : l.Coherent) (hnext : l.HasCookies) (request : TaskRequest) :
    l.Forward (l.add request).2 := by
  have hsucc := toNat_nextCookie_add hnext request
  have hfresh := hl.phase?_nextCookie
  refine ⟨by omega, fun c hc hgone => ?_, fun c p p' hp hp' => ?_⟩
  · have hne : c ≠ ⟨l.nextCookie⟩ := fun heq => Nat.lt_irrefl _ (heq ▸ hc)
    rw [phase?_add, if_neg hne, hgone]
  · have hne : c ≠ ⟨l.nextCookie⟩ := by
      rintro rfl
      rw [hfresh] at hp
      cases hp
    rw [phase?_add, if_neg hne, hp] at hp'
    cases hp'
    exact .refl p

theorem forward_markRequested {asked : List ContainerRequest}
    (h : l.markRequested cookie asked = (.ok (), l')) : l.Forward l' := by
  have hphase := phase?_markRequested h
  obtain ⟨request, hentry, rfl⟩ := markRequested_ok h
  exact forward_of_update rfl (phase?_of_get? hentry) hphase ⟨Nat.zero_le 1, nofun⟩

theorem forward_allocate {container : Container} {previous : RequestState}
    (h : l.allocate now cookie container = (.ok previous, l')) : l.Forward l' := by
  have hphase := phase?_allocate h
  obtain ⟨entry, -, hentry, hfree, -, rfl⟩ := allocate_ok h
  exact forward_of_update rfl (phase?_of_get? hentry) hphase (precedes_allocated hfree)

theorem forward_assignIdle {container : Container} {previous : RequestState}
    (h : l.assignIdle now cookie id = (.ok (container, previous), l')) : l.Forward l' := by
  have hphase := phase?_assignIdle h
  obtain ⟨entry, held, hentry, hfree, -, -, -, -, rfl⟩ := assignIdle_ok h
  exact forward_of_update rfl (phase?_of_get? hentry) hphase (precedes_allocated hfree)

/-- The request that is told to leave was running in that very container. -/
theorem Coherent.forward_beginRelease (hl : l.Coherent) {victim : Cookie}
    (h : l.beginRelease id = (.ok victim, l')) : l.Forward l' := by
  have hphase := phase?_beginRelease h
  obtain ⟨held, hheld, hactive, rfl⟩ := beginRelease_ok h
  have hrunning : l.phase? victim = some (.allocated id) :=
    (hl.active victim id).mpr (hactive ▸ assignment?_of_get? hheld)
  have hprecedes : (Phase.allocated id).Precedes (.releasing id) :=
    ⟨Nat.le_succ 2, fun k hk => hk⟩
  refine forward_of_update rfl hrunning (fun c => ?_) hprecedes
  rw [hphase]
  split
  · next hvictim => rw [hvictim, hrunning, Option.map_some]
  · rfl

theorem forward_remove {removed : RemovedRequest}
    (h : l.remove now cookie = (.ok removed, l')) : l.Forward l' := by
  obtain ⟨entry, -, -, -, hnext, -, -⟩ := remove_ok h
  exact forward_of_end hnext (phase?_remove h)

theorem forward_release {task : Option TaskId} (h : l.release id = (.ok task, l')) :
    l.Forward l' := by
  obtain ⟨held, -, -, -, hnext, -, -⟩ := release_ok h
  exact forward_of_end hnext (phase?_release h)

theorem forward_complete {done : CompletedContainer} (h : l.complete id = (.ok done, l')) :
    l.Forward l' := by
  obtain ⟨held, -, -, -, hnext, -, -⟩ := complete_ok h
  exact forward_of_end hnext (phase?_complete h)

theorem Coherent.forward_after (hl : l.Coherent) (op : Operation)
    (hnext : op.isAdd = true → l.HasCookies) : l.Forward (l.after op) := by
  refine of_goes (.refl l) fun l' h => ?_
  cases h with
  | add request => exact hl.forward_add (hnext rfl) request
  | markRequested h => exact forward_markRequested h
  | remove h => exact forward_remove h
  | allocate h => exact forward_allocate h
  | assignIdle h => exact forward_assignIdle h
  | beginRelease h => exact hl.forward_beginRelease h
  | release h => exact forward_release h
  | complete h => exact forward_complete h

/-- What a single operation does to requests, a whole run does. -/
theorem Coherent.forward_run (hl : l.Coherent) (ops : List Operation)
    (hadds : l.nextCookie.toNat + ops.countP Operation.isAdd < 2 ^ 64) :
    l.Forward (l.run ops) := by
  induction ops generalizing l with
  | nil => exact .refl l
  | cons op ops ih =>
      obtain ⟨hnext, hrest⟩ := hasCookies_of_countP hadds
      have hstep := hl.forward_after op hnext
      have hlater := ih (hl.after op hnext) hrest
      exact hstep.trans hl hlater

/-! ## Containers -/

/-- A container that was held is held still, and moved on if it changed. -/
def Keeps (l l' : Ledger) (k : ContainerId) : Prop :=
  ∀ h, l.held.get? k = some h → ∃ h', l'.held.get? k = some h' ∧ h.Continues h'

theorem Keeps.refl (l : Ledger) (k : ContainerId) : l.Keeps l k :=
  fun h hk => ⟨h, hk, .inl rfl⟩

/-- One container moves on. -/
private theorem keeps_of_insert {h h' : Holding} (hheld : l'.held = l.held.insert id h')
    (hold : l.held.get? id = some h) (hmoves : h.assignment.Moves h'.assignment)
    (k : ContainerId) : l.Keeps l' k := by
  intro g hg
  rw [hheld, SortedMap.get?_insert]
  split
  · next hk =>
    have heq : h = g := Option.some.inj (hold.symm.trans (hk ▸ hg))
    exact ⟨h', rfl, .inr (heq ▸ hmoves)⟩
  · exact ⟨g, hg, .inl rfl⟩

theorem keeps_remove {removed : RemovedRequest}
    (h : l.remove now cookie = (.ok removed, l')) (k : ContainerId) : l.Keeps l' k := by
  obtain ⟨entry, -, -, -, -, -, hheld⟩ := remove_ok h
  intro g hg
  rw [hheld, hg]
  split
  · refine ⟨_, rfl, ?_⟩
    rcases Assignment.vacate_eq_or_moves now entry.request.task g.assignment with heq | hmoves
    · left
      show { g with assignment := vacate now entry.request.task g.assignment } = g
      rw [heq]
    · exact .inr hmoves
  · exact ⟨g, rfl, .inl rfl⟩

/-- A granted container was not held, so it is none of those that were. -/
theorem keeps_allocate {container : Container} {previous : RequestState}
    (h : l.allocate now cookie container = (.ok previous, l')) (k : ContainerId) :
    l.Keeps l' k := by
  obtain ⟨entry, hnew, -, -, -, rfl⟩ := allocate_ok h
  intro g hg
  have hne : k ≠ container.id := by
    rintro rfl
    rw [hnew] at hg
    cases hg
  refine ⟨g, ?_, .inl rfl⟩
  rw [SortedMap.get?_insert, if_neg hne, hg]

theorem keeps_assignIdle {container : Container} {previous : RequestState}
    (h : l.assignIdle now cookie id = (.ok (container, previous), l')) (k : ContainerId) :
    l.Keeps l' k := by
  obtain ⟨entry, held, -, -, hheld, hidle, -, -, rfl⟩ := assignIdle_ok h
  exact keeps_of_insert rfl hheld (Assignment.moves_active hidle cookie) k

theorem keeps_beginRelease {victim : Cookie} (h : l.beginRelease id = (.ok victim, l'))
    (k : ContainerId) : l.Keeps l' k := by
  obtain ⟨held, hheld, hactive, rfl⟩ := beginRelease_ok h
  exact keeps_of_insert rfl hheld (hactive ▸ .announce victim) k

theorem keeps_release {task : Option TaskId} (h : l.release id = (.ok task, l'))
    (k : ContainerId) : l.Keeps l' k := by
  obtain ⟨held, hheld, hstays, -, -, hheld', -⟩ := release_ok h
  exact keeps_of_insert hheld' hheld (Assignment.moves_released hstays task) k

theorem keeps_complete {done : CompletedContainer} (h : l.complete id = (.ok done, l'))
    {k : ContainerId} (hk : k ≠ id) : l.Keeps l' k := by
  obtain ⟨held, -, -, -, -, hheld', -⟩ := complete_ok h
  intro g hg
  refine ⟨g, ?_, .inl rfl⟩
  rw [hheld', SortedMap.get?_erase, if_neg hk, hg]

/-- Only its completion takes a container off the ledger. -/
theorem keeps_after {op : Operation} {k : ContainerId} (hop : op ≠ .complete k) :
    l.Keeps (l.after op) k := by
  refine of_goes (P := fun l' => l.Keeps l' k) (.refl l k) fun l' h => ?_
  cases h with
  | add request => exact .refl l k
  | markRequested h =>
      intro g hg
      exact ⟨g, held_markRequested h ▸ hg, .inl rfl⟩
  | remove h => exact keeps_remove h k
  | allocate h => exact keeps_allocate h k
  | assignIdle h => exact keeps_assignIdle h k
  | beginRelease h => exact keeps_beginRelease h k
  | release h => exact keeps_release h k
  | complete h => exact keeps_complete h fun heq => hop (heq ▸ rfl)

/-- A container that completes is held no longer. -/
theorem get?_after_complete (l : Ledger) (k : ContainerId) :
    (l.after (.complete k)).held.get? k = none := by
  show (l.complete k).2.held.get? k = none
  rw [held_complete, SortedMap.get?_erase, if_pos rfl]

/-- A container that is held before and after an operation stayed as it was or moved on. -/
theorem continues_after {op : Operation} {k : ContainerId} {h h' : Holding}
    (hk : l.held.get? k = some h) (hk' : (l.after op).held.get? k = some h') :
    h.Continues h' := by
  have hop : op ≠ .complete k := by
    rintro rfl
    rw [get?_after_complete] at hk'
    cases hk'
  obtain ⟨h'', hk'', hcontinues⟩ := keeps_after hop h hk
  have heq : h'' = h' := Option.some.inj (hk''.symm.trans hk')
  exact heq ▸ hcontinues

/-- Until its completion a container that is on its way out stays there, and one that was
given back does not change at all. -/
theorem leaving_run {ops : List Operation} {k : ContainerId} {h : Holding}
    (hops : ∀ op ∈ ops, op ≠ .complete k) (hk : l.held.get? k = some h)
    (hleaving : h.isLeaving = true) :
    ∃ h', (l.run ops).held.get? k = some h' ∧ h'.isLeaving = true ∧
      ∀ task, h.assignment = .released task → h' = h := by
  induction ops generalizing l h with
  | nil => exact ⟨h, hk, hleaving, fun _ _ => rfl⟩
  | cons op ops ih =>
      have hrest : ∀ op ∈ ops, op ≠ .complete k := fun o ho => hops o (List.mem_cons_of_mem _ ho)
      obtain ⟨h₁, hk₁, hcontinues⟩ := keeps_after (hops op List.mem_cons_self) h hk
      rcases hcontinues with rfl | hmoves
      · exact ih hrest hk₁ hleaving
      · obtain ⟨h', hk', hleaving', -⟩ := ih hrest hk₁ (hmoves.isLeaving hleaving)
        refine ⟨h', hk', hleaving', fun task hreleased => ?_⟩
        exact absurd (hreleased ▸ hmoves) Assignment.not_moves_released

/-! ## Lifecycles -/

/-- What happens to requests and containers from one ledger to the next. -/
structure Advances (l l' : Ledger) : Prop where
  /-- A live request stays in its state or comes further. -/
  state : ∀ c s s', l.state? c = some s → l'.state? c = some s' → s.rank ≤ s'.rank
  /-- The container that it has is the one it keeps. -/
  container : ∀ c k, l.containerOf? c = some k → l'.state? c ≠ none →
    l'.containerOf? c = some k
  /-- A container stays as it was or its use changes in one of the allowed ways. -/
  holding : ∀ k h h', l.holding? k = some h → l'.holding? k = some h' → h.Continues h'

theorem Forward.state_le (h : l.Forward l') {c : Cookie} {s s' : RequestState}
    (hs : l.state? c = some s) (hs' : l'.state? c = some s') : s.rank ≤ s'.rank := by
  rw [state?_eq] at hs hs'
  obtain ⟨p, hp, rfl⟩ := Option.map_eq_some_iff.mp hs
  obtain ⟨p', hp', rfl⟩ := Option.map_eq_some_iff.mp hs'
  exact (h.phases c p p' hp hp').rank_le

theorem Forward.containerOf? (h : l.Forward l') {c : Cookie} {k : ContainerId}
    (hk : l.containerOf? c = some k) (hlive : l'.state? c ≠ none) :
    l'.containerOf? c = some k := by
  rw [containerOf?_eq] at hk
  obtain ⟨p, hp, hk⟩ := Option.bind_eq_some_iff.mp hk
  rw [state?_eq] at hlive
  cases hp' : l'.phase? c with
  | none => exact absurd (by rw [hp', Option.map_none]) hlive
  | some p' =>
      rw [containerOf?_eq, hp', Option.bind_some]
      exact (h.phases c p p' hp hp').container k hk

theorem Coherent.advances_after (hl : l.Coherent) (op : Operation)
    (hnext : op.isAdd = true → l.HasCookies) : l.Advances (l.after op) where
  state _ _ _ hs hs' := (hl.forward_after op hnext).state_le hs hs'
  container _ _ hk hlive := (hl.forward_after op hnext).containerOf? hk hlive
  holding _ _ _ hk hk' := continues_after hk hk'

/-- Whatever was asked of a ledger before, every operation moves the lifecycles of
requests and containers forward, and so does every run of them.  The container that a
request comes to have is its own to the end.  A container on its way out stays there, once
given back without any change, until an operation completes it. -/
theorem lifecycles_forward (ops : List Operation) (op : Operation) (later : List Operation)
    (hadds : (ops ++ op :: later).countP Operation.isAdd < 2 ^ 64 - 1) :
    (empty.run ops).Advances ((empty.run ops).after op) ∧
    (∀ c s s', (empty.run ops).state? c = some s →
      (empty.run (ops ++ op :: later)).state? c = some s' → s.rank ≤ s'.rank) ∧
    (∀ c k, (empty.run ops).containerOf? c = some k →
      (empty.run (ops ++ op :: later)).state? c ≠ none →
      (empty.run (ops ++ op :: later)).containerOf? c = some k) ∧
    ∀ k h, (empty.run ops).holding? k = some h → h.isLeaving = true →
      (∀ o ∈ op :: later, o ≠ .complete k) →
      ∃ h', (empty.run (ops ++ op :: later)).holding? k = some h' ∧ h'.isLeaving = true ∧
        ∀ task, h.assignment = .released task → h' = h := by
  have hrest := countP_run (cookies_of_empty hadds)
  have hl : (empty.run ops).Coherent := by
    refine coherent_run ops ?_
    rw [List.countP_append] at hadds
    omega
  have hforward := hl.forward_run (op :: later) hrest
  rw [run_append]
  refine ⟨hl.advances_after op (hasCookies_of_countP hrest).1, ?_, ?_, ?_⟩
  · intro c s s' hs hs'
    exact hforward.state_le hs hs'
  · intro c k hk hlive
    exact hforward.containerOf? hk hlive
  · intro k h hk hleaving hops
    exact leaving_run hops hk hleaving

/-- Two requests use one container in turn.  The second is made to give it up and then does,
and the container is given back. -/
theorem lifecycles_forward_handover :
    let request : TaskRequest := ⟨⟨7⟩, ⟨1024, 1⟩, ⟨5⟩, ⟨[], [], true⟩, ⟨0, ⟨⟨1024, 1⟩, .empty, .empty⟩⟩⟩
    let container : Container := ⟨⟨"c_1"⟩, ⟨"host1", 8041⟩, none, ⟨1024, 1⟩, ⟨5⟩, none, none⟩
    let ops : List Operation := [.add request, .markRequested ⟨1⟩ (request.tiers ⟨1⟩),
      .allocate .epoch ⟨1⟩ container, .add request, .remove .epoch ⟨1⟩,
      .assignIdle .epoch ⟨2⟩ ⟨"c_1"⟩]
    let op : Operation := .beginRelease ⟨"c_1"⟩
    let later : List Operation := [.remove .epoch ⟨2⟩, .assignIdle .epoch ⟨2⟩ ⟨"c_1"⟩]
    (empty.run ops).Advances ((empty.run ops).after op) ∧
      ((empty.run ops).state? ⟨2⟩ = some .allocated ∧
        ((empty.run ops).after op).state? ⟨2⟩ = some .releasing) ∧
      ((empty.run (ops ++ [op])).holding? ⟨"c_1"⟩).map Holding.isLeaving = some true ∧
      ((empty.run (ops ++ op :: later)).holding? ⟨"c_1"⟩).map Holding.isLeaving = some true := by
  intro request container ops op later
  exact ⟨(lifecycles_forward ops op later (by decide)).1, by decide, by decide, by decide⟩

end Ledger

end TaskFleet
