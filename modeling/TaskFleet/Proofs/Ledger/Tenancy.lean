import TaskFleet.Proofs.Ledger.History
import TaskFleet.Proofs.Ledger.Lifecycle

/-!
# Whose task a completion reports

A completed container is reported with a task and a cookie.  The task is kept in three places,
the request on record, the last task of the holding, and the use that a container was given
back from, and six operations write them.

What the report should say is read off the run alone: `LastHanded` is the request to which the
container was handed last since it is held, and `GaveBack` the use from which it was given
back.  Between the handing and the completion, the container belongs to that request or to
nobody (`Occupied`).  One operation that hands the container to nobody keeps this
(`Occupied.after`), and so does all that is done during the `Stay` (`Occupied.run`).  What such
an operation may do to the container at all is one of four things (`Change`).

Behind it is that the last task of a container in use is the task of its owner
(`Attributed`).  Nothing checks this when a request that is made to leave is removed: the
container is then noted with the task of the request, and it is the agreement of the two
tables that makes it the task of the holding too.
-/

namespace TaskFleet

/-- As long as a container is handed to nobody, it stays with its owner or is left by it, and if
it is given back, the last task of the owner that it had is noted. -/
structure Holding.StaysWith (old new : Holding) : Prop where
  lastTask : new.lastTask = old.lastTask
  owner : new.assignment.owner? = old.assignment.owner? ∨ new.assignment.owner? = none
  released : ∀ task, new.assignment = .released task → old.assignment = .released task ∨
    task = old.assignment.owner?.map fun _ => old.lastTask

theorem Holding.StaysWith.refl (h : Holding) : h.StaysWith h :=
  ⟨rfl, .inl rfl, fun _ h => .inl h⟩

namespace Ledger

variable {l l' : Ledger} {c : Cookie} {k id : ContainerId} {request : TaskRequest}
  {op : Operation} {ops since : List Operation} {start : Ledger}

/-! ## The past of a holding -/

/-- The container that an operation hands to a request. -/
def handed? (l : Ledger) : Operation → Option (ContainerId × Cookie)
  | .allocate now cookie container =>
    (l.allocate now cookie container).1.toOption.map fun _ => (container.id, cookie)
  | .assignIdle now cookie id =>
    (l.assignIdle now cookie id).1.toOption.map fun _ => (id, cookie)
  | _ => none

/-- The container is handed to nobody, and does not complete. -/
def Unhanded (l : Ledger) (k : ContainerId) : List Operation → Prop
  | [] => True
  | op :: ops => op ≠ .complete k ∧ (∀ c, l.handed? op ≠ some (k, c)) ∧ (l.after op).Unhanded k ops

/-- The container was handed to the request under the cookie, last of all since it is held.
The handing left the ledger `start`, and `since` is what was done after it. -/
def LastHanded (l : Ledger) (ops : List Operation) (k : ContainerId) (c : Cookie)
    (start : Ledger) (since : List Operation) : Prop :=
  ∃ earlier op, ops = earlier ++ op :: since ∧ (l.run earlier).handed? op = some (k, c) ∧
    (l.run earlier).after op = start ∧ start.Unhanded k since

/-- At some time in the run the container was in use for this and was given back. -/
def GaveBack (l : Ledger) (ops : List Operation) (k : ContainerId) (use : Assignment) : Prop :=
  ∃ earlier op later task, ops = earlier ++ op :: later ∧
    (l.run earlier).assignment? k = some use ∧ (∀ task, use ≠ .released task) ∧
    ((l.run earlier).after op).assignment? k = some (.released task)

theorem unhanded_append {later : List Operation} :
    l.Unhanded k (ops ++ later) ↔ l.Unhanded k ops ∧ (l.run ops).Unhanded k later := by
  induction ops generalizing l with
  | nil => exact (and_iff_right trivial).symm
  | cons op ops ih =>
      simp only [List.cons_append, Unhanded, ih, and_assoc]
      rfl

theorem Unhanded.ne_complete (h : l.Unhanded k ops) : ∀ op ∈ ops, op ≠ .complete k := by
  induction ops generalizing l with
  | nil => exact fun op hop => absurd hop List.not_mem_nil
  | cons op ops ih =>
      intro op' hop'
      rcases List.mem_cons.mp hop' with rfl | hop'
      · exact h.1
      · exact ih h.2.2 op' hop'

/-! ## What becomes of a container that is handed to nobody -/

/-- The ways in which an operation changes a held container that it hands to nobody. -/
inductive Change (l : Ledger) (k : ContainerId) (old : Holding) : Holding → Prop
  | stays : Change l k old old
  /-- The request that names the container is removed. -/
  | vacated {cookie : Cookie} {entry : Entry} (hentry : l.entries.get? cookie = some entry)
      (hcontainer : entry.phase.container? = some k) (now : Instant) :
      Change l k old { old with assignment := vacate now entry.request.task old.assignment }
  | announced {cookie : Cookie} (hactive : old.assignment = .active cookie) :
      Change l k old { old with assignment := .beingReleased cookie }
  | givenBack : Change l k old
      { old with assignment := .released (old.assignment.owner?.map fun _ => old.lastTask) }

/-- Nothing is changed but the use. -/
theorem Change.eq_of_assignment {old new : Holding} (h : l.Change k old new) :
    new = { old with assignment := new.assignment } := by
  cases h <;> rfl

/-- The owner stays or leaves. -/
theorem Change.owner {old new : Holding} (h : l.Change k old new) :
    new.assignment.owner? = old.assignment.owner? ∨ new.assignment.owner? = none := by
  cases h with
  | stays => exact .inl rfl
  | vacated => exact .inr (owner?_vacate ..)
  | announced hactive =>
      left
      rw [hactive]
      rfl
  | givenBack => exact .inr rfl

/-- A container that an operation leaves held and hands to nobody was held before. -/
theorem change_after (hunhanded : ∀ c, l.handed? op ≠ some (k, c)) {new : Holding}
    (hnew : (l.after op).held.get? k = some new) :
    ∃ old, l.held.get? k = some old ∧ l.Change k old new := by
  have hsame : l.held.get? k = some new → ∃ old, l.held.get? k = some old ∧ l.Change k old new :=
    fun hold => ⟨new, hold, .stays⟩
  refine of_goes (P := fun l' => l'.held.get? k = some new →
    ∃ old, l.held.get? k = some old ∧ l.Change k old new) hsame (fun l' h hheld => ?_) hnew
  cases h with
  | add request => exact hsame hheld
  | markRequested h =>
      rw [held_markRequested h] at hheld
      exact hsame hheld
  | @remove now cookie _ _ h =>
      obtain ⟨entry, hentry, -, -, -, -, hheld'⟩ := remove_ok h
      rw [hheld'] at hheld
      split at hheld
      · next hcontainer =>
        obtain ⟨old, hold, rfl⟩ := Option.map_eq_some_iff.mp hheld
        exact ⟨old, hold, .vacated hentry hcontainer now⟩
      · exact hsame hheld
  | @allocate now cookie container _ _ h =>
      have hne : k ≠ container.id := by
        rintro rfl
        exact hunhanded cookie (by simp [handed?, h, Except.toOption])
      obtain ⟨entry, -, -, -, -, rfl⟩ := allocate_ok h
      rw [SortedMap.get?_insert_ne _ _ hne] at hheld
      exact hsame hheld
  | @assignIdle now cookie id _ _ _ h =>
      have hne : k ≠ id := by
        rintro rfl
        exact hunhanded cookie (by simp [handed?, h, Except.toOption])
      obtain ⟨entry, held, -, -, -, -, -, -, rfl⟩ := assignIdle_ok h
      rw [SortedMap.get?_insert_ne _ _ hne] at hheld
      exact hsame hheld
  | beginRelease h =>
      obtain ⟨held, hold, hactive, rfl⟩ := beginRelease_ok h
      exact SortedMap.related_of_get?_insert hold hheld (.announced hactive) fun _ => .stays
  | release h =>
      obtain ⟨held, hold, -, htask, -, hheld', -⟩ := release_ok h
      rw [hheld'] at hheld
      exact SortedMap.related_of_get?_insert hold hheld (htask ▸ .givenBack) fun _ => .stays
  | complete h =>
      obtain ⟨held, -, -, -, -, hheld', -⟩ := complete_ok h
      rw [hheld', SortedMap.get?_erase] at hheld
      split at hheld
      · cases hheld
      · exact hsame hheld

/-- The two tables agree, and the last task of a container in use is the task of the request
that owns it. -/
structure Attributed (l : Ledger) : Prop where
  coherent : l.Coherent
  lastTask : ∀ k h c, l.held.get? k = some h → h.assignment.owner? = some c →
    ∃ request, l.request? c = some request ∧ h.lastTask = request.task

/-- When a request is removed that was made to leave, its task is the last one of the
container. -/
theorem Attributed.staysWith (hl : l.Attributed) {old new : Holding}
    (hold : l.held.get? k = some old) (h : l.Change k old new) : old.StaysWith new := by
  refine ⟨?_, h.owner, fun task hreleased => ?_⟩
  · rw [h.eq_of_assignment]
  · cases h with
    | stays => exact .inl hreleased
    | @vacated cookie entry hentry hcontainer now =>
        right
        have howner : old.assignment.owner? = some cookie := by
          rw [← ownerOf?_of_get? hold, ← hl.coherent.containerOf?_eq_iff, containerOf?_eq,
            phase?_of_get? hentry]
          exact hcontainer
        obtain ⟨request, hrequest, htask⟩ := hl.lastTask k old cookie hold howner
        have hsame : request = entry.request := by
          rw [request?, hentry, Option.map_some] at hrequest
          exact (Option.some.inj hrequest).symm
        cases hassignment : old.assignment with
        | active c' =>
            rw [hassignment] at hreleased
            cases hreleased
        | beingReleased c' =>
            rw [hassignment] at hreleased
            cases hreleased
            rw [htask, hsame]
            rfl
        | idle since =>
            rw [hassignment] at howner
            cases howner
        | released task' =>
            rw [hassignment] at howner
            cases howner
    | announced => cases hreleased
    | givenBack =>
        cases hreleased
        exact .inr rfl

/-- A container that an operation leaves held and hands to nobody was held before. -/
theorem Attributed.staysWith_after (hl : l.Attributed)
    (hunhanded : ∀ c, l.handed? op ≠ some (k, c)) {new : Holding}
    (hnew : (l.after op).held.get? k = some new) :
    ∃ old, l.held.get? k = some old ∧ old.StaysWith new := by
  obtain ⟨old, hold, hchange⟩ := change_after hunhanded hnew
  exact ⟨old, hold, hl.staysWith hold hchange⟩

theorem handed_cases (h : l.handed? op = some (k, c)) :
    (∃ now container l' previous, op = .allocate now c container ∧ container.id = k ∧
      l.allocate now c container = (.ok previous, l')) ∨
    ∃ now l' container previous, op = .assignIdle now c k ∧
      l.assignIdle now c k = (.ok (container, previous), l') := by
  cases op with
  | allocate now cookie container =>
      rcases hanswer : l.allocate now cookie container with ⟨cause | previous, l'⟩
      · simp [handed?, hanswer, Except.toOption] at h
      · obtain ⟨hid, rfl⟩ : container.id = k ∧ cookie = c := by
          simpa [handed?, hanswer, Except.toOption] using h
        exact .inl ⟨now, container, l', previous, rfl, hid, hanswer⟩
  | assignIdle now cookie id =>
      rcases hanswer : l.assignIdle now cookie id with ⟨cause | ⟨container, previous⟩, l'⟩
      · simp [handed?, hanswer, Except.toOption] at h
      · obtain ⟨rfl, rfl⟩ : id = k ∧ cookie = c := by
          simpa [handed?, hanswer, Except.toOption] using h
        exact .inr ⟨now, l', container, previous, rfl, hanswer⟩
  | _ => cases h

/-- A container that is handed to a request runs it, and its last task is that of the
request. -/
theorem handed_spec (h : l.handed? op = some (k, c)) :
    ∃ held request, (l.after op).held.get? k = some held ∧ held.assignment = .active c ∧
      (l.after op).request? c = some request ∧ held.lastTask = request.task := by
  rcases handed_cases h with ⟨now, container, l', previous, rfl, rfl, hanswer⟩ |
    ⟨now, l', container, previous, rfl, hanswer⟩
  · rw [after_allocate hanswer]
    obtain ⟨entry, -, -, -, -, rfl⟩ := allocate_ok hanswer
    refine ⟨_, entry.request, SortedMap.get?_insert_self .., rfl, ?_, rfl⟩
    simp [request?]
  · rw [after_assignIdle hanswer]
    obtain ⟨entry, held, -, -, -, -, -, -, rfl⟩ := assignIdle_ok hanswer
    refine ⟨_, entry.request, SortedMap.get?_insert_self .., rfl, ?_, rfl⟩
    simp [request?]

theorem request?_eq_none_iff : l.request? c = none ↔ l.phase? c = none := by
  simp [request?, phase?]

/-- A request that is live before and after an operation is the same one. -/
theorem Coherent.request?_after_live (hl : l.Coherent) (hbefore : l.request? c = some request)
    (hafter : (l.after op).request? c ≠ none) : (l.after op).request? c = some request := by
  cases hop : op.isAdd with
  | false =>
      rw [request?_after hop] at hafter ⊢
      split at hafter
      · exact absurd rfl hafter
      · next hends => rw [if_neg hends, hbefore]
  | true =>
      obtain ⟨added, rfl⟩ : ∃ added, op = .add added := by
        cases op <;> first | exact ⟨_, rfl⟩ | cases hop
      have hne : c ≠ ⟨l.nextCookie⟩ := by
        rintro rfl
        have hfresh := hl.phase?_nextCookie
        exact request?_ne_none_iff.mp (hbefore ▸ Option.some_ne_none _) hfresh
      show (l.add added).2.request? c = some request
      rw [request?_add, if_neg hne, hbefore]

theorem Attributed.after (hl : l.Attributed) (hnext : op.isAdd = true → l.HasCookies) :
    (l.after op).Attributed := by
  have hl' := hl.coherent.after op hnext
  refine ⟨hl', ?_⟩
  intro k new c hnew howner
  by_cases hhanded : ∃ c', l.handed? op = some (k, c')
  · obtain ⟨c', hhanded⟩ := hhanded
    obtain ⟨held, request, hheld, hactive, hrequest, htask⟩ := handed_spec hhanded
    rw [hnew] at hheld
    cases hheld
    rw [hactive] at howner
    cases howner
    exact ⟨request, hrequest, htask⟩
  · obtain ⟨old, hold, hstays⟩ := hl.staysWith_after (not_exists.mp hhanded) hnew
    have holdOwner : old.assignment.owner? = some c := by
      rcases hstays.owner with hsame | hnobody
      · rw [← hsame, howner]
      · rw [hnobody] at howner
        cases howner
    obtain ⟨request, hrequest, htask⟩ := hl.lastTask k old c hold holdOwner
    -- the owner is live still, since the container names it
    have hlive := hl'.phase?_of_ownerOf? (c := c) (ownerOf?_of_get? hnew ▸ howner)
    refine ⟨request, ?_, hstays.lastTask.trans htask⟩
    exact hl.coherent.request?_after_live hrequest (request?_ne_none_iff.mpr hlive)

theorem attributed_empty : empty.Attributed := by
  refine ⟨coherent_empty, ?_⟩
  intro k h c hk
  cases hk

theorem Attributed.run (hl : l.Attributed) (ops : List Operation)
    (hadds : l.nextCookie.toNat + ops.countP Operation.isAdd < 2 ^ 64) :
    (l.run ops).Attributed := by
  induction ops generalizing l with
  | nil => exact hl
  | cons op ops ih =>
      obtain ⟨hnext, hrest⟩ := hasCookies_of_countP hadds
      exact ih (hl.after hnext) hrest

/-! ## Between a handing and a completion -/

/-- The container is held, with the task of this request as its last.  The request owns it, or
has ended and nobody owns it. -/
structure Occupied (l : Ledger) (k : ContainerId) (c : Cookie) (request : TaskRequest) :
    Prop where
  issued : c.val.toNat < l.nextCookie.toNat
  held : ∃ h, l.held.get? k = some h ∧ h.lastTask = request.task ∧
    (h.assignment.owner? = some c ∧ l.request? c = some request ∨
      h.assignment.owner? = none ∧ l.request? c = none)

theorem occupied_handed (hl : (l.after op).Coherent) (h : l.handed? op = some (k, c)) :
    ∃ request, (l.after op).request? c = some request ∧ (l.after op).ownerOf? k = some c ∧
      (l.after op).Occupied k c request := by
  obtain ⟨held, request, hheld, hactive, hrequest, htask⟩ := handed_spec h
  have howner : held.assignment.owner? = some c := by
    rw [hactive]
    rfl
  have hlive := request?_ne_none_iff.mp (hrequest ▸ Option.some_ne_none request)
  exact ⟨request, hrequest, ownerOf?_of_get? hheld ▸ howner, (hl.issued c hlive).2, held,
    hheld, htask, .inl ⟨howner, hrequest⟩⟩

theorem Occupied.after (ho : l.Occupied k c request) (hl : l.Attributed)
    (hnext : op.isAdd = true → l.HasCookies) (hop : op ≠ .complete k)
    (hunhanded : ∀ c, l.handed? op ≠ some (k, c)) : (l.after op).Occupied k c request := by
  obtain ⟨hissued, old, hold, htask, howns⟩ := ho
  have hforward := hl.coherent.forward_after op hnext
  have hl' := hl.coherent.after op hnext
  obtain ⟨new, hnew, -⟩ := keeps_after hop old hold
  obtain ⟨old', hold', hstays⟩ := hl.staysWith_after hunhanded hnew
  rw [hold] at hold'
  cases hold'
  refine ⟨Nat.lt_of_lt_of_le hissued hforward.counter, new, hnew,
    hstays.lastTask.trans htask, ?_⟩
  rcases howns with ⟨howner, hrequest⟩ | ⟨hnobody, hgone⟩
  · rcases hstays.owner with hsame | hleft
    · left
      rw [howner] at hsame
      have hlive := hl'.phase?_of_ownerOf? (c := c) (ownerOf?_of_get? hnew ▸ hsame)
      exact ⟨hsame, hl.coherent.request?_after_live hrequest (request?_ne_none_iff.mpr hlive)⟩
    · right
      refine ⟨hleft, Classical.byContradiction fun hlive => ?_⟩
      -- a request that goes on keeps its container, and this one is nobody's
      have hnamed := (hl.coherent.containerOf?_eq_iff c k).mpr (ownerOf?_of_get? hold ▸ howner)
      have hstate : (l.after op).state? c ≠ none := by
        rw [state?_eq]
        simpa using request?_ne_none_iff.mp hlive
      have hkept := (hl'.containerOf?_eq_iff c k).mp (hforward.containerOf? hnamed hstate)
      rw [ownerOf?_of_get? hnew, hleft] at hkept
      cases hkept
  · right
    have hleft : new.assignment.owner? = none := by
      rcases hstays.owner with hsame | hleft
      · rw [hsame, hnobody]
      · exact hleft
    exact ⟨hleft, request?_eq_none_iff.mpr
      (hforward.retired c hissued (request?_eq_none_iff.mp hgone))⟩

theorem Occupied.run (ho : l.Occupied k c request) (hl : l.Attributed) (hops : l.Unhanded k ops)
    (hadds : l.nextCookie.toNat + ops.countP Operation.isAdd < 2 ^ 64) :
    (l.run ops).Occupied k c request := by
  induction ops generalizing l with
  | nil => exact ho
  | cons op ops ih =>
      obtain ⟨hop, hunhanded, hrest⟩ := hops
      obtain ⟨hnext, hlater⟩ := hasCookies_of_countP hadds
      exact ih (ho.after hl hnext hop hunhanded) (hl.after hnext) hrest hlater

/-- The container was just handed to the request in `start`, and while `since` is done it is
handed to nobody and does not complete. -/
structure Stay (start : Ledger) (k : ContainerId) (c : Cookie) (request : TaskRequest)
    (since : List Operation) : Prop where
  attributed : start.Attributed
  occupied : start.Occupied k c request
  owned : start.ownerOf? k = some c
  unhanded : start.Unhanded k since
  cookies : start.nextCookie.toNat + since.countP Operation.isAdd < 2 ^ 64

theorem LastHanded.stay (hlast : l.LastHanded ops k c start since) (hl : l.Attributed)
    (hadds : l.nextCookie.toNat + ops.countP Operation.isAdd < 2 ^ 64) :
    ∃ request, start.lookup c = .ok request ∧ start.Stay k c request since := by
  obtain ⟨earlier, op, rfl, hhanded, rfl, hsince⟩ := hlast
  have hmoment := countP_run hadds
  have hearlier : l.nextCookie.toNat + earlier.countP Operation.isAdd < 2 ^ 64 := by
    rw [List.countP_append] at hadds
    omega
  obtain ⟨hnext, hrest⟩ := hasCookies_of_countP hmoment
  have hstart := (hl.run earlier hearlier).after hnext
  obtain ⟨request, hrequest, howned, ho⟩ := occupied_handed hstart.coherent hhanded
  exact ⟨request, lookup_eq_ok_iff.mpr hrequest, hstart, ho, howned, hsince, hrest⟩

/-- A container that is held now, and was not at first, was handed to somebody since. -/
theorem lastHanded_or_unhanded {new : Holding} (hnew : (l.run ops).held.get? k = some new) :
    (∃ c start since, l.LastHanded ops k c start since) ∨
      (∃ old, l.held.get? k = some old) ∧ l.Unhanded k ops := by
  induction ops generalizing l with
  | nil => exact .inr ⟨⟨new, hnew⟩, trivial⟩
  | cons op ops ih =>
      rcases ih hnew with
        ⟨c, start, since, earlier, op', hops, hhanded, hstart, hsince⟩ | ⟨⟨held, hheld⟩, hrest⟩
      · left
        exact ⟨c, start, since, op :: earlier, op', by rw [hops, List.cons_append], hhanded,
          hstart, hsince⟩
      · by_cases hhanded : ∃ c, l.handed? op = some (k, c)
        · obtain ⟨c, hhanded⟩ := hhanded
          exact .inl ⟨c, l.after op, ops, [], op, rfl, hhanded, rfl, hrest⟩
        · right
          have hop : op ≠ .complete k := by
            rintro rfl
            rw [get?_after_complete] at hheld
            cases hheld
          obtain ⟨old, hold, -⟩ := change_after (not_exists.mp hhanded) hheld
          exact ⟨⟨old, hold⟩, hop, not_exists.mp hhanded, hrest⟩

/-! ## When the container was given back -/

/-- What is noted when the container is given back, and stays so. -/
theorem Stay.assignment?_of_gaveBack (h : start.Stay k c request since) {use : Assignment}
    (hgave : start.GaveBack since k use) :
    (start.run since).assignment? k =
      some (.released (use.owner?.map fun _ => request.task)) := by
  obtain ⟨earlier, op, later, task, rfl, huse, hfree, hreleased⟩ := hgave
  obtain ⟨hbefore, -, hunhanded, hlater⟩ := unhanded_append.mp h.unhanded
  have hadds : start.nextCookie.toNat + earlier.countP Operation.isAdd < 2 ^ 64 := by
    have hall := h.cookies
    rw [List.countP_append] at hall
    omega
  obtain ⟨-, old, hold, htask, -⟩ := h.occupied.run h.attributed hbefore hadds
  obtain ⟨new, hnew, hnoted⟩ := Option.map_eq_some_iff.mp hreleased
  obtain ⟨old', hold', hstays⟩ :=
    (h.attributed.run earlier hadds).staysWith_after hunhanded hnew
  rw [hold] at hold'
  cases hold'
  have hsame : old.assignment = use := by
    rw [assignment?_of_get? hold] at huse
    exact Option.some.inj huse
  -- what was noted is the task of whoever had the container, and nothing changes it again
  have hvalue : task = use.owner?.map fun _ => request.task := by
    rcases hstays.released task hnoted with hearly | hvalue
    · exact absurd (hsame ▸ hearly) (hfree task)
    · rw [hvalue, hsame, htask]
  have hleaving : new.isLeaving = true := by
    rw [Holding.isLeaving, hnoted]
    rfl
  obtain ⟨final, hfinal, -, hkept⟩ := leaving_run hlater.ne_complete hnew hleaving
  rw [run_append]
  show (((start.run earlier).after op).run later).assignment? k = _
  rw [assignment?_of_get? hfinal, hkept task hnoted, hnoted, hvalue]

/-- A container that was given back was given back at some time. -/
theorem exists_gaveBack {use : Assignment} {task : Option TaskId}
    (huse : l.assignment? k = some use) (hfree : ∀ task, use ≠ .released task)
    (hops : ∀ op ∈ ops, op ≠ .complete k)
    (hreleased : (l.run ops).assignment? k = some (.released task)) :
    ∃ use', l.GaveBack ops k use' := by
  induction ops generalizing l use with
  | nil => exact absurd (Option.some.inj (huse.symm.trans hreleased)) (hfree task)
  | cons op ops ih =>
      obtain ⟨held, hheld, rfl⟩ := Option.map_eq_some_iff.mp huse
      obtain ⟨next, hnext, -⟩ := keeps_after (hops op List.mem_cons_self) held hheld
      by_cases hnow : ∃ task, next.assignment = .released task
      · obtain ⟨task', hnow⟩ := hnow
        refine ⟨held.assignment, [], op, ops, task', rfl, huse, hfree, ?_⟩
        show (l.after op).assignment? k = _
        rw [assignment?_of_get? hnext, hnow]
      · obtain ⟨use', earlier, op', later, task', hsplit, hbefore, hfree', hafter⟩ :=
          ih (assignment?_of_get? hnext) (not_exists.mp hnow)
            (fun o ho => hops o (List.mem_cons_of_mem _ ho)) hreleased
        exact ⟨use', op :: earlier, op', later, task', by rw [hsplit, List.cons_append],
          hbefore, hfree', hafter⟩

/-! ## What is reported -/

/-- The container was idle when it completed, or when it was given back before. -/
def LeftIdle (start : Ledger) (since : List Operation) (k : ContainerId) : Prop :=
  (∃ time, (start.run since).assignment? k = some (.idle time)) ∨
    ∃ time, start.GaveBack since k (.idle time)

/-- What a completion leads to that ends in `l'` and answers `done`, of a container that was
handed last to the request under `c` and was idle at its end or not. -/
structure Settles (l l' : Ledger) (c : Cookie) (request : TaskRequest) (leftIdle : Prop)
    (done : CompletedContainer) : Prop where
  idle : leftIdle → done.task = none
  used : ¬ leftIdle → done.task = some request.task
  live : l.state? c ≠ none → done.cookie = some c ∧ l'.classify c = .retired
  ended : l.state? c = none → done.cookie = none

/-- A completion reports the task of the owner, what was noted when the container was given
back, or nothing of an idle container. -/
theorem task_complete {done : CompletedContainer} {h : Holding} (hheld : l.held.get? k = some h)
    (hdone : l.complete k = (.ok done, l')) :
    (∀ request, h.assignment.owner? = some c → l.request? c = some request →
      done.task = some request.task) ∧
    (∀ task, h.assignment = .released task → done.task = task) ∧
    ∀ since, h.assignment = .idle since → done.task = none := by
  unfold complete at hdone
  rw [hheld] at hdone
  dsimp only at hdone
  split at hdone
  case h_1 cookie hactive | h_2 cookie hactive =>
    cases hdone
    refine ⟨fun request howner hrequest => ?_, by simp [hactive], by simp [hactive]⟩
    rw [hactive] at howner
    cases howner
    obtain ⟨entry, hentry, rfl⟩ := Option.map_eq_some_iff.mp hrequest
    simp [hentry]
  case h_3 task hreleased =>
    cases hdone
    exact ⟨by simp [hreleased, Assignment.owner?], by simp [hreleased], by simp [hreleased]⟩
  case h_4 since hidle =>
    cases hdone
    exact ⟨by simp [hidle, Assignment.owner?], by simp [hidle], fun _ _ => rfl⟩

/-- A request that is on record until the completion of its container is retired by it. -/
theorem Coherent.classify_complete (hl : l.Coherent) {done : CompletedContainer}
    (hdone : l.complete k = (.ok done, l')) (howner : l.ownerOf? k = some c) :
    l'.classify c = .retired := by
  have hissued := hl.issued c (hl.phase?_of_ownerOf? howner)
  obtain ⟨held, -, -, -, hnext, -, -⟩ := complete_ok hdone
  have hgone : l'.request? c = none := by rw [request?_complete hdone, if_pos howner]
  rcases l'.classify_cases c with ⟨state, -, -, hlive⟩ | ⟨hretired, -⟩ | ⟨-, -, -, hnever⟩
  · exact absurd hgone hlive
  · exact hretired
  · exact absurd (hnext ▸ hissued) hnever

variable {done : CompletedContainer}

/-- Once the container was given back, the task is reported that was noted then. -/
theorem Stay.task_of_gaveBack (h : start.Stay k c request since)
    (hdone : (start.run since).complete k = (.ok done, l')) {use : Assignment}
    (hgave : start.GaveBack since k use) : done.task = use.owner?.map fun _ => request.task := by
  obtain ⟨final, hfinal, hnoted⟩ :=
    Option.map_eq_some_iff.mp (h.assignment?_of_gaveBack hgave)
  exact (task_complete (c := c) hfinal hdone).2.1 _ hnoted

theorem Stay.task_of_leftIdle (h : start.Stay k c request since)
    (hdone : (start.run since).complete k = (.ok done, l')) (hidle : start.LeftIdle since k) :
    done.task = none := by
  rcases hidle with ⟨time, hnow⟩ | ⟨time, hgave⟩
  · obtain ⟨final, hfinal, hidle⟩ := Option.map_eq_some_iff.mp hnow
    exact (task_complete (c := c) hfinal hdone).2.2 time hidle
  · exact h.task_of_gaveBack hdone hgave

theorem Stay.task_of_not_leftIdle (h : start.Stay k c request since)
    (hdone : (start.run since).complete k = (.ok done, l')) (hbusy : ¬ start.LeftIdle since k) :
    done.task = some request.task := by
  obtain ⟨-, final, hfinal, -, howns⟩ := h.occupied.run h.attributed h.unhanded h.cookies
  have hfinally := assignment?_of_get? hfinal
  rcases howns with ⟨howner, hrequest⟩ | ⟨hnobody, -⟩
  · exact (task_complete hfinal hdone).1 request howner hrequest
  · cases hassignment : final.assignment with
    | active c' | beingReleased c' =>
        rw [hassignment] at hnobody
        cases hnobody
    | idle time => exact absurd (.inl ⟨time, hassignment ▸ hfinally⟩) hbusy
    | released task =>
        obtain ⟨use, huse, howner⟩ := Option.bind_eq_some_iff.mp h.owned
        have hfree : ∀ task, use ≠ .released task := by
          rintro task rfl
          cases howner
        obtain ⟨use', hgave⟩ := exists_gaveBack huse hfree h.unhanded.ne_complete
          (hassignment ▸ hfinally)
        have hvalue := h.task_of_gaveBack hdone hgave
        cases use' with
        | active c' | beingReleased c' => exact hvalue
        | idle time => exact absurd (.inr ⟨time, hgave⟩) hbusy
        | released task' =>
            obtain ⟨_, _, _, _, -, -, hfree', -⟩ := hgave
            exact absurd rfl (hfree' task')

theorem Stay.settles (h : start.Stay k c request since)
    (hdone : (start.run since).complete k = (.ok done, l')) :
    (start.run since).Settles l' c request (start.LeftIdle since k) done := by
  have hl := h.attributed.run since h.cookies
  obtain ⟨-, final, hfinal, -, howns⟩ := h.occupied.run h.attributed h.unhanded h.cookies
  have hstate : (start.run since).state? c = none ↔ (start.run since).request? c = none := by
    simp [state?, request?]
  have hcookie : done.cookie = final.assignment.owner? := by
    obtain ⟨held, hheld, -, hcookie, -⟩ := complete_ok hdone
    rw [hfinal] at hheld
    cases hheld
    exact hcookie
  refine ⟨h.task_of_leftIdle hdone, h.task_of_not_leftIdle hdone, ?_, ?_⟩
  · intro hlive
    rcases howns with ⟨howner, -⟩ | ⟨-, hended⟩
    · refine ⟨hcookie.trans howner, hl.coherent.classify_complete hdone ?_⟩
      rw [ownerOf?_of_get? hfinal, howner]
    · exact absurd (hstate.mpr hended) hlive
  · intro hgone
    rcases howns with ⟨-, hrequest⟩ | ⟨hnobody, -⟩
    · rw [hstate.mp hgone] at hrequest
      cases hrequest
    · exact hcookie.trans hnobody

/-- The container that was given back reports at its completion what it was given back with. -/
theorem task_complete_of_release {later : List Operation} {l₁ : Ledger} {task : Option TaskId}
    (hrelease : l.release k = (.ok task, l₁)) (hlater : ∀ op ∈ later, op ≠ .complete k)
    (hdone : (l₁.run later).complete k = (.ok done, l')) : done.task = task := by
  have hreleased := assignment?_release hrelease k
  rw [if_pos rfl] at hreleased
  obtain ⟨h, hheld, hassignment⟩ := Option.map_eq_some_iff.mp hreleased
  have hleaving : h.isLeaving = true := by
    rw [Holding.isLeaving, hassignment]
    rfl
  obtain ⟨final, hfinal, -, hkept⟩ := leaving_run hlater hheld hleaving
  have hsame := hkept task hassignment
  exact (task_complete (c := ⟨0⟩) hfinal hdone).2.1 task (hsame ▸ hassignment)

/-- Whatever was asked of a ledger, a container that completes was handed to somebody while it
was held.  Of all such requests the last one counts.  Its task is reported, unless the container
was idle at its completion or when it was given back, and then no task is.  Its cookie is
reported and retired if the request is live, and otherwise no cookie is.  A container that was
given back is reported with the task that was answered then, and at all times the last task of a
container in use is the task of its owner. -/
theorem completions_attributed (ops : List Operation)
    (hadds : ops.countP Operation.isAdd < 2 ^ 64 - 1) :
    (∀ k l' done, (empty.run ops).complete k = (.ok done, l') →
      (∃ c start since, empty.LastHanded ops k c start since) ∧
      (∀ c start since, empty.LastHanded ops k c start since →
        ∃ request, start.lookup c = .ok request ∧
          (empty.run ops).Settles l' c request (start.LeftIdle since k) done) ∧
      ∀ earlier later l₁ task, ops = earlier ++ .release k :: later →
        (empty.run earlier).release k = (.ok task, l₁) →
        (∀ op ∈ later, op ≠ .complete k) → done.task = task) ∧
    ∀ k c, (empty.run ops).ownerOf? k = some c →
      ∃ h request, (empty.run ops).holding? k = some h ∧
        (empty.run ops).lookup c = .ok request ∧ h.lastTask = request.task := by
  have hall := cookies_of_empty hadds
  refine ⟨fun k l' done hdone => ⟨?_, fun c start since hlast => ?_, ?_⟩, fun k c howner => ?_⟩
  · obtain ⟨held, hheld, -⟩ := complete_ok hdone
    rcases lastHanded_or_unhanded hheld with hlast | ⟨⟨old, hold⟩, -⟩
    · exact hlast
    · cases hold
  · obtain ⟨request, hrequest, hstay⟩ := hlast.stay attributed_empty hall
    obtain ⟨earlier, op, rfl, -, rfl, -⟩ := hlast
    rw [run_append] at hdone ⊢
    exact ⟨request, hrequest, hstay.settles hdone⟩
  · rintro earlier later l₁ task rfl hrelease hlater
    have hafter : (empty.run earlier).after (.release k) = l₁ := by
      simp [after, perform, reply, hrelease]
    have hlast : (l₁.run later).complete k = (.ok done, l') := by
      rw [run_append] at hdone
      rw [← hafter]
      exact hdone
    exact task_complete_of_release hrelease hlater hlast
  · obtain ⟨use, huse, howns⟩ := Option.bind_eq_some_iff.mp howner
    obtain ⟨h, hheld, rfl⟩ := Option.map_eq_some_iff.mp huse
    obtain ⟨request, hrequest, htask⟩ :=
      (attributed_empty.run ops hall).lastTask k h c hheld howns
    exact ⟨h, request, hheld, lookup_eq_ok_iff.mpr hrequest, htask⟩

/-- Two requests use a container in turn.  The second runs in it when it is given back, and is
not found when it is to be removed. -/
theorem completions_attributed_handover :
    let request (n : UInt64) : TaskRequest :=
      ⟨⟨n⟩, ⟨1024, 1⟩, ⟨5⟩, ⟨[], [], true⟩, ⟨0, ⟨⟨1024, 1⟩, .empty, .empty⟩⟩⟩
    let container : Container := ⟨⟨"c_1"⟩, ⟨"host1", 8041⟩, none, ⟨1024, 1⟩, ⟨5⟩, none, none⟩
    let earlier : List Operation := [.add (request 7), .allocate .epoch ⟨1⟩ container,
      .remove .epoch ⟨1⟩, .add (request 8)]
    let hand : Operation := .assignIdle .epoch ⟨2⟩ ⟨"c_1"⟩
    let since : List Operation := [.release ⟨"c_1"⟩, .remove .epoch ⟨2⟩]
    let l := empty.run (earlier ++ hand :: since)
    let start := (empty.run earlier).after hand
    ∃ l' done, l.complete ⟨"c_1"⟩ = (.ok done, l') ∧
      empty.LastHanded (earlier ++ hand :: since) ⟨"c_1"⟩ ⟨2⟩ start since ∧
      l.Settles l' ⟨2⟩ (request 8) (start.LeftIdle since ⟨"c_1"⟩) done ∧
      done.task = some ⟨8⟩ ∧ done.cookie = none := by
  intro request container earlier hand since l start
  obtain ⟨hcompletes, -⟩ := completions_attributed (earlier ++ hand :: since) (by decide)
  obtain ⟨done, l', hdone⟩ : ∃ done l', l.complete ⟨"c_1"⟩ = (.ok done, l') := by
    have hheld : l.held.get? ⟨"c_1"⟩ ≠ none := by decide
    rcases hdone : l.complete ⟨"c_1"⟩ with ⟨cause | done, l'⟩
    · exact absurd (complete_error hdone) hheld
    · exact ⟨done, l', rfl⟩
  obtain ⟨-, hlast, hreleased⟩ := hcompletes ⟨"c_1"⟩ l' done hdone
  have hhanded : empty.LastHanded (earlier ++ hand :: since) ⟨"c_1"⟩ ⟨2⟩ start since :=
    ⟨earlier, hand, rfl, by decide, rfl, nofun, nofun, nofun, nofun, trivial⟩
  obtain ⟨request', hrequest, hsettles⟩ := hlast ⟨2⟩ start since hhanded
  have hsame : request' = request 8 := by
    have hlookup : start.request? ⟨2⟩ = some (request 8) := by decide
    exact Option.some.inj ((lookup_eq_ok_iff.mp hrequest).symm.trans hlookup)
  obtain ⟨l₁, hrelease⟩ : ∃ l₁,
      (empty.run (earlier ++ [hand])).release ⟨"c_1"⟩ = (.ok (some ⟨8⟩), l₁) := by
    have hanswer : ((empty.run (earlier ++ [hand])).release ⟨"c_1"⟩).1.toOption =
        some (some ⟨8⟩) := by decide
    rcases hrelease : (empty.run (earlier ++ [hand])).release ⟨"c_1"⟩ with ⟨cause | task, l₁⟩
    · rw [hrelease] at hanswer
      cases hanswer
    · rw [hrelease] at hanswer
      cases hanswer
      exact ⟨l₁, rfl⟩
  have hreport := hreleased (earlier ++ [hand]) [.remove .epoch ⟨2⟩] l₁ _ rfl hrelease
    (by simp)
  exact ⟨l', done, hdone, hhanded, hsame ▸ hsettles, hreport,
    hsettles.ended (by decide)⟩

end Ledger

end TaskFleet
