import TaskFleet.Proofs.Scheduler.Allocation
import TaskFleet.Proofs.Scheduler.Away

/-!
# What becomes of a container that was handed out

When a notice is refused, the scheduler acts on what the ledger says then, and in between it
may have changed its mind.  So it has to be known what can have become of a container since
it was handed out, or since it was announced that it is taken away.

Whose the container is can be read off the journal: it belongs to the last one to whom it
was handed (`Underway.holders`), and a request that is live still has what was handed to it
(`Underway.ownerOf?_of_allocated`).  Unless the task is done or the container completes, what
is decided about it from then on is little: it is announced that it is taken away, perhaps,
and it is given back once, perhaps (`Fate`).
-/

namespace TaskFleet

/-! ## Whose a container is -/

/-- The cookie to which an effect hands a container. -/
def Effect.handsTo? (k : ContainerId) : Effect → Option Cookie
  | .notify (.taskAllocated _ c container) => if container.id = k then some c else none
  | _ => none

/-- The cookies to which a container was handed, one after the other. -/
def holders (k : ContainerId) (es : List Effect) : List Cookie :=
  es.filterMap (Effect.handsTo? k)

theorem holders_append (k : ContainerId) (es fs : List Effect) :
    holders k (es ++ fs) = holders k es ++ holders k fs :=
  List.filterMap_append

theorem mem_holders_iff {k : ContainerId} {es : List Effect} {c : Cookie} :
    c ∈ holders k es ↔ ∃ task container, .notify (.taskAllocated task c container) ∈ es ∧
      container.id = k := by
  rw [holders, List.mem_filterMap]
  constructor
  · rintro ⟨e, he, hsome⟩
    unfold Effect.handsTo? at hsome
    split at hsome
    · split at hsome
      · next hk =>
        cases hsome
        exact ⟨_, _, he, hk⟩
      · cases hsome
    · cases hsome
  · rintro ⟨task, container, he, hk⟩
    exact ⟨_, he, if_pos hk⟩

/-- To hand a container out is one word about it. -/
theorem Effect.map_handsTo? (k : ContainerId) (e : Effect) :
    (e.handsTo? k).map (fun _ => Word.allocated) =
      (e.word? k).filter fun w => decide (w = .allocated) := by
  cases e with
  | call call =>
      cases call with
      | giveBack id => by_cases hk : id = k <;> simp [handsTo?, word?, hk, Option.filter]
      | _ => rfl
  | notify notice =>
      cases notice with
      | taskAllocated task c container =>
          by_cases hk : container.id = k <;> simp [handsTo?, word?, hk, Option.filter]
      | containerBeingReleased id =>
          by_cases hk : id = k <;> simp [handsTo?, word?, hk, Option.filter]
      | containerCompleted task status =>
          by_cases hk : status.container = k <;> simp [handsTo?, word?, hk, Option.filter]
      | _ => rfl

theorem map_holders (k : ContainerId) (es : List Effect) :
    (holders k es).map (fun _ => Word.allocated) =
      (words k es).filter fun w => decide (w = .allocated) := by
  rw [holders, words, List.map_filterMap, List.filter_filterMap]
  congr 1
  funext e
  exact e.map_handsTo? k

theorem holders_eq_nil_iff {k : ContainerId} {es : List Effect} :
    holders k es = [] ↔ .allocated ∉ words k es := by
  rw [← List.map_eq_nil_iff (f := fun _ => Word.allocated), map_holders, List.filter_eq_nil_iff]
  constructor
  · intro h hword
    exact h _ hword (decide_eq_true rfl)
  · intro h w hw hallocated
    exact h (of_decide_eq_true hallocated ▸ hw)

theorem length_holders_le (k : ContainerId) (es : List Effect) :
    (holders k es).length ≤ (words k es).length := by
  calc (holders k es).length
      = ((words k es).filter fun w => decide (w = .allocated)).length := by
        rw [← map_holders, List.length_map]
    _ ≤ (words k es).length := List.length_filter_le ..

/-- A container that belongs to a request is running or leaving. -/
theorem Ledger.stage_of_ownerOf? {l : Ledger} {k : ContainerId} {c : Cookie}
    (h : l.ownerOf? k = some c) : l.stage k = .running ∨ l.stage k = .leaving := by
  obtain ⟨a, ha, hc⟩ := Option.bind_eq_some_iff.mp h
  rw [stage_of_assignment? ha]
  cases a with
  | active c' => exact .inl rfl
  | beingReleased c' => exact .inr rfl
  | idle since => cases hc
  | released task => cases hc

theorem Passes.notMem_allocated {a b : Stage} {ws : List Word} (h : Passes a ws b)
    (ha : a = .running ∨ a = .leaving) : .allocated ∉ ws := by
  cases h with
  | grant => simp at ha
  | hand => simp at ha
  | _ => simp

/-- A request that names a container after a turn named it before, or the turn hands it the
container. -/
theorem Turns.container? {c : Cookie} {entry entry' : Option Entry} {es : List Effect}
    {new : Entry} {k : ContainerId} (h : Turns c entry es entry') (hnew : entry' = some new)
    (hk : new.phase.container? = some k) :
    (∃ old, entry = some old ∧ old.phase.container? = some k) ∨ c ∈ holders k es := by
  cases h with
  | stay => exact .inl ⟨new, hnew, hk⟩
  | ask request =>
      cases hnew
      cases hk
  | allocate request container hwaiting =>
      cases hnew
      refine .inr (mem_holders_iff.mpr ⟨request.task, container, ?_, Option.some.inj hk⟩)
      exact List.mem_append_right _ (.head _)
  | withdraw request hwaiting => cases hnew
  | lose request id =>
      cases hnew
      exact .inl ⟨_, rfl, hk⟩
  | finish hserved => cases hnew

namespace Scheduler

variable {policy : Policy} {s t u : Scheduler} {es : List Effect} {k : ContainerId} {c : Cookie}

/-- After a move a container belongs to whom it belonged before, or to whom it was handed. -/
theorem Move.holders (h : Move policy s es t) (hs : s.ledger.Coherent)
    (howner : t.ledger.ownerOf? k = some c) :
    s.ledger.ownerOf? k = some c ∧ holders k es = [] ∨ holders k es = [c] := by
  have hnamed := ((h.coherent hs).containerOf?_eq_iff c k).mpr howner
  obtain ⟨new, hnew, hk⟩ := Option.bind_eq_some_iff.mp hnamed
  have hpass := h.passes hs k
  have hcases : s.ledger.containerOf? c = some k ∨ c ∈ TaskFleet.holders k es := by
    rcases h.turns hs with ⟨request, -, -, rfl⟩ | ⟨-, hturns⟩
    · by_cases hc : c = ⟨s.ledger.nextCookie⟩
      · rw [hc, get?_enter] at hnew
        cases hnew
        cases hk
      · rw [s.get?_enter_of_ne request hc] at hnew
        exact .inl (Option.bind_eq_some_iff.mpr ⟨new, hnew, hk⟩)
    · rcases (hturns c).container? hnew hk with ⟨old, hold, hk⟩ | hhanded
      · exact .inl (Option.bind_eq_some_iff.mpr ⟨old, hold, hk⟩)
      · obtain ⟨task, container, he, hid⟩ := mem_holders_iff.mp hhanded
        exact .inr (mem_holders_iff.mpr ⟨task, container, (List.mem_filter.mp he).1, hid⟩)
  rcases hcases with hbefore | hhanded
  · have howner := (hs.containerOf?_eq_iff c k).mp hbefore
    have hsilent := hpass.notMem_allocated (Ledger.stage_of_ownerOf? howner)
    exact .inl ⟨howner, holders_eq_nil_iff.mpr hsilent⟩
  · -- a move hands a container out once at most
    have hlength : (TaskFleet.holders k es).length ≤ 1 :=
      Nat.le_trans (length_holders_le k es) hpass.length_le
    refine .inr ?_
    match hall : TaskFleet.holders k es, hlength with
    | [], _ => simp [hall] at hhanded
    | [c'], _ =>
        rw [hall, List.mem_singleton] at hhanded
        rw [hhanded]

/-- A container belongs to the last one to whom it was handed, if to anyone. -/
theorem Underway.holders (hs : Underway policy s) (howner : s.ledger.ownerOf? k = some c) :
    (holders k s.journal).getLast? = some c := by
  have hall := hs.induct (P := fun s => ∀ c, s.ledger.ownerOf? k = some c →
    (TaskFleet.holders k s.journal).getLast? = some c) ?_ ?_
  · exact hall c howner
  · intro c howner
    cases howner
  · intro s es t hs h ih c howner
    rw [h.journal, holders_append]
    rcases h.holders hs.coherent howner with ⟨hbefore, hnone⟩ | hhanded
    · rw [hnone, List.append_nil]
      exact ih c hbefore
    · rw [hhanded, List.getLast?_concat]

/-- As long as a container is not handed to anyone else, it belongs to nobody else. -/
theorem Underway.eq_of_ownerOf? (hs : Underway policy s) {task : TaskId} {container : Container}
    {before later : List Effect} {c' : Cookie}
    (h : s.journal = before ++ .notify (.taskAllocated task c container) :: later)
    (hlater : .allocated ∉ words container.id later)
    (howner : s.ledger.ownerOf? container.id = some c') : c' = c := by
  have hlast := hs.holders howner
  have hhanded : TaskFleet.holders container.id
      (.notify (.taskAllocated task c container) :: later) = [c] := by
    rw [← List.singleton_append, holders_append, holders_eq_nil_iff.mpr hlater]
    simp [TaskFleet.holders, Effect.handsTo?]
  rw [h, holders_append, hhanded, List.getLast?_concat] at hlast
  exact (Option.some.inj hlast).symm

/-- What was ever handed to a request that is live belongs to it. -/
theorem Underway.ownerOf?_of_allocated (hs : Underway policy s) {task : TaskId}
    {container : Container} (he : .notify (.taskAllocated task c container) ∈ s.journal)
    (hlive : s.ledger.entries.get? c ≠ none) : s.ledger.ownerOf? container.id = some c := by
  obtain ⟨entry, hentry⟩ := Option.ne_none_iff_exists'.mp hlive
  have hmem : (task, container) ∈ s.allocations c := mem_allocations_iff.mpr he
  have hserved : entry.phase.isOutstanding ≠ true := by
    intro hwaiting
    have hwaits : s.ledger.waits c = true := by
      rw [Ledger.waits, hentry]
      exact hwaiting
    rw [hs.allocations_of_unserved (.inr hwaits)] at hmem
    cases hmem
  rw [Ne, entry.phase.isOutstanding_iff] at hserved
  obtain ⟨k, hk⟩ := Option.ne_none_iff_exists'.mp hserved
  have howner : s.ledger.ownerOf? k = some c := by
    refine (hs.coherent.containerOf?_eq_iff c k).mp ?_
    exact Option.bind_eq_some_iff.mpr ⟨entry, hentry, hk⟩
  -- it was handed the container that it has, and it was handed one container only
  obtain ⟨task', container', he', hid⟩ :=
    mem_holders_iff.mp (List.mem_of_getLast? (hs.holders howner))
  have hmem' : (task', container') ∈ s.allocations c := mem_allocations_iff.mpr he'
  obtain ⟨p, hall⟩ : ∃ p, s.allocations c = [p] :=
    List.length_eq_one_iff.mp (Nat.le_antisymm (hs.length_allocations_le c)
      (List.length_pos_of_mem hmem))
  rw [hall, List.mem_singleton] at hmem hmem'
  have hsame : container' = container := congrArg Prod.snd (hmem'.trans hmem.symm)
  rw [← hsame, hid, howner]

/-- Nobody to whom a container was handed is live once it is given back. -/
theorem Underway.gone_of_returned (hs : Underway policy s) {task : TaskId}
    {container : Container} (he : .notify (.taskAllocated task c container) ∈ s.journal)
    (hreturned : s.ledger.stage container.id = .returned) :
    s.ledger.entries.get? c = none := by
  refine Classical.byContradiction fun hlive => ?_
  have hstage := Ledger.stage_of_ownerOf? (hs.ownerOf?_of_allocated he hlive)
  simp [hreturned] at hstage

end Scheduler

/-! ## Fates -/

/-- What is said of a container that a task was given, as long as the task is not done with
it and it does not complete. -/
inductive Fate : Stage → List Word → Prop
  | running : Fate .running []
  | leaving : Fate .leaving [.beingReleased]
  | returned : Fate .returned [.givenBack]
  | returnedAfterNotice : Fate .returned [.beingReleased, .givenBack]

theorem Passes.fate {a b : Stage} {vs ws : List Word} (h : Passes a ws b) (ha : Fate a vs)
    (hkept : vs = [] → b ≠ .idle) (hopen : .completed ∉ ws) : Fate b (vs ++ ws) := by
  cases h with
  | stay =>
      rw [List.append_nil]
      exact ha
  | grant => cases ha
  | turnAway => cases ha
  | keep =>
      cases ha
      exact absurd rfl (hkept rfl)
  | hand => cases ha
  | announce =>
      cases ha
      exact .leaving
  | giveBack hheld honce =>
      cases ha with
      | running => exact .returned
      | leaving => exact .returnedAfterNotice
      | returned => exact absurd rfl honce
      | returnedAfterNotice => exact absurd rfl honce
  | complete => simp at hopen

/-- Where an effect says a word of a container, the passage is the one of this word, and
nothing else is said of the container. -/
theorem Passes.of_word?_eq {a b : Stage} {k : ContainerId} {es before later : List Effect}
    {e : Effect} {w : Word} (h : Passes a (words k es) b) (hes : es = before ++ e :: later)
    (he : e.word? k = some w) : Passes a [w] b ∧ words k later = [] := by
  have hword : words k es = words k before ++ w :: words k later := by
    rw [hes, words_append]
    simp [words, he]
  have hlength := h.length_le
  rw [hword, List.length_append, List.length_cons] at hlength
  have hbefore : words k before = [] := List.eq_nil_of_length_eq_zero (by omega)
  have hlater : words k later = [] := List.eq_nil_of_length_eq_zero (by omega)
  rw [hword, hbefore, hlater] at h
  exact ⟨h, hlater⟩

theorem Scheduler.ledger_refused (s : Scheduler) (now : Instant) (notice : Notice)
    (cause : DispatchError) :
    (s.refused now notice cause).ledger = (s.giveUpUnheard now notice).ledger := by
  obtain ⟨reports, hkept⟩ :=
    (s.giveUpUnheard now notice).keepReport_eq cause (undelivered notice cause)
  rw [refused, hkept]

/-- A container that is held and then given back is returned. -/
theorem Scheduler.stage_releaseHeld {s : Scheduler} {k : ContainerId}
    (hheld : s.ledger.stage k ≠ .absent) (now : Instant) (reason : String) :
    (s.releaseHeld now k reason).2.ledger.stage k = .returned := by
  unfold releaseHeld
  split
  · next task ledger hledger =>
    refine stage_of_assignment? (a := .released task) ?_
    show ledger.assignment? k = _
    rw [Ledger.assignment?_release hledger, if_pos rfl]
  · next cause ledger hledger =>
    -- the ledger only refuses what is not held or was given back before
    obtain rfl := Ledger.atomic_release _ _ hledger
    show s.ledger.stage k = .returned
    cases hget : s.ledger.held.get? k with
    | none => exact absurd (stage_of_get?_none hget) hheld
    | some h =>
        rw [stage_of_get? hget]
        cases hassignment : h.assignment with
        | released task => rfl
        | _ => simp [Ledger.release, hget, hassignment] at hledger

end TaskFleet
