import TaskFleet.Proofs.Scheduler.Run

/-!
# The life of a container

While a container is held, the effects decided about it tell a story that always has the
same form: it is allocated, perhaps several times in a row; perhaps it is announced that
it will be taken away; it is given back, perhaps; and at last it completes.  The ledger
has a stage of this life for each container (`Stage`), and the story is read off the
journal alone (`Scheduler.tale`).

A decision moves a container from one stage to another and says the word that belongs to
this passage, or it says nothing and the container stays (`Decision.passes`).  Seven kinds
of decisions can end a task or give a container back; that none of them does so twice, or
silently, is because stage and word go together in each.  The form of the story
(`Told`) follows by induction over the run.
-/

namespace TaskFleet

/-! ## Stages and words -/

/-- Where a container stands with the fleet. -/
inductive Stage where
  | absent
  | running
  | idle
  | leaving
  | returned
deriving DecidableEq, Repr

/-- The stage that an assignment means. -/
def Assignment.stage : Assignment → Stage
  | active _ => .running
  | idle _ => .idle
  | beingReleased _ => .leaving
  | released _ => .returned

/-- Where a container stands; one that is not held is absent. -/
def Ledger.stage (l : Ledger) (id : ContainerId) : Stage :=
  ((l.assignment? id).map Assignment.stage).getD .absent

/-- What can be said about a container. -/
inductive Word where
  | allocated
  | beingReleased
  | givenBack
  | completed
deriving DecidableEq, Repr

/-- What an effect says about a container. -/
def Effect.word? (id : ContainerId) : Effect → Option Word
  | .notify (.taskAllocated _ _ container) => if container.id = id then some .allocated else none
  | .notify (.containerBeingReleased k) => if k = id then some .beingReleased else none
  | .call (.giveBack k) => if k = id then some .givenBack else none
  | .notify (.containerCompleted _ status) =>
    if status.container = id then some .completed else none
  | _ => none

/-- What effects say about a container. -/
def words (id : ContainerId) (es : List Effect) : List Word :=
  es.filterMap (Effect.word? id)

/-- A story continued by a word.  A story begins with an allocation and is over with the
completion; what is said in between of a container that is not held belongs to none. -/
def Word.continue (story : List Word) : Word → List Word
  | .completed => []
  | .allocated => story ++ [.allocated]
  | word => if story = [] then [] else story ++ [word]

/-- The story of a container's present holding. -/
def Scheduler.tale (s : Scheduler) (id : ContainerId) : List Word :=
  (words id s.journal).foldl Word.continue []

/-! ## The protocol -/

/-- The words that take a container from one stage to another. -/
inductive Passes : Stage → List Word → Stage → Prop
  | stay (a : Stage) : Passes a [] a
  /-- A grant is taken. -/
  | grant : Passes .absent [.allocated] .running
  /-- A grant is not wanted. -/
  | turnAway : Passes .absent [.givenBack] .absent
  /-- The task is done. -/
  | keep : Passes .running [] .idle
  /-- Another task is given to an idle container. -/
  | hand : Passes .idle [.allocated] .running
  /-- The task has to give its container up. -/
  | announce : Passes .running [.beingReleased] .leaving
  | giveBack {a : Stage} (hheld : a ≠ .absent) (honce : a ≠ .returned) :
      Passes a [.givenBack] .returned
  | complete {a : Stage} (hheld : a ≠ .absent) : Passes a [.completed] .absent

/-- The story of a container in each stage of its life. -/
inductive Told : Stage → List Word → Prop
  | absent : Told .absent []
  | running (n : Nat) : Told .running (.replicate (n + 1) .allocated)
  | idle (n : Nat) : Told .idle (.replicate (n + 1) .allocated)
  | leaving (n : Nat) : Told .leaving (.replicate (n + 1) .allocated ++ [.beingReleased])
  | returned (n : Nat) : Told .returned (.replicate (n + 1) .allocated ++ [.givenBack])
  | returnedAfterNotice (n : Nat) :
      Told .returned (.replicate (n + 1) .allocated ++ [.beingReleased, .givenBack])

theorem Told.eq_nil_iff {a : Stage} {story : List Word} (h : Told a story) :
    story = [] ↔ a = .absent := by
  cases h <;> simp

theorem Told.mem_givenBack_iff {a : Stage} {story : List Word} (h : Told a story) :
    Word.givenBack ∈ story ↔ a = .returned := by
  cases h <;> simp

theorem Told.mem_beingReleased_iff {a : Stage} {story : List Word} (h : Told a story) :
    Word.beingReleased ∈ story ∧ Word.givenBack ∉ story ↔ a = .leaving := by
  cases h <;> simp

/-- The story goes on as the container does. -/
theorem Passes.told {a b : Stage} {ws story : List Word} (h : Passes a ws b)
    (ha : Told a story) : Told b (ws.foldl Word.continue story) := by
  cases h with
  | stay => exact ha
  | grant =>
      cases ha
      exact .running 0
  | turnAway =>
      cases ha
      exact .absent
  | keep =>
      cases ha with
      | running n => exact .idle n
  | hand =>
      cases ha with
      | idle n =>
          show Told .running (List.replicate (n + 1) .allocated ++ [.allocated])
          rw [← List.replicate_succ']
          exact .running (n + 1)
  | announce =>
      cases ha with
      | running n => exact .leaving n
  | giveBack hheld honce =>
      cases ha with
      | absent => exact absurd rfl hheld
      | running n => exact .returned n
      | idle n => exact .returned n
      | leaving n =>
          show Told .returned
            (List.replicate (n + 1) .allocated ++ [.beingReleased] ++ [.givenBack])
          rw [List.append_assoc]
          exact .returnedAfterNotice n
      | returned n => exact absurd rfl honce
      | returnedAfterNotice n => exact absurd rfl honce
  | complete hheld => exact .absent

/-! ## Decisions follow the protocol -/

theorem words_append (id : ContainerId) (es fs : List Effect) :
    words id (es ++ fs) = words id es ++ words id fs :=
  List.filterMap_append

/-- A withdrawal is about no container. -/
theorem words_withdrawal (id : ContainerId) (previous : RequestState) (cookie : Cookie) :
    words id (withdrawal previous cookie) = [] := by
  unfold withdrawal
  split <;> rfl

theorem words_submit (id : ContainerId) (asked : List ContainerRequest) :
    words id (asked.map fun r => .call (.submit r)) = [] := by
  induction asked with
  | nil => rfl
  | cons r asked ih => exact ih

/-- News are about no container. -/
theorem words_news (id : ContainerId) {notice : Notice} (hnews : notice.container? = none) :
    words id [.notify notice] = [] := by
  cases notice <;> first | rfl | cases hnews

/-- An effect about a container says one word about it and none about the others. -/
theorem words_about {id : ContainerId} {e : Effect} {w : Word}
    (he : ∀ k, e.word? k = if id = k then some w else none) (k : ContainerId) :
    words k [e] = if id = k then [w] else [] := by
  by_cases hk : id = k
  · simp [words, he, hk]
  · simp [words, he, hk]

/-- Only the call says that a container is given back. -/
theorem Effect.word?_eq_givenBack_iff {id : ContainerId} {e : Effect} :
    e.word? id = some .givenBack ↔ e = .call (.giveBack id) := by
  cases e with
  | call call => cases call <;> simp [word?]
  | notify notice => cases notice <;> simp [word?]

theorem count_call_giveBack (id : ContainerId) (es : List Effect) :
    es.count (.call (.giveBack id)) = (words id es).count .givenBack := by
  rw [words, List.count, List.count, List.countP_filterMap]
  refine List.countP_congr fun e _ => ?_
  rw [beq_iff_eq, ← Effect.word?_eq_givenBack_iff]
  cases e.word? id <;> simp

theorem stage_of_assignment? {l : Ledger} {id : ContainerId} {a : Assignment}
    (h : l.assignment? id = some a) : l.stage id = a.stage := by
  rw [Ledger.stage, h]
  rfl

theorem stage_of_get? {l : Ledger} {id : ContainerId} {h : Holding}
    (hheld : l.held.get? id = some h) : l.stage id = h.assignment.stage :=
  stage_of_assignment? (Ledger.assignment?_of_get? hheld)

theorem stage_of_get?_none {l : Ledger} {id : ContainerId} (h : l.held.get? id = none) :
    l.stage id = .absent := by
  simp [Ledger.stage, Ledger.assignment?, h]

theorem Assignment.stage_ne_absent (a : Assignment) : a.stage ≠ .absent := by
  cases a <;> simp [stage]

theorem stage_ne_absent_of_get? {l : Ledger} {id : ContainerId} {h : Holding}
    (hheld : l.held.get? id = some h) : l.stage id ≠ .absent := by
  rw [stage_of_get? hheld]
  exact h.assignment.stage_ne_absent

namespace Passes

/-- Where nothing is said and the container is in use as before, the protocol is kept. -/
theorem of_eq {l l' : Ledger} {k : ContainerId} {ws : List Word} (hws : ws = [])
    (h : l'.assignment? k = l.assignment? k) : Passes (l.stage k) ws (l'.stage k) := by
  have hstage : l'.stage k = l.stage k := by
    rw [Ledger.stage, h, Ledger.stage]
  rw [hws, hstage]
  exact .stay _

/-- A word about one container, and a change of what that one is in use for. -/
theorem of_one {l l' : Ledger} {id : ContainerId} {next : Option Assignment} {w : Word}
    (hassign : ∀ k, l'.assignment? k = if k = id then next else l.assignment? k)
    (hpass : Passes (l.stage id) [w] ((next.map Assignment.stage).getD .absent))
    (k : ContainerId) :
    Passes (l.stage k) (if id = k then [w] else []) (l'.stage k) := by
  by_cases hk : id = k
  · subst hk
    have hstage : l'.stage id = (next.map Assignment.stage).getD .absent := by
      rw [Ledger.stage, hassign, if_pos rfl]
    rw [if_pos rfl, hstage]
    exact hpass
  · rw [if_neg hk]
    refine of_eq rfl ?_
    rw [hassign, if_neg (Ne.symm hk)]

end Passes

/-- Each decision says of every container what its passage asks for. -/
theorem Scheduler.Decision.passes {policy : Policy} {s : Scheduler} {o : Outcome}
    (h : s.Decision policy o) (hs : s.ledger.Coherent) (k : ContainerId) :
    Passes (s.ledger.stage k) (words k o.effects) (o.ledger.stage k) := by
  cases h with
  | ask now hpending hledger =>
      refine .of_eq (words_submit k _) ?_
      rw [Ledger.assignment?, Ledger.held_markRequested hledger, Ledger.assignment?]
  | hand now hrequest hheld hlarge hserves hledger =>
      have hassign := Ledger.assignment?_assignIdle hledger
      obtain ⟨entry, held, -, -, hheld, hidle, -, hcontainer, -⟩ :=
        Ledger.assignIdle_ok hledger
      have hid := hs.keyed _ held hheld
      rw [words_append, words_withdrawal, List.nil_append, words_about (fun _ => rfl),
        hcontainer, hid]
      refine .of_one hassign ?_ k
      rw [stage_of_get? hheld]
      -- the ledger hands on what is idle and nothing else
      cases hassignment : held.assignment with
      | idle since => exact .hand
      | _ => simp [Holding.isIdle, Assignment.isIdle, hassignment] at hidle
  | grant now hwanted hrequest hledger hheld =>
      have hassign := Ledger.assignment?_allocate hledger
      have hid := (hs.allocate hledger).keyed _ _ hheld
      obtain ⟨entry, hnew, -, -, -, -⟩ := Ledger.allocate_ok hledger
      rw [words_append, words_withdrawal, List.nil_append, words_about (fun _ => rfl), hid]
      refine .of_one hassign ?_ k
      rw [stage_of_get?_none hnew]
      exact .grant
  | withdraw now hwaiting hledger =>
      refine .of_eq (words_withdrawal k _ _) ?_
      -- a waiting request names no container that its removal could vacate
      obtain ⟨entry, hentry, -, hprevious, -, -, -⟩ := Ledger.remove_ok hledger
      rw [hprevious] at hwaiting
      rw [Ledger.assignment?_remove hledger, Ledger.containerOf?, hentry]
      cases hphase : entry.phase with
      | pending => simp [hphase, Phase.container?]
      | requested asked => simp [hphase, Phase.container?]
      | allocated id => simp [hphase, Phase.state, RequestState.isOutstanding] at hwaiting
      | releasing id => simp [hphase, Phase.state, RequestState.isOutstanding] at hwaiting
  | @retire cookie id ledger removed now hrunning hledger =>
      have hassign := Ledger.assignment?_remove hledger k
      -- the request runs in its container, so the container it vacates is not leaving
      have hactive := (hs.active cookie id).mp hrunning
      rw [Ledger.containerOf?_eq, hrunning] at hassign
      by_cases hk : id = k
      · subst hk
        rw [stage_of_assignment? hactive]
        rw [Option.bind_some, Phase.container?, if_pos rfl, hactive] at hassign
        rw [stage_of_assignment? hassign]
        exact .keep
      · refine .of_eq rfl ?_
        rw [hassign, if_neg]
        simpa [Phase.container?] using hk
  | @turnAway id action now cookie detail hnew haction =>
      -- nothing changes, which is as much as to say that the container stays unheld
      have hsame : ∀ k', s.ledger.assignment? k' =
          if k' = id then none else s.ledger.assignment? k' := fun k' => by
        split
        · next hk => simp [hk, Ledger.assignment?, hnew]
        · rfl
      rw [words_about (fun _ => rfl)]
      refine .of_one hsame ?_ k
      rw [stage_of_get?_none hnew]
      exact .turnAway
  | announce now detail hledger =>
      obtain ⟨held, hheld, hactive, -⟩ := Ledger.beginRelease_ok hledger
      rw [words_about (fun _ => rfl)]
      refine .of_one (Ledger.assignment?_beginRelease hledger) ?_ k
      rw [stage_of_get? hheld, hactive]
      exact .announce
  | giveBack now reason hledger =>
      obtain ⟨held, hheld, hstill, -⟩ := Ledger.release_ok hledger
      rw [words_about (fun _ => rfl)]
      refine .of_one (Ledger.assignment?_release hledger) ?_ k
      rw [stage_of_get? hheld]
      refine .giveBack held.assignment.stage_ne_absent ?_
      -- this is where a second release fails
      cases hassignment : held.assignment with
      | released task => exact absurd hassignment (hstill task)
      | _ => simp [Assignment.stage]
  | complete now hledger =>
      obtain ⟨held, hheld, -⟩ := Ledger.complete_ok hledger
      rw [words_about (fun _ => rfl)]
      refine .of_one (Ledger.assignment?_complete hledger) ?_ k
      rw [stage_of_get? hheld]
      exact .complete held.assignment.stage_ne_absent
  | unawait hnew => exact .stay _
  | forget asOf => exact .stay _
  | news notice hnews => exact .of_eq (words_news k hnews) rfl

theorem Scheduler.Move.passes {policy : Policy} {s t : Scheduler} {es : List Effect}
    (h : s.Move policy es t) (hs : s.ledger.Coherent) (k : ContainerId) :
    Passes (s.ledger.stage k) (words k es) (t.ledger.stage k) := by
  cases h with
  | enter request => exact .stay _
  | decide h => exact h.passes hs k
  | takeUp h => exact .of_eq rfl (by rw [ledger_takeUp? h])
  | aside => exact .stay _

/-! ## The story of every run -/

theorem Scheduler.Move.tale {policy : Policy} {s t : Scheduler} {es : List Effect}
    (h : s.Move policy es t) (k : ContainerId) :
    t.tale k = (words k es).foldl Word.continue (s.tale k) := by
  rw [Scheduler.tale, h.journal, words_append, List.foldl_append, Scheduler.tale]

/-- What the journal tells of a container is the story of its stage. -/
theorem Scheduler.Underway.told {policy : Policy} {s : Scheduler} (hs : s.Underway policy)
    (k : ContainerId) : Told (s.ledger.stage k) (s.tale k) := by
  refine hs.induct (P := fun s => Told (s.ledger.stage k) (s.tale k)) .absent ?_
  intro s es t hs h ih
  rw [h.tale]
  exact (h.passes hs.coherent k).told ih

theorem Ledger.stage_eq_absent_iff {l : Ledger} {k : ContainerId} :
    l.stage k = .absent ↔ l.holding? k = none := by
  rw [Ledger.holding?]
  cases h : l.held.get? k with
  | none => simp [stage_of_get?_none h]
  | some held => simp [stage_of_get? h, Assignment.stage_ne_absent]

theorem Ledger.stage_eq_running_iff {l : Ledger} {k : ContainerId} :
    l.stage k = .running ↔ ∃ c, l.assignment? k = some (.active c) := by
  cases h : l.assignment? k with
  | none => simp [Ledger.stage, h]
  | some a => cases a <;> simp [stage_of_assignment? h, Assignment.stage]

theorem Ledger.stage_eq_idle_iff {l : Ledger} {k : ContainerId} :
    l.stage k = .idle ↔ ∃ h, l.held.get? k = some h ∧ h.isIdle = true := by
  cases hget : l.held.get? k with
  | none => simp [stage_of_get?_none hget]
  | some h =>
      rw [stage_of_get? hget]
      cases hassignment : h.assignment <;>
        simp [Assignment.stage, Holding.isIdle, Assignment.isIdle, hassignment]

theorem Ledger.stage_eq_returned_iff {l : Ledger} {k : ContainerId} :
    l.stage k = .returned ↔ ∃ task, l.assignment? k = some (.released task) := by
  cases h : l.assignment? k with
  | none => simp [Ledger.stage, h]
  | some a => cases a <;> simp [stage_of_assignment? h, Assignment.stage]

theorem Ledger.stage_eq_leaving_iff {l : Ledger} {k : ContainerId} :
    l.stage k = .leaving ↔ ∃ c, l.assignment? k = some (.beingReleased c) := by
  cases h : l.assignment? k with
  | none => simp [Ledger.stage, h]
  | some a => cases a <;> simp [stage_of_assignment? h, Assignment.stage]

/-- The journal tells the story of the container's present holding, and the ledger and the
story agree on how far it has come. -/
structure Scheduler.Tells (s : Scheduler) (k : ContainerId) : Prop where
  told : Told (s.ledger.stage k) (s.tale k)
  held : s.ledger.holding? k = none ↔ s.tale k = []
  returned : (∃ task, s.ledger.assignment? k = some (.released task)) ↔
    .givenBack ∈ s.tale k
  leaving : (∃ c, s.ledger.assignment? k = some (.beingReleased c)) ↔
    .beingReleased ∈ s.tale k ∧ .givenBack ∉ s.tale k

theorem Scheduler.Underway.tells {policy : Policy} {s : Scheduler} (hs : s.Underway policy)
    (k : ContainerId) : s.Tells k := by
  have htold := hs.told k
  refine ⟨htold, ?_, ?_, ?_⟩
  · rw [htold.eq_nil_iff, Ledger.stage_eq_absent_iff]
  · rw [htold.mem_givenBack_iff, Ledger.stage_eq_returned_iff]
  · rw [htold.mem_beingReleased_iff, Ledger.stage_eq_leaving_iff]

/-- Whatever a scheduler is used for, it comes by moves from where it was to where it is.
On the way the journal tells the story of every container, and each move adds to it what
the container's passage asks for. -/
theorem Fleet.container_protocol {policy : Policy} {w : Fleet} (hw : w.Reachable policy)
    (k : ContainerId) :
    (∀ w', w.Run policy w' → w.1.Course policy w'.1) ∧
      ∀ s, w.1.Course policy s → s.Tells k ∧
        ∀ es t, s.Move policy es t → t.journal = s.journal ++ es ∧
          Passes (s.ledger.stage k) (words k es) (t.ledger.stage k) := by
  have hstart := hw.underway
  refine ⟨fun w' hrun => hrun.course hstart.coherent, fun s hcourse => ?_⟩
  have hs := hstart.course hcourse
  exact ⟨hs.tells k, fun es t h => ⟨h.journal, h.passes hs.coherent k⟩⟩

/-- A container runs two tasks in turn, is taken from the second and goes back. -/
theorem Fleet.container_protocol_preempted :
    let cx : Context := ⟨⟨.standard, .alwaysMatch⟩, .epoch, some .zero⟩
    let request (priority : UInt32) : TaskRequest :=
      ⟨⟨7⟩, ⟨1024, 1⟩, ⟨priority⟩, ⟨[], [], true⟩, ⟨0, ⟨⟨1024, 1⟩, .empty, .empty⟩⟩⟩
    let container : Container := ⟨⟨"c_1"⟩, ⟨"host1", 8041⟩, none, ⟨1024, 1⟩, ⟨5⟩, some ⟨1⟩, none⟩
    let ops : List Scheduler.Operation := [.request (request 5), .hear (.allocated [container]),
      .deallocateTask ⟨1⟩ true, .request (request 5), .request (request 1),
      .deallocateTask ⟨2⟩ true]
    let w : Fleet := (ops.foldl (fun s op => s.after cx op) .fresh, .connect .zero)
    w.1.Tells ⟨"c_1"⟩ ∧
      w.1.tale ⟨"c_1"⟩ = [.allocated, .allocated, .beingReleased, .givenBack] := by
  intro cx request container ops w
  have hw : w.Reachable cx.policy := by
    apply (Fleet.Reachable.start .zero).operations
    decide
  have htells := ((Fleet.container_protocol hw ⟨"c_1"⟩).2 w.1 (.refl w.1)).1
  exact ⟨htells, by decide +kernel⟩

end TaskFleet
