import Mathlib.Logic.ExistsUnique
import TaskFleet.Proofs.Ledger.Matching
import TaskFleet.Proofs.Scheduler.Run

/-!
# What becomes of a granted container

The cluster may grant a container twice, too late, or to nobody in particular, and it grants
several at once, each of which is looked at in the light of those before it.  Whatever it
grants, a container is received in one of three ways (`Receives`): it is held already and
ignored, it is given to a request that waits, or it goes back and its completion is awaited.
Each way is told by all that it changes, so that nothing else can happen on the way.

The ledger has four reasons to refuse an allocation.  None of them can arise here, because
who gets the container waits and the container is not held (`receive_wanted`); in the end no
container is lost (`accountsFor_receiveEach`).
-/

namespace TaskFleet.Scheduler

variable {s t : Scheduler} {now : Instant} {container : Container}

/-! ## Three ways -/

/-- The ways in which a granted container is received. -/
inductive Receipt where
  | ignored
  | assigned
  | returned
deriving DecidableEq, Repr

/-- By its receipt in one of the ways a granted container takes the scheduler to `t`. -/
inductive Receives (now : Instant) (s : Scheduler) (container : Container) :
    Receipt → Scheduler → Prop
  /-- It is held already, and nothing changes. -/
  | ignored (hheld : s.ledger.holding? container.id ≠ none) :
      Receives now s container .ignored s
  /-- A waiting request gets it, and what the cluster was asked for the request is withdrawn
  before that. -/
  | assigned {cookie : Cookie} {entry : Entry} {ledger : Ledger} {h : Holding}
      (hwanted : (container.cookie <|> s.ledger.matchOutstanding container) = some cookie)
      (hentry : s.ledger.entries.get? cookie = some entry)
      (hwaiting : entry.phase.isOutstanding = true)
      (hledger : s.ledger.allocate now cookie container = (.ok entry.phase.state, ledger))
      (hheld : ledger.holding? container.id = some h) :
      Receives now s container .assigned (s.adopt {
        ledger
        awaiting := s.awaiting
        effects := withdrawal entry.phase.state cookie ++
          [.notify (.taskAllocated entry.request.task cookie h.container)]
        records := [⟨.allocated, some cookie, some entry.request.task, some container.id, none,
          now⟩] })
  /-- It goes back unheld, and its completion is awaited. -/
  | returned (record : AuditRecord) :
      Receives now s container .returned (s.adopt {
        ledger := s.ledger
        awaiting := s.awaiting.insert container.id now
        effects := [.call (.giveBack container.id)]
        records := [record] })

/-- No waiting request is there for the container: the cookie that it names is that of none,
or it names none and is meant for none. -/
def Unclaimed (s : Scheduler) (container : Container) : Prop :=
  match container.cookie with
  | some cookie => ∀ state, s.ledger.classify cookie = .live state → state.isOutstanding = false
  | none => s.ledger.matchOutstanding container = none

theorem classify_eq_live_iff {l : Ledger} {cookie : Cookie} {state : RequestState} :
    l.classify cookie = .live state ↔ l.state? cookie = some state := by
  unfold Ledger.classify Ledger.state?
  split
  · next entry hentry => simp [hentry]
  · next hentry =>
    rw [hentry]
    split <;> simp

/-- A container without a cookie is meant for a request that waits. -/
theorem wants_of_matchOutstanding {cookie : Cookie} (hnamed : container.cookie = none)
    (hmatch : s.ledger.matchOutstanding container = some cookie) : s.wants container = true := by
  obtain ⟨entry, rank, hentry, hrank⟩ := Ledger.matchOutstanding_sound hmatch
  obtain ⟨hstate, -, -, -⟩ := Ledger.rank?_sound hrank
  have hwaiting : entry.phase.isOutstanding = true := by
    rw [Phase.isOutstanding, hstate]
    rfl
  rw [wants, hnamed, hmatch]
  show (s.ledger.phase? cookie).any Phase.isOutstanding = true
  rw [Ledger.phase?_of_get? hentry]
  exact hwaiting

theorem wants_eq_false_iff (s : Scheduler) (container : Container) :
    s.wants container = false ↔ s.Unclaimed container := by
  unfold Unclaimed
  cases hnamed : container.cookie with
  | none =>
      cases hmatch : s.ledger.matchOutstanding container with
      | none => simp [wants, hnamed, hmatch]
      | some cookie => simp [wants_of_matchOutstanding hnamed hmatch]
  | some cookie =>
      have hwants : s.wants container = (s.ledger.phase? cookie).any Phase.isOutstanding := by
        rw [wants, hnamed]
        rfl
      simp only [hwants, classify_eq_live_iff, Ledger.state?_eq]
      cases s.ledger.phase? cookie with
      | none => simp
      | some phase => simp [Phase.isOutstanding]

/-! ## Every receipt is of one of them -/

theorem receives_ignored (hheld : s.ledger.holding? container.id ≠ none) :
    Receives now s container .ignored (s.receive now container) := by
  have hcontains : s.ledger.held.contains container.id = true := by
    rw [← Bool.not_eq_false, SortedMap.contains_eq_false_iff]
    exact hheld
  rw [receive_held hcontains]
  exact .ignored hheld

theorem receives_assigned (hnew : s.ledger.holding? container.id = none)
    (hwants : s.wants container = true) :
    Receives now s container .assigned (s.receive now container) := by
  obtain ⟨cookie, entry, hwanted, hentry, hwaiting⟩ := wants_iff.mp hwants
  obtain ⟨ledger, h, hledger, hheld, hassign⟩ := assign_eq s now hnew hentry hwaiting
  rw [receive_eq_assign hnew hwanted hentry hwaiting, hassign]
  exact .assigned hwanted hentry hwaiting hledger hheld

theorem receives_returned (hnew : s.ledger.holding? container.id = none)
    (hwants : s.wants container = false) :
    Receives now s container .returned (s.receive now container) := by
  obtain ⟨action, cookie, detail, -, heq⟩ := receive_eq_turnAway hnew hwants now
  rw [heq]
  exact .returned _

/-- What the last of the effects is by which a container is received. -/
theorem Receives.last {way : Receipt} (h : Receives now s container way t) :
    ∃ es, t.pending = s.pending ++ es ∧
      match way with
      | .ignored => es = []
      | .assigned => ∃ task cookie c,
          es.getLast? = some (.notify (.taskAllocated task cookie c))
      | .returned => es.getLast? = some (.call (.giveBack container.id)) := by
  cases h with
  | ignored => exact ⟨[], by simp, rfl⟩
  | assigned => exact ⟨_, rfl, _, _, _, List.getLast?_concat⟩
  | returned => exact ⟨_, rfl, rfl⟩

/-- The ways exclude each other: their effects tell them apart. -/
theorem Receives.unique {way way' : Receipt} (h : Receives now s container way t)
    (h' : Receives now s container way' t) : way = way' := by
  obtain ⟨es, hes, hlast⟩ := h.last
  obtain ⟨es', hes', hlast'⟩ := h'.last
  have hsame : es = es' := List.append_cancel_left (hes.symm.trans hes')
  subst hsame
  cases way <;> cases way' <;> simp_all

/-- A container is received in exactly one way. -/
theorem existsUnique_receives (now : Instant) (s : Scheduler) (container : Container) :
    ∃! way, Receives now s container way (s.receive now container) := by
  refine existsUnique_of_exists_of_unique ?_ fun _ _ h h' => h.unique h'
  by_cases hheld : s.ledger.holding? container.id = none
  · cases hwants : s.wants container with
    | true => exact ⟨.assigned, receives_assigned hheld hwants⟩
    | false => exact ⟨.returned, receives_returned hheld hwants⟩
  · exact ⟨.ignored, receives_ignored hheld⟩

/-- It goes back just when it is not held and no waiting request is there for it. -/
theorem receives_returned_iff (now : Instant) (s : Scheduler) (container : Container) :
    Receives now s container .returned (s.receive now container) ↔
      s.ledger.holding? container.id = none ∧ s.Unclaimed container := by
  rw [← wants_eq_false_iff]
  constructor
  · intro h
    constructor
    · refine Classical.byContradiction fun hheld => ?_
      exact Receipt.noConfusion (h.unique (receives_ignored hheld))
    · rw [← Bool.not_eq_true]
      intro hwants
      have hnew : s.ledger.holding? container.id = none := by
        refine Classical.byContradiction fun hheld => ?_
        exact Receipt.noConfusion (h.unique (receives_ignored hheld))
      exact Receipt.noConfusion (h.unique (receives_assigned hnew hwants))
  · rintro ⟨hnew, hwants⟩
    exact receives_returned hnew hwants

/-! ## Several containers -/

/-- The scheduler that has received granted containers, one after another. -/
def receiveEach (s : Scheduler) (now : Instant) (containers : List Container) : Scheduler :=
  containers.foldl (fun s container => s.receive now container) s

theorem receiveEach_append (s : Scheduler) (now : Instant) (before after : List Container) :
    s.receiveEach now (before ++ after) = (s.receiveEach now before).receiveEach now after :=
  List.foldl_append

/-- The container is held, or its completion is awaited. -/
def AccountsFor (s : Scheduler) (k : ContainerId) : Prop :=
  s.ledger.holding? k ≠ none ∨ s.awaiting.get? k ≠ none

namespace Receives

variable {way : Receipt} {k : ContainerId}

/-- Who is held stays so. -/
theorem holding? (h : Receives now s container way t) (hk : s.ledger.holding? k ≠ none) :
    t.ledger.holding? k ≠ none := by
  cases h with
  | ignored => exact hk
  | assigned hwanted hentry hwaiting hledger hheld =>
      obtain ⟨entry, -, -, -, -, rfl⟩ := Ledger.allocate_ok hledger
      show (s.ledger.held.insert container.id _).get? k ≠ none
      rw [SortedMap.get?_insert]
      split
      · simp
      · exact hk
  | returned => exact hk

theorem accountsFor_self (h : Receives now s container way t) : t.AccountsFor container.id := by
  cases h with
  | ignored hheld => exact .inl hheld
  | @assigned cookie entry ledger h hwanted hentry hwaiting hledger hheld =>
      left
      show ledger.holding? container.id ≠ none
      simp [hheld]
  | returned record =>
      right
      show (s.awaiting.insert container.id now).get? container.id ≠ none
      simp

theorem accountsFor (h : Receives now s container way t) (hk : s.AccountsFor k) :
    t.AccountsFor k := by
  rcases hk with hheld | hawaited
  · exact .inl (h.holding? hheld)
  · right
    cases h with
    | ignored => exact hawaited
    | assigned => exact hawaited
    | returned record =>
        show (s.awaiting.insert container.id now).get? k ≠ none
        rw [SortedMap.get?_insert]
        split
        · simp
        · exact hawaited

end Receives

theorem AccountsFor.receive {k : ContainerId} (hk : s.AccountsFor k) (now : Instant)
    (container : Container) : (s.receive now container).AccountsFor k := by
  obtain ⟨way, hway, -⟩ := existsUnique_receives now s container
  exact hway.accountsFor hk

theorem AccountsFor.receiveEach {k : ContainerId} (hk : s.AccountsFor k) (now : Instant)
    (containers : List Container) : (s.receiveEach now containers).AccountsFor k := by
  induction containers generalizing s with
  | nil => exact hk
  | cons container containers ih => exact ih (hk.receive now container)

/-- None of the containers is lost, whatever is received with it. -/
theorem accountsFor_receiveEach (s : Scheduler) (now : Instant) {containers : List Container}
    (hmem : container ∈ containers) :
    (s.receiveEach now containers).AccountsFor container.id := by
  obtain ⟨before, after, rfl⟩ := List.append_of_mem hmem
  rw [receiveEach_append]
  -- it is accounted for once it was received, and what comes later keeps that
  obtain ⟨way, hway, -⟩ := existsUnique_receives now (s.receiveEach now before) container
  exact hway.accountsFor_self.receiveEach now after

/-- When containers are granted, each is received in exactly one of three ways by the
scheduler that has received those before it.  It goes back just when it is not held and no
waiting request is there for it.  In the end each is held or awaited, and only then may
there be a walk. -/
theorem grants_accounted (s : Scheduler) (cx : Context) (containers : List Container) :
    (∀ before container after, containers = before ++ container :: after →
      let t := s.receiveEach cx.now before
      (∃! way, Receives cx.now t container way (t.receive cx.now container)) ∧
        (Receives cx.now t container .returned (t.receive cx.now container) ↔
          t.ledger.holding? container.id = none ∧ t.Unclaimed container) ∧
        s.receiveEach cx.now containers =
          (t.receive cx.now container).receiveEach cx.now after) ∧
      (∀ container ∈ containers,
        (s.receiveEach cx.now containers).AccountsFor container.id) ∧
      s.after cx (.hear (.allocated containers)) =
        let t := s.receiveEach cx.now containers
        if t.stopped then t else t.preemptQuietly cx := by
  refine ⟨?_, fun container hmem => accountsFor_receiveEach s cx.now hmem, rfl⟩
  rintro before container after rfl t
  exact ⟨existsUnique_receives cx.now t container, receives_returned_iff cx.now t container,
    receiveEach_append s cx.now before (container :: after)⟩

/-- A container is granted twice to a request that waits, another one is granted to that
request when it is served, and a third one to nobody. -/
theorem grants_accounted_surplus :
    let cx : Context := ⟨⟨.standard, .alwaysMatch⟩, .epoch, none⟩
    let request : TaskRequest :=
      ⟨⟨7⟩, ⟨1024, 1⟩, ⟨5⟩, ⟨[], [], true⟩, ⟨0, ⟨⟨1024, 1⟩, .empty, .empty⟩⟩⟩
    let granted (name : String) (cookie : Option Cookie) : Container :=
      ⟨⟨name⟩, ⟨"host1", 8041⟩, none, ⟨1024, 1⟩, ⟨5⟩, cookie, none⟩
    let s := (Scheduler.fresh.request cx request).2
    let before := [granted "c_1" (some ⟨1⟩), granted "c_1" (some ⟨1⟩)]
    let t := s.receiveEach cx.now before
    Receives cx.now t (granted "c_2" (some ⟨1⟩)) .returned
        (t.receive cx.now (granted "c_2" (some ⟨1⟩))) ∧
      (s.receiveEach cx.now
        (before ++ [granted "c_2" (some ⟨1⟩), granted "c_3" none])).AccountsFor ⟨"c_3"⟩ ∧
      t.pending.drop 1 = [.call (.withdraw ⟨1⟩), .notify (.taskAllocated ⟨7⟩ ⟨1⟩
        { granted "c_1" (some ⟨1⟩) with signature := some request.signature })] := by
  intro cx request granted s before t
  obtain ⟨hways, hlost, -⟩ := grants_accounted s cx
    (before ++ [granted "c_2" (some ⟨1⟩), granted "c_3" none])
  obtain ⟨-, hreturned, -⟩ := hways before (granted "c_2" (some ⟨1⟩)) [granted "c_3" none] rfl
  refine ⟨hreturned.mpr ⟨?_, (wants_eq_false_iff _ _).mp ?_⟩, ?_, ?_⟩
  · decide +kernel
  · decide +kernel
  · exact hlost (granted "c_3" none) (by simp)
  · decide +kernel

end TaskFleet.Scheduler
