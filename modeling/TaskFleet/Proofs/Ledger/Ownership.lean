import Mathlib.Algebra.Group.Nat.Defs
import TaskFleet.Proofs.Ledger.Naming

/-!
# Who owns what

A ledger says twice who runs where: a request names its container and a container names
its request.  `Coherent` says that the two tables never contradict each other, that
cookies in use lie below the counter, and that a container is kept under its own name.

No operation checks all of this.  `assignIdle` trusts that an idle container is named by
nobody, and `beginRelease` that the request it finds in the container is there and names
it back.  Each of the eight operations keeps `Coherent`, so every ledger that operations
can build has it (`ownership_run`), as long as the counter of cookies does not run over.
-/

namespace TaskFleet.Ledger

variable {l l' : Ledger} {now : Instant} {cookie : Cookie} {id : ContainerId}

/-! ## The invariant -/

/-- The two tables agree, and keys mean what they should. -/
structure Coherent (l : Ledger) : Prop where
  started : 0 < l.nextCookie.toNat
  issued : ∀ c, l.phase? c ≠ none → 0 < c.val.toNat ∧ c.val.toNat < l.nextCookie.toNat
  active : ∀ c k, l.phase? c = some (.allocated k) ↔ l.assignment? k = some (.active c)
  leaving : ∀ c k, l.phase? c = some (.releasing k) ↔ l.assignment? k = some (.beingReleased c)
  keyed : ∀ k h, l.held.get? k = some h → h.container.id = k

/-- Another cookie can be issued before the counter runs over. -/
def HasCookies (l : Ledger) : Prop :=
  l.nextCookie.toNat + 1 < 2 ^ 64

instance (l : Ledger) : Decidable l.HasCookies :=
  inferInstanceAs (Decidable (_ < _))

theorem coherent_empty : empty.Coherent where
  started := by decide
  issued c h := absurd rfl h
  active c k := by simp [phase?, assignment?, empty]
  leaving c k := by simp [phase?, assignment?, empty]
  keyed k h hget := by simp [empty] at hget

theorem toNat_nextCookie_add (hnext : l.HasCookies) (request : TaskRequest) :
    (l.add request).2.nextCookie.toNat = l.nextCookie.toNat + 1 := by
  unfold HasCookies at hnext
  have hsucc : (l.nextCookie + 1).toNat = l.nextCookie.toNat + 1 := by
    rw [UInt64.toNat_add]
    exact Nat.mod_eq_of_lt hnext
  exact hsucc

/-- The next cookie belongs to no request. -/
theorem Coherent.phase?_nextCookie (hl : l.Coherent) : l.phase? ⟨l.nextCookie⟩ = none := by
  refine Classical.byContradiction fun h => ?_
  exact Nat.lt_irrefl _ (hl.issued _ h).2

/-- A container has one owner, and the owner names it back. -/
theorem Coherent.containerOf?_eq_iff (hl : l.Coherent) (c : Cookie) (k : ContainerId) :
    l.containerOf? c = some k ↔ l.ownerOf? k = some c := by
  have hactive := hl.active c k
  have hleaving := hl.leaving c k
  rw [containerOf?_eq, ownerOf?]
  constructor
  · intro h
    obtain ⟨phase, hphase, hk⟩ := Option.bind_eq_some_iff.mp h
    cases phase with
    | pending => cases hk
    | requested asked => cases hk
    | allocated k' =>
        cases hk
        rw [hactive.mp hphase]
        rfl
    | releasing k' =>
        cases hk
        rw [hleaving.mp hphase]
        rfl
  · intro h
    obtain ⟨assignment, hassignment, hc⟩ := Option.bind_eq_some_iff.mp h
    cases assignment with
    | active c' =>
        cases hc
        rw [hactive.mpr hassignment]
        rfl
    | beingReleased c' =>
        cases hc
        rw [hleaving.mpr hassignment]
        rfl
    | idle since => cases hc
    | released task => cases hc

/-! ## Every operation keeps it -/

theorem Coherent.add (hl : l.Coherent) (hnext : l.HasCookies) (request : TaskRequest) :
    (l.add request).2.Coherent := by
  have hfresh := hl.phase?_nextCookie
  have hsucc := toNat_nextCookie_add hnext request
  have hheld : ∀ k, (l.add request).2.assignment? k = l.assignment? k := fun _ => rfl
  refine ⟨by omega, fun c hc => ?_, fun c k => ?_, fun c k => ?_, hl.keyed⟩
  · rw [phase?_add] at hc
    split at hc
    · next hcookie =>
      subst hcookie
      exact ⟨hl.started, hsucc ▸ Nat.lt_succ_self _⟩
    · have := hl.issued c hc
      omega
  · rw [phase?_add, hheld, ← hl.active]
    split
    · next hcookie => simp [hcookie, hfresh]
    · rfl
  · rw [phase?_add, hheld, ← hl.leaving]
    split
    · next hcookie => simp [hcookie, hfresh]
    · rfl

/-- Who has no container does not run and does not leave. -/
private theorem ne_of_container?_none {phase : Option Phase}
    (h : phase.bind Phase.container? = none) (k : ContainerId) :
    phase ≠ some (.allocated k) ∧ phase ≠ some (.releasing k) := by
  constructor
  · intro heq
    rw [heq] at h
    cases h
  · intro heq
    rw [heq] at h
    cases h

/-- A request that has no container and gets none may be in any other phase. -/
private theorem Coherent.relabel (hl : l.Coherent) {phase : Option Phase}
    (hnext : l'.nextCookie = l.nextCookie)
    (hphase : ∀ c, l'.phase? c = if c = cookie then phase else l.phase? c)
    (hassign : ∀ k, l'.assignment? k = l.assignment? k)
    (hlive : l.phase? cookie ≠ none) (hfree : l.containerOf? cookie = none)
    (hstill : phase.bind Phase.container? = none)
    (hkeyed : ∀ k h, l'.held.get? k = some h → h.container.id = k) : l'.Coherent := by
  have hbefore := ne_of_container?_none (containerOf?_eq l cookie ▸ hfree)
  have hafter := ne_of_container?_none hstill
  refine ⟨hnext ▸ hl.started, fun c hc => hnext ▸ hl.issued c ?_, fun c k => ?_,
    fun c k => ?_, hkeyed⟩
  · rw [hphase] at hc
    split at hc
    · next hcookie => exact hcookie ▸ hlive
    · exact hc
  · rw [hphase, hassign, ← hl.active]
    split
    · next hcookie => exact iff_of_false (hafter k).1 (hcookie ▸ (hbefore k).1)
    · rfl
  · rw [hphase, hassign, ← hl.leaving]
    split
    · next hcookie => exact iff_of_false (hafter k).2 (hcookie ▸ (hbefore k).2)
    · rfl

theorem Coherent.markRequested (hl : l.Coherent) {asked : List ContainerRequest}
    (h : l.markRequested cookie asked = (.ok (), l')) : l'.Coherent := by
  have hphase := phase?_markRequested h
  have hheld : ∀ k, l'.assignment? k = l.assignment? k := fun k => by
    rw [assignment?, held_markRequested h, assignment?]
  obtain ⟨request, hentry, rfl⟩ := markRequested_ok h
  have hpending := phase?_of_get? hentry
  refine hl.relabel rfl hphase hheld ?_ ?_ rfl hl.keyed
  · rw [hpending]
    exact Option.some_ne_none _
  · rw [containerOf?_eq, hpending]
    rfl

/-- A waiting request is given a container that nobody uses. -/
private theorem Coherent.give (hl : l.Coherent) (hnext : l'.nextCookie = l.nextCookie)
    (hphase : ∀ c, l'.phase? c = if c = cookie then some (.allocated id) else l.phase? c)
    (hassign : ∀ k, l'.assignment? k = if k = id then some (.active cookie)
      else l.assignment? k)
    (hlive : l.phase? cookie ≠ none) (hfree : l.containerOf? cookie = none)
    (hvacant : l.ownerOf? id = none)
    (hkeyed : ∀ k h, l'.held.get? k = some h → h.container.id = k) : l'.Coherent := by
  -- neither side is named by anybody, so no third party has to change its mind
  have hnowhere : ∀ k, l.ownerOf? k ≠ some cookie := by
    intro k hk
    rw [← hl.containerOf?_eq_iff, hfree] at hk
    cases hk
  have hnobody : ∀ c, l.containerOf? c ≠ some id := by
    intro c hc
    rw [hl.containerOf?_eq_iff, hvacant] at hc
    cases hc
  -- so the two name nobody but each other
  have hcross : ∀ c k, (c = cookie ↔ ¬ k = id) →
      (l'.phase? c).bind Phase.container? ≠ some k ∧
      (l'.assignment? k).bind Assignment.owner? ≠ some c := by
    intro c k hone
    rw [hphase, hassign]
    by_cases hc : c = cookie
    · have hk : ¬ k = id := hone.mp hc
      rw [if_pos hc, if_neg hk]
      exact ⟨fun h => hk (Option.some.inj h).symm, hc ▸ hnowhere k⟩
    · have hk : k = id := Classical.byContradiction fun h => hc (hone.mpr h)
      rw [if_neg hc, if_pos hk, ← containerOf?_eq, hk]
      exact ⟨hnobody c, fun h => hc (Option.some.inj h).symm⟩
  -- a phase and an assignment that name each other go together as before
  have hagree : ∀ c k phase assignment, phase.container? = some k →
      assignment.owner? = some c →
      (l.phase? c = some phase ↔ l.assignment? k = some assignment) →
      (c = cookie → k = id → (.allocated id = phase ↔ .active cookie = assignment)) →
      (l'.phase? c = some phase ↔ l'.assignment? k = some assignment) := by
    intro c k phase assignment hk hc hold hnew
    by_cases hone : c = cookie ↔ ¬ k = id
    · obtain ⟨hphase', hassign'⟩ := hcross c k hone
      refine iff_of_false (fun h => hphase' ?_) (fun h => hassign' ?_)
      · rw [h]
        exact hk
      · rw [h]
        exact hc
    · rw [hphase, hassign]
      by_cases hcookie : c = cookie
      · have hid : k = id := Classical.byContradiction fun h => hone (iff_of_true hcookie h)
        rw [if_pos hcookie, if_pos hid, Option.some_inj, Option.some_inj]
        exact hnew hcookie hid
      · have hid : ¬ k = id := fun h => hone (iff_of_false hcookie (not_not_intro h))
        rw [if_neg hcookie, if_neg hid]
        exact hold
  refine ⟨hnext ▸ hl.started, fun c hc => hnext ▸ hl.issued c ?_, fun c k => ?_,
    fun c k => ?_, hkeyed⟩
  · rw [hphase] at hc
    split at hc
    · next hcookie => exact hcookie ▸ hlive
    · exact hc
  · refine hagree c k _ _ rfl rfl (hl.active c k) ?_
    intro hcookie hid
    rw [hcookie, hid]
    exact iff_of_true rfl rfl
  · refine hagree c k _ _ rfl rfl (hl.leaving c k) ?_
    intro _ _
    exact iff_of_false nofun nofun

theorem Coherent.allocate (hl : l.Coherent) {container : Container} {previous : RequestState}
    (h : l.allocate now cookie container = (.ok previous, l')) : l'.Coherent := by
  have hphase := phase?_allocate h
  have hassign := assignment?_allocate h
  have hkeyed := Keyed.allocate hl.keyed h
  obtain ⟨entry, hnew, hentry, hfree, -, rfl⟩ := allocate_ok h
  refine hl.give rfl hphase hassign ?_ ?_ ?_ hkeyed
  · rw [phase?_of_get? hentry]
    exact Option.some_ne_none _
  · rw [containerOf?_eq, phase?_of_get? hentry]
    exact hfree
  · simp [ownerOf?, assignment?, hnew]

theorem Coherent.assignIdle (hl : l.Coherent) {container : Container}
    {previous : RequestState}
    (h : l.assignIdle now cookie id = (.ok (container, previous), l')) : l'.Coherent := by
  have hphase := phase?_assignIdle h
  have hassign := assignment?_assignIdle h
  have hkeyed := Keyed.assignIdle hl.keyed h
  obtain ⟨entry, held, hentry, hfree, hheld, hidle, -, -, rfl⟩ := assignIdle_ok h
  refine hl.give rfl hphase hassign ?_ ?_ ?_ hkeyed
  · rw [phase?_of_get? hentry]
    exact Option.some_ne_none _
  · rw [containerOf?_eq, phase?_of_get? hentry]
    exact hfree
  · rw [ownerOf?_of_get? hheld]
    cases hassignment : held.assignment with
    | idle since => rfl
    | _ => simp [Holding.isIdle, Assignment.isIdle, hassignment] at hidle

theorem Coherent.beginRelease (hl : l.Coherent) {victim : Cookie}
    (h : l.beginRelease id = (.ok victim, l')) : l'.Coherent := by
  have hphase := phase?_beginRelease h
  have hassign := assignment?_beginRelease h
  have hkeyed := Keyed.beginRelease hl.keyed h
  obtain ⟨held, hheld, hactive, rfl⟩ := beginRelease_ok h
  have hstill : l.assignment? id = some (.active victim) := hactive ▸ assignment?_of_get? hheld
  have hrunning : l.phase? victim = some (.allocated id) := (hl.active victim id).mpr hstill
  refine ⟨hl.started, fun c hc => hl.issued c ?_, fun c k => ?_, fun c k => ?_, hkeyed⟩
  · rw [hphase] at hc
    split at hc
    · next hcookie =>
      rw [hcookie, hrunning]
      exact Option.some_ne_none _
    · exact hc
  · have hold := hl.active c k
    rw [hphase, hassign]
    grind
  · -- nobody else runs in the container, so nobody else can be the one that leaves it
    have hold := hl.leaving c k
    have hother := hl.active c k
    rw [hphase, hassign]
    grind

/-- A container parts with its owner, and the owner leaves the ledger. -/
private theorem Coherent.part (hl : l.Coherent) (hnext : l'.nextCookie = l.nextCookie)
    (hphase : ∀ c, l'.phase? c = if l.ownerOf? id = some c then none else l.phase? c)
    (hassign : ∀ k, k ≠ id → l'.assignment? k = l.assignment? k)
    (hfree : l'.ownerOf? id = none)
    (hkeyed : ∀ k h, l'.held.get? k = some h → h.container.id = k) : l'.Coherent := by
  have howner : ∀ c, l.ownerOf? id = some c → (l.phase? c).bind Phase.container? = some id := by
    intro c hc
    rw [← containerOf?_eq]
    exact (hl.containerOf?_eq_iff c id).mpr hc
  refine ⟨hnext ▸ hl.started, fun c hc => hnext ▸ hl.issued c ?_, fun c k => ?_,
    fun c k => ?_, hkeyed⟩
  · rw [hphase] at hc
    split at hc
    · exact absurd rfl hc
    · exact hc
  · -- whoever else names a container names another one
    have hold := hl.active c k
    have hparted := howner c
    rw [hphase]
    grind [ownerOf?, Assignment.owner?, Phase.container?]
  · have hold := hl.leaving c k
    have hparted := howner c
    rw [hphase]
    grind [ownerOf?, Assignment.owner?, Phase.container?]

/-- Nobody runs in a container that was vacated. -/
theorem owner?_vacate (now : Instant) (task : TaskId) (a : Assignment) :
    (vacate now task a).owner? = none := by
  cases a <;> rfl

theorem Coherent.remove (hl : l.Coherent) {removed : RemovedRequest}
    (h : l.remove now cookie = (.ok removed, l')) : l'.Coherent := by
  have hphase := phase?_remove h
  have hassign := assignment?_remove h
  have hkeyed := Keyed.remove hl.keyed h
  obtain ⟨entry, hentry, -, -, hnext, -, -⟩ := remove_ok h
  cases hcontainer : l.containerOf? cookie with
  | none =>
      refine hl.relabel hnext hphase (fun k => ?_) ?_ hcontainer rfl hkeyed
      · rw [hassign, hcontainer, if_neg nofun]
      · rw [phase?_of_get? hentry]
        exact Option.some_ne_none _
  | some id =>
      -- the container that the request names is its own, so both leave each other
      have howner := (hl.containerOf?_eq_iff cookie id).mp hcontainer
      have hgone : ∀ c, l'.phase? c = if l.ownerOf? id = some c then none else l.phase? c := by
        intro c
        rw [hphase, howner]
        simp [eq_comm]
      refine hl.part hnext hgone (fun k hk => ?_) ?_ hkeyed
      · rw [hassign, hcontainer, if_neg]
        exact fun heq => hk (Option.some.inj heq).symm
      · rw [ownerOf?, hassign, hcontainer, if_pos rfl]
        cases l.assignment? id with
        | none => rfl
        | some a => exact owner?_vacate now removed.request.task a

theorem Coherent.release (hl : l.Coherent) {task : Option TaskId}
    (h : l.release id = (.ok task, l')) : l'.Coherent := by
  have hassign := assignment?_release h
  have hkeyed := Keyed.release hl.keyed h
  obtain ⟨held, -, -, -, hnext, -, -⟩ := release_ok h
  refine hl.part hnext (phase?_release h) (fun k hk => ?_) ?_ hkeyed
  · rw [hassign, if_neg hk]
  · rw [ownerOf?, hassign, if_pos rfl]
    rfl

theorem Coherent.complete (hl : l.Coherent) {done : CompletedContainer}
    (h : l.complete id = (.ok done, l')) : l'.Coherent := by
  have hassign := assignment?_complete h
  have hkeyed := Keyed.complete hl.keyed h
  obtain ⟨held, -, -, -, hnext, -, -⟩ := complete_ok h
  refine hl.part hnext (phase?_complete h) (fun k hk => ?_) ?_ hkeyed
  · rw [hassign, if_neg hk]
  · rw [ownerOf?, hassign, if_pos rfl]
    rfl

/-! ## Ledgers that operations can build -/

/-- An operation on a ledger with its arguments. -/
inductive Operation where
  | add (request : TaskRequest)
  | markRequested (cookie : Cookie) (asked : List ContainerRequest)
  | remove (now : Instant) (cookie : Cookie)
  | allocate (now : Instant) (cookie : Cookie) (container : Container)
  | assignIdle (now : Instant) (cookie : Cookie) (id : ContainerId)
  | beginRelease (id : ContainerId)
  | release (id : ContainerId)
  | complete (id : ContainerId)

/-- The operation issues a cookie. -/
def Operation.isAdd : Operation → Bool
  | .add _ => true
  | _ => false

/-- What is answered when an operation goes through. -/
inductive Answer where
  | issued (cookie : Cookie)
  | marked
  | removed (request : RemovedRequest)
  | allocated (previous : RequestState)
  | assigned (container : Container) (previous : RequestState)
  | taken (victim : Cookie)
  | released (task : Option TaskId)
  | completed (done : CompletedContainer)
deriving DecidableEq

/-- What is answered, put into one type for all operations. -/
def reply {α σ : Type} (f : α → Answer) (result : Except LedgerError α × σ) :
    Except LedgerError Answer × σ :=
  (result.1.map f, result.2)

/-- The cause of a refusal is what the ledger answered. -/
theorem error_of_reply {α : Type} {f : α → Answer} {result : Except LedgerError α × Ledger}
    {cause : LedgerError} (h : (reply f result).1 = .error cause) : result.1 = .error cause := by
  obtain ⟨answer, l'⟩ := result
  cases answer <;> simp_all [reply, Except.map]

/-- An operation carried out: the answer, or why it is refused, and the ledger that it
leaves. -/
def perform (l : Ledger) : Operation → Except LedgerError Answer × Ledger
  | .add request => (.ok (.issued (l.add request).1), (l.add request).2)
  | .markRequested cookie asked => reply (fun () => .marked) (l.markRequested cookie asked)
  | .remove now cookie => reply .removed (l.remove now cookie)
  | .allocate now cookie container => reply .allocated (l.allocate now cookie container)
  | .assignIdle now cookie id =>
    reply (fun (container, previous) => .assigned container previous)
      (l.assignIdle now cookie id)
  | .beginRelease id => reply .taken (l.beginRelease id)
  | .release id => reply .released (l.release id)
  | .complete id => reply .completed (l.complete id)

/-- The answer to an operation. -/
def answer (l : Ledger) (op : Operation) : Except LedgerError Answer :=
  (l.perform op).1

/-- The ledger that an operation leaves, whether it went through or was refused. -/
def after (l : Ledger) (op : Operation) : Ledger :=
  (l.perform op).2

/-- The ledger after a sequence of operations. -/
def run (l : Ledger) (ops : List Operation) : Ledger :=
  ops.foldl after l

theorem after_allocate {container : Container} {previous : RequestState}
    (h : l.allocate now cookie container = (.ok previous, l')) :
    l.after (.allocate now cookie container) = l' := by
  simp [after, perform, reply, h]

theorem after_assignIdle {container : Container} {previous : RequestState}
    (h : l.assignIdle now cookie id = (.ok (container, previous), l')) :
    l.after (.assignIdle now cookie id) = l' := by
  simp [after, perform, reply, h]

/-- The operation goes through and leaves the other ledger. -/
inductive Goes (l : Ledger) : Operation → Ledger → Prop
  | add (request : TaskRequest) : Goes l (.add request) (l.add request).2
  | markRequested {cookie asked l'} (h : l.markRequested cookie asked = (.ok (), l')) :
      Goes l (.markRequested cookie asked) l'
  | remove {now cookie removed l'} (h : l.remove now cookie = (.ok removed, l')) :
      Goes l (.remove now cookie) l'
  | allocate {now cookie container previous l'}
      (h : l.allocate now cookie container = (.ok previous, l')) :
      Goes l (.allocate now cookie container) l'
  | assignIdle {now cookie id container previous l'}
      (h : l.assignIdle now cookie id = (.ok (container, previous), l')) :
      Goes l (.assignIdle now cookie id) l'
  | beginRelease {id victim l'} (h : l.beginRelease id = (.ok victim, l')) :
      Goes l (.beginRelease id) l'
  | release {id task l'} (h : l.release id = (.ok task, l')) : Goes l (.release id) l'
  | complete {id done l'} (h : l.complete id = (.ok done, l')) : Goes l (.complete id) l'

/-- An operation is refused and changes nothing, or it goes through. -/
theorem refused_or_goes (l : Ledger) (op : Operation) :
    (∃ cause, l.answer op = .error cause ∧ l.after op = l) ∨ l.Goes op (l.after op) := by
  have cases_of : ∀ {α : Type} {f : α → Answer} {result : Except LedgerError α × Ledger},
      Atomic l result → (∀ a l', result = (.ok a, l') → l.Goes op l') →
      (∃ cause, (reply f result).1 = .error cause ∧ (reply f result).2 = l) ∨
        l.Goes op (reply f result).2 := by
    rintro α f ⟨cause | a, l'⟩ hatomic hok
    · exact .inl ⟨cause, rfl, hatomic cause l' rfl⟩
    · exact .inr (hok a l' rfl)
  cases op with
  | add request => exact .inr (.add request)
  | markRequested cookie asked => exact cases_of atomic_markRequested fun _ _ h => .markRequested h
  | remove now cookie => exact cases_of atomic_remove fun _ _ h => .remove h
  | allocate now cookie container => exact cases_of atomic_allocate fun _ _ h => .allocate h
  | assignIdle now cookie id => exact cases_of atomic_assignIdle fun _ _ h => .assignIdle h
  | beginRelease id => exact cases_of atomic_beginRelease fun _ _ h => .beginRelease h
  | release id => exact cases_of atomic_release fun _ _ h => .release h
  | complete id => exact cases_of atomic_complete fun _ _ h => .complete h

theorem Goes.answer {op : Operation} (h : l.Goes op l') : ∃ a, l.answer op = .ok a := by
  cases h <;> simp [Ledger.answer, perform, reply, Except.map, *]

/-- What holds of the ledger itself, and of the ledger that the operation leaves when it goes
through, holds of the ledger after the operation. -/
theorem of_goes {P : Ledger → Prop} {op : Operation} (hl : P l)
    (hgoes : ∀ l', l.Goes op l' → P l') : P (l.after op) := by
  rcases l.refused_or_goes op with ⟨cause, -, hsame⟩ | h
  · exact hsame.symm ▸ hl
  · exact hgoes _ h

theorem Coherent.after (hl : l.Coherent) (op : Operation)
    (hnext : op.isAdd = true → l.HasCookies) : (l.after op).Coherent := by
  refine of_goes hl fun l' h => ?_
  cases h with
  | add request => exact hl.add (hnext rfl) request
  | markRequested h => exact hl.markRequested h
  | remove h => exact hl.remove h
  | allocate h => exact hl.allocate h
  | assignIdle h => exact hl.assignIdle h
  | beginRelease h => exact hl.beginRelease h
  | release h => exact hl.release h
  | complete h => exact hl.complete h

theorem Keyed.after (hl : l.Keyed) (op : Operation) : (l.after op).Keyed := by
  refine of_goes hl fun l' h => ?_
  cases h with
  | add request => exact hl
  | markRequested h => exact hl.markRequested h
  | remove h => exact hl.remove h
  | allocate h => exact hl.allocate h
  | assignIdle h => exact hl.assignIdle h
  | beginRelease h => exact hl.beginRelease h
  | release h => exact hl.release h
  | complete h => exact hl.complete h

/-- No cookies are needed to keep containers under their names. -/
theorem Keyed.run (hl : l.Keyed) (ops : List Operation) : (l.run ops).Keyed := by
  induction ops generalizing l with
  | nil => exact hl
  | cons op ops ih => exact ih (hl.after op)

/-- Only `add` moves the counter of cookies. -/
theorem nextCookie_after {op : Operation} (hop : op.isAdd = false) :
    (l.after op).nextCookie = l.nextCookie := by
  refine of_goes (P := fun l' => l'.nextCookie = l.nextCookie) rfl fun l' h => ?_
  cases h with
  | add request => cases hop
  | markRequested h =>
      obtain ⟨request, -, rfl⟩ := markRequested_ok h
      rfl
  | remove h =>
      obtain ⟨entry, -, -, -, hnext, -, -⟩ := remove_ok h
      exact hnext
  | allocate h =>
      obtain ⟨entry, -, -, -, -, rfl⟩ := allocate_ok h
      rfl
  | assignIdle h =>
      obtain ⟨entry, held, -, -, -, -, -, -, rfl⟩ := assignIdle_ok h
      rfl
  | beginRelease h =>
      obtain ⟨held, -, -, rfl⟩ := beginRelease_ok h
      rfl
  | release h =>
      obtain ⟨held, -, -, -, hnext, -, -⟩ := release_ok h
      exact hnext
  | complete h =>
      obtain ⟨held, -, -, -, hnext, -, -⟩ := complete_ok h
      exact hnext

/-- Cookies that suffice for a sequence of operations suffice for the first of them and,
after it, for the others. -/
theorem hasCookies_of_countP {op : Operation} {ops : List Operation}
    (hadds : l.nextCookie.toNat + (op :: ops).countP Operation.isAdd < 2 ^ 64) :
    (op.isAdd = true → l.HasCookies) ∧
      (l.after op).nextCookie.toNat + ops.countP Operation.isAdd < 2 ^ 64 := by
  rw [List.countP_cons] at hadds
  cases hop : op.isAdd with
  | false =>
      refine ⟨nofun, ?_⟩
      rw [nextCookie_after hop]
      omega
  | true =>
      simp only [hop, if_true] at hadds
      have hnext : l.HasCookies := by
        unfold HasCookies
        omega
      obtain ⟨request, rfl⟩ : ∃ request, op = .add request := by
        cases op <;> simp_all [Operation.isAdd]
      have hsucc := toNat_nextCookie_add hnext request
      refine ⟨fun _ => hnext, ?_⟩
      show (l.add request).2.nextCookie.toNat + _ < _
      rw [hsucc]
      omega

theorem run_append (l : Ledger) (ops later : List Operation) :
    l.run (ops ++ later) = (l.run ops).run later :=
  List.foldl_append

/-- Cookies that suffice for a run suffice for the rest of it. -/
theorem countP_run {ops later : List Operation}
    (hadds : l.nextCookie.toNat + (ops ++ later).countP Operation.isAdd < 2 ^ 64) :
    (l.run ops).nextCookie.toNat + later.countP Operation.isAdd < 2 ^ 64 := by
  induction ops generalizing l with
  | nil => exact hadds
  | cons op ops ih => exact ih (hasCookies_of_countP hadds).2

/-- A run keeps the tables in agreement as long as it does not use up the cookies. -/
theorem Coherent.run (hl : l.Coherent) (ops : List Operation)
    (hadds : l.nextCookie.toNat + ops.countP Operation.isAdd < 2 ^ 64) :
    (l.run ops).Coherent := by
  induction ops generalizing l with
  | nil => exact hl
  | cons op ops ih =>
      obtain ⟨hnext, hrest⟩ := hasCookies_of_countP hadds
      exact ih (hl.after op hnext) hrest

/-- The first cookie is 1, so a new ledger has one less than there are words. -/
theorem cookies_of_empty {ops : List Operation}
    (hadds : ops.countP Operation.isAdd < 2 ^ 64 - 1) :
    empty.nextCookie.toNat + ops.countP Operation.isAdd < 2 ^ 64 := by
  have hstart : empty.nextCookie.toNat = 1 := rfl
  omega

theorem coherent_run (ops : List Operation) (hadds : ops.countP Operation.isAdd < 2 ^ 64 - 1) :
    (empty.run ops).Coherent :=
  coherent_empty.run ops (cookies_of_empty hadds)

/-! ## Ownership -/

/-- Requests and containers own each other, one to one, and nothing else is said of
either. -/
structure Ownership (l : Ledger) : Prop where
  /-- A live request is in one of four states. -/
  state : ∀ c state, l.state? c = some state →
    state = .pending ∨ state = .requested ∨ state = .allocated ∨ state = .releasing
  /-- It has no container exactly while it waits for one. -/
  waiting : ∀ c state, l.state? c = some state →
    (l.containerOf? c = none ↔ state = .pending ∨ state = .requested)
  allocated : ∀ c k, l.state? c = some .allocated ∧ l.containerOf? c = some k ↔
    (l.holding? k).map Holding.assignment = some (.active c)
  releasing : ∀ c k, l.state? c = some .releasing ∧ l.containerOf? c = some k ↔
    (l.holding? k).map Holding.assignment = some (.beingReleased c)
  /-- A container in use names a live request that names it back. -/
  named : ∀ c k h, l.holding? k = some h → h.assignment.owner? = some c →
    (l.state? c).isSome ∧ l.containerOf? c = some k
  /-- No two requests share a container. -/
  unshared : ∀ c c' k, l.containerOf? c = some k → l.containerOf? c' = some k → c = c'
  /-- No request owns two containers. -/
  single : ∀ c k k' h h', l.holding? k = some h → l.holding? k' = some h' →
    h.assignment.owner? = some c → h'.assignment.owner? = some c → k = k'
  keyed : ∀ k h, l.holding? k = some h → h.container.id = k
  /-- The cluster is asked on behalf of submitted requests only. -/
  asked : ∀ c, l.askedFor c ≠ [] → l.state? c = some .requested

theorem Coherent.ownership (hl : l.Coherent) : l.Ownership := by
  have howner := hl.containerOf?_eq_iff
  have hstate : ∀ c state, l.state? c = some state →
      ∃ phase, l.phase? c = some phase ∧ phase.state = state := fun c state h =>
    Option.map_eq_some_iff.mp (state?_eq l c ▸ h)
  refine ⟨fun c state h => ?_, fun c state h => ?_, fun c k => ?_, fun c k => ?_,
    fun c k h hk hc => ?_, fun c c' k hc hc' => ?_, fun c k k' h h' hk hk' hc hc' => ?_,
    hl.keyed, fun c h => ?_⟩
  · obtain ⟨phase, -, rfl⟩ := hstate c state h
    cases phase <;> simp [Phase.state]
  · obtain ⟨phase, hphase, rfl⟩ := hstate c state h
    rw [containerOf?_eq, hphase]
    cases phase <;> simp [Phase.state, Phase.container?]
  · rw [show (l.holding? k).map Holding.assignment = l.assignment? k from rfl, ← hl.active,
      state?_eq, containerOf?_eq]
    cases l.phase? c with
    | none => simp
    | some phase => cases phase <;> simp [Phase.state, Phase.container?]
  · rw [show (l.holding? k).map Holding.assignment = l.assignment? k from rfl, ← hl.leaving,
      state?_eq, containerOf?_eq]
    cases l.phase? c with
    | none => simp
    | some phase => cases phase <;> simp [Phase.state, Phase.container?]
  · have hnamed : l.containerOf? c = some k :=
      (howner c k).mpr (ownerOf?_of_get? hk ▸ hc)
    refine ⟨?_, hnamed⟩
    rw [containerOf?_eq] at hnamed
    obtain ⟨phase, hphase, -⟩ := Option.bind_eq_some_iff.mp hnamed
    rw [state?_eq, hphase]
    rfl
  · have hboth := ((howner c k).mp hc).symm.trans ((howner c' k).mp hc')
    exact Option.some.inj hboth
  · have hnamed := (howner c k).mpr (ownerOf?_of_get? hk ▸ hc)
    have hnamed' := (howner c k').mpr (ownerOf?_of_get? hk' ▸ hc')
    exact Option.some.inj (hnamed.symm.trans hnamed')
  · unfold askedFor at h
    split at h
    · next entry hentry =>
      rw [state?_eq, phase?_of_get? hentry]
      cases hphase : entry.phase <;> simp_all [Phase.asked, Phase.state]
    · exact absurd rfl h

/-- Whatever is asked of a ledger, and whether or not it is granted, requests and
containers own each other one to one. -/
theorem ownership_run (ops : List Operation)
    (hadds : ops.countP Operation.isAdd < 2 ^ 64 - 1) : (empty.run ops).Ownership :=
  (coherent_run ops hadds).ownership

/-- Two requests use one container in turn; the second is about to lose it, and a third
asks for it in vain. -/
theorem ownership_run_handover :
    let request : TaskRequest := ⟨⟨7⟩, ⟨1024, 1⟩, ⟨5⟩, ⟨[], [], true⟩, ⟨0, ⟨⟨1024, 1⟩, .empty, .empty⟩⟩⟩
    let container : Container := ⟨⟨"c_1"⟩, ⟨"host1", 8041⟩, none, ⟨1024, 1⟩, ⟨5⟩, none, none⟩
    let ops : List Operation := [.add request, .markRequested ⟨1⟩ (request.tiers ⟨1⟩),
      .allocate .epoch ⟨1⟩ container, .add request, .remove .epoch ⟨1⟩,
      .assignIdle .epoch ⟨2⟩ ⟨"c_1"⟩, .beginRelease ⟨"c_1"⟩, .add request,
      .assignIdle .epoch ⟨3⟩ ⟨"c_1"⟩]
    (empty.run ops).Ownership ∧ (empty.run ops).state? ⟨2⟩ = some .releasing ∧
      (empty.run ops).containerOf? ⟨2⟩ = some ⟨"c_1"⟩ ∧
      (empty.run ops).state? ⟨1⟩ = none ∧ (empty.run ops).containerOf? ⟨3⟩ = none := by
  intro request container ops
  exact ⟨ownership_run ops (by decide), by decide, by decide, by decide, by decide⟩

end TaskFleet.Ledger
