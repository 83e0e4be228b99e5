import TaskFleet.Ledger.Raw
import TaskFleet.Proofs.Ledger.Ownership

/-!
# The ledger and its fields

`RawLedger` writes the fields of a request one by one, `Ledger` replaces its phase as a whole.
On the fields of a coherent ledger both do the same: they answer alike, refusals included, and
the fields that the one leaves are those of the ledger that the other leaves
(`Coherent.perform_raw`).  Coherence is kept, so whole runs agree (`Coherent.run_raw`).

Only `beginRelease` needs the coherence.  It writes the state of the request and leaves its
container and what was asked for alone, which is right because a container that is in use
names a request that names it back.

A refusal changes no field, and for that no coherence is needed (`RawLedger.atomic_perform`).

So the rules that a phase keeps by its form, `RawEntry.Phased`, hold of the fields after any
operations (`RawLedger.phased_run`), although no operation checks all of them.
-/

namespace TaskFleet

open Ledger (Operation Answer reply)

variable {cookie : Cookie} {id : ContainerId}

/-- What is atomic stays so when its answer is put into another form. -/
theorem Atomic.reply {σ α : Type} {s : σ} {result : Except LedgerError α × σ}
    {f : α → Answer} (h : Atomic s result) : Atomic s (Ledger.reply f result) := by
  obtain ⟨answer, s'⟩ := result
  cases answer with
  | error cause =>
      obtain rfl : s' = s := h cause s' rfl
      exact .refused cause
  | ok a => exact .answered (f a)

/-! ## Operations -/

namespace RawLedger

variable {l : RawLedger}

/-- An operation carried out: the answer, or why it is refused, and the ledger that it
leaves. -/
def perform (l : RawLedger) : Operation → Except LedgerError Answer × RawLedger
  | .add request => (.ok (.issued (l.add request).1), (l.add request).2)
  | .markRequested cookie asked => reply (fun () => .marked) (l.markRequested cookie asked)
  | .remove now cookie => reply .removed (l.remove now cookie)
  | .allocate now cookie container => reply .allocated (l.allocate now cookie container)
  | .assignIdle now cookie id =>
    reply (fun (container, previous) => .assigned container previous)
      (l.assignIdle now cookie id)
  | .beginRelease id => reply .taken (l.beginRelease id)
  | .release id => reply .released (l.release id)
  | .complete id => reply .completed (l.complete id)

/-- The ledger after a sequence of operations. -/
def run (l : RawLedger) (ops : List Operation) : RawLedger :=
  ops.foldl (fun l op => (l.perform op).2) l

/-! ## Refusals -/

theorem atomic_markRequested {asked : List ContainerRequest} :
    Atomic l (l.markRequested cookie asked) := by
  unfold markRequested
  split
  · exact .refused _
  · split
    · exact .answered _
    · exact .refused _

theorem atomic_remove {now : Instant} : Atomic l (l.remove now cookie) := by
  unfold remove
  split
  · next hnone =>
    rw [SortedMap.erase_eq_self hnone]
    exact .refused _
  · exact .answered _

theorem atomic_allocate {now : Instant} {container : Container} :
    Atomic l (l.allocate now cookie container) := by
  unfold allocate
  split
  · exact .refused _
  · split
    · exact .refused _
    · split
      · exact .refused _
      · split
        · exact .answered _
        · exact .refused _

theorem atomic_assignIdle {now : Instant} : Atomic l (l.assignIdle now cookie id) := by
  unfold assignIdle
  split
  · exact .refused _
  · split
    · split
      · exact .refused _
      · split
        · exact .refused _
        · exact .answered _
    · exact .refused _

theorem atomic_beginRelease : Atomic l (l.beginRelease id) := by
  unfold beginRelease
  split
  · exact .refused _
  · split
    · exact .answered _
    · exact .refused _

theorem atomic_release : Atomic l (l.release id) := by
  unfold release
  split
  · exact .refused _
  · split
    case h_1 | h_2 | h_3 => exact .answered _
    case h_4 => exact .refused _

theorem atomic_complete : Atomic l (l.complete id) := by
  unfold complete
  split
  · next hnone =>
    rw [SortedMap.erase_eq_self hnone]
    exact .refused _
  · split <;> exact .answered _

/-- An operation that is refused leaves every field of every row as it was, whatever the
ledger is. -/
theorem atomic_perform (l : RawLedger) (op : Operation) : Atomic l (l.perform op) := by
  cases op with
  | add request => exact .answered _
  | markRequested cookie asked => exact atomic_markRequested.reply
  | remove now cookie => exact atomic_remove.reply
  | allocate now cookie container => exact atomic_allocate.reply
  | assignIdle now cookie id => exact atomic_assignIdle.reply
  | beginRelease id => exact atomic_beginRelease.reply
  | release id => exact atomic_release.reply
  | complete id => exact atomic_complete.reply

/-! ## Writes -/

theorem writeEntry_writeEntry (l : RawLedger) (cookie : Cookie) (f g : RawEntry → RawEntry) :
    (l.writeEntry cookie f).writeEntry cookie g = l.writeEntry cookie (g ∘ f) := by
  simp only [writeEntry, SortedMap.modify_modify]

theorem writeHeld_writeHeld (l : RawLedger) (id : ContainerId) (f g : RawHolding → RawHolding) :
    (l.writeHeld id f).writeHeld id g = l.writeHeld id (g ∘ f) := by
  simp only [writeHeld, SortedMap.modify_modify]

end RawLedger

namespace Ledger

variable {l : Ledger}

theorem raw_entries_get? (l : Ledger) (cookie : Cookie) :
    l.raw.entries.get? cookie = (l.entries.get? cookie).map Entry.raw :=
  SortedMap.get?_map ..

theorem raw_held_get? (l : Ledger) (id : ContainerId) :
    l.raw.held.get? id = (l.held.get? id).map Holding.raw :=
  SortedMap.get?_map ..

/-- The ledger with one request in another phase. -/
def putEntry (l : Ledger) (cookie : Cookie) (entry : Entry) : Ledger :=
  { l with entries := l.entries.insert cookie entry }

/-- The ledger with one container in other use. -/
def putHeld (l : Ledger) (id : ContainerId) (h : Holding) : Ledger :=
  { l with held := l.held.insert id h }

/-- Fields that are written over an entry are those of the entry that takes its place. -/
theorem raw_writeEntry {entry e : Entry} {write : RawEntry → RawEntry}
    (h : l.entries.get? cookie = some entry) (hwrite : write entry.raw = e.raw) :
    l.raw.writeEntry cookie write = (l.putEntry cookie e).raw := by
  simp only [RawLedger.writeEntry, raw, putEntry, SortedMap.modify_map_of_get? h hwrite]

theorem raw_writeHeld {h k : Holding} {write : RawHolding → RawHolding}
    (hheld : l.held.get? id = some h) (hwrite : write h.raw = k.raw) :
    l.raw.writeHeld id write = (l.putHeld id k).raw := by
  simp only [RawLedger.writeHeld, raw, putHeld, SortedMap.modify_map_of_get? hheld hwrite]

theorem putHeld_eq_self {h : Holding} (hheld : l.held.get? id = some h) : l.putHeld id h = l := by
  rw [putHeld, SortedMap.insert_eq_self hheld]

theorem raw_putHeld (l : Ledger) (id : ContainerId) (h : Holding) :
    (l.putHeld id h).raw = { l.raw with held := l.raw.held.insert id h.raw } := by
  simp only [raw, putHeld, SortedMap.map_insert]

theorem raw_eraseEntry (l : Ledger) (cookie : Cookie) :
    { l with entries := l.entries.erase cookie }.raw =
      { l.raw with entries := l.raw.entries.erase cookie } := by
  simp only [raw, SortedMap.map_erase]

theorem raw_eraseHeld (l : Ledger) (id : ContainerId) :
    { l with held := l.held.erase id }.raw = { l.raw with held := l.raw.held.erase id } := by
  simp only [raw, SortedMap.map_erase]

/-! ## Operations on the fields of a ledger -/

/-- What an operation answers, with the fields of the ledger that it leaves. -/
def shown {α : Type} (result : Except LedgerError α × Ledger) :
    Except LedgerError α × RawLedger :=
  (result.1, result.2.raw)

theorem raw_add (l : Ledger) (request : TaskRequest) :
    l.raw.add request = ((l.add request).1, (l.add request).2.raw) := by
  simp only [RawLedger.add, add, raw, SortedMap.map_insert]
  rfl

theorem raw_markRequested (l : Ledger) (cookie : Cookie) (asked : List ContainerRequest) :
    l.raw.markRequested cookie asked = shown (l.markRequested cookie asked) := by
  unfold RawLedger.markRequested markRequested
  rw [raw_entries_get?]
  cases hentry : l.entries.get? cookie with
  | none => rfl
  | some entry =>
      obtain ⟨request, phase⟩ := entry
      cases phase with
      | pending =>
          simp only [Option.map_some, RawLedger.writeEntry_writeEntry]
          rw [raw_writeEntry (e := ⟨request, .requested asked⟩) hentry rfl]
          rfl
      | requested _ | allocated _ | releasing _ => rfl

/-- A container that a removed request named is kept idle, or given back if it was being
taken away; otherwise it stays in its use. -/
theorem raw_vacate {entry : Entry} {h : Holding} (hcontainer : entry.phase.container? = some id)
    (hheld : l.held.get? id = some h) (now : Instant) :
    l.raw.vacate now entry.raw =
      (if h.assignment.activeCookie?.isSome then some id else none,
        (l.putHeld id { h with
          assignment := vacate now entry.request.task h.assignment }).raw) := by
  have hraw : entry.raw.container = some id := hcontainer
  unfold RawLedger.vacate
  simp only [hraw, raw_held_get?, hheld, Option.map_some]
  obtain ⟨container, signature, assignment, assignedAt, lastTask⟩ := h
  cases assignment with
  | active c => exact congrArg (Prod.mk _) (raw_writeHeld hheld rfl)
  | beingReleased c => exact congrArg (Prod.mk _) (raw_writeHeld hheld rfl)
  | idle since | released task =>
      exact congrArg (Prod.mk _) (congrArg raw (putHeld_eq_self hheld).symm)

theorem raw_remove (l : Ledger) (now : Instant) (cookie : Cookie) :
    l.raw.remove now cookie = shown (l.remove now cookie) := by
  unfold RawLedger.remove
  rw [raw_entries_get?, ← raw_eraseEntry]
  cases hentry : l.entries.get? cookie with
  | none => simp [remove, hentry, shown]
  | some entry =>
      cases hcontainer : entry.phase.container? with
      | none => simp [remove, hentry, hcontainer, shown, RawLedger.vacate, Entry.raw]
      | some id =>
          cases hheld : l.held.get? id with
          | none =>
              simp [remove, hentry, hcontainer, hheld, shown, RawLedger.vacate, Entry.raw,
                raw_held_get?]
          | some h =>
              simp only [Option.map_some, remove, hentry, hcontainer, hheld, shown,
                Option.bind_some]
              rw [raw_vacate (l := { l with entries := l.entries.erase cookie }) hcontainer hheld]
              rfl

theorem raw_allocate (l : Ledger) (now : Instant) (cookie : Cookie) (container : Container) :
    l.raw.allocate now cookie container = shown (l.allocate now cookie container) := by
  unfold RawLedger.allocate allocate
  have hheld : l.raw.held.contains container.id = l.held.contains container.id := by
    simp [SortedMap.contains, raw_held_get?]
  rw [hheld, raw_entries_get?]
  split
  · rfl
  · cases hentry : l.entries.get? cookie with
    | none => rfl
    | some entry =>
        obtain ⟨request, phase⟩ := entry
        cases phase with
        | pending | requested _ =>
            simp only [Option.map_some, RawLedger.writeEntry_writeEntry]
            rw [raw_writeEntry (e := ⟨request, .allocated container.id⟩) hentry rfl]
            show _ = (_, ((l.putEntry cookie _).putHeld container.id _).raw)
            rw [raw_putHeld]
            rfl
        | allocated _ | releasing _ => rfl

theorem raw_assignIdle (l : Ledger) (now : Instant) (cookie : Cookie) (id : ContainerId) :
    l.raw.assignIdle now cookie id = shown (l.assignIdle now cookie id) := by
  unfold RawLedger.assignIdle assignIdle
  rw [raw_held_get?, raw_entries_get?]
  cases hheld : l.held.get? id with
  | none => rfl
  | some h =>
      obtain ⟨container, signature, assignment, assignedAt, lastTask⟩ := h
      cases assignment with
      | idle since =>
          cases hentry : l.entries.get? cookie with
          | none => rfl
          | some entry =>
              obtain ⟨request, phase⟩ := entry
              cases phase with
              | pending | requested _ =>
                  simp only [Option.map_some, RawLedger.writeEntry_writeEntry,
                    RawLedger.writeHeld_writeHeld]
                  rw [raw_writeEntry (e := ⟨request, .allocated id⟩) hentry rfl,
                    raw_writeHeld (l := l.putEntry cookie _) (k := ⟨{ container with
                      cookie := some cookie }, signature, .active cookie, now, request.task⟩)
                      hheld rfl]
                  rfl
              | allocated _ | releasing _ => rfl
      | active _ | beingReleased _ | released _ => rfl

/-- Writing the state of the owner is enough, for the owner has the container already. -/
theorem Coherent.raw_beginRelease (hl : l.Coherent) (id : ContainerId) :
    l.raw.beginRelease id = shown (l.beginRelease id) := by
  unfold RawLedger.beginRelease Ledger.beginRelease
  rw [raw_held_get?]
  cases hheld : l.held.get? id with
  | none => rfl
  | some h =>
      obtain ⟨container, signature, assignment, assignedAt, lastTask⟩ := h
      cases assignment with
      | active cookie =>
          have hrunning : l.phase? cookie = some (.allocated id) :=
            (hl.active cookie id).mpr (assignment?_of_get? hheld)
          obtain ⟨⟨request, phase⟩, hentry, hphase⟩ := Option.map_eq_some_iff.mp hrunning
          cases hphase
          simp only [Option.map_some, Holding.raw]
          rw [raw_writeHeld (k := ⟨container, signature, .beingReleased cookie, assignedAt,
              lastTask⟩) hheld rfl,
            raw_writeEntry (l := l.putHeld id _) (e := ⟨request, .releasing id⟩) hentry rfl,
            SortedMap.modify_eq_insert hentry rfl]
          rfl
      | idle _ | beingReleased _ | released _ => rfl

theorem raw_release (l : Ledger) (id : ContainerId) :
    l.raw.release id = shown (l.release id) := by
  unfold RawLedger.release release
  rw [raw_held_get?]
  cases hheld : l.held.get? id with
  | none => rfl
  | some h =>
      obtain ⟨container, signature, assignment, assignedAt, lastTask⟩ := h
      cases assignment with
      | active cookie | beingReleased cookie =>
          simp only [Option.map_some, ← raw_eraseEntry]
          exact congrArg (Prod.mk _) (raw_writeHeld
            (l := { l with entries := l.entries.erase cookie }) hheld rfl)
      | idle since => exact congrArg (Prod.mk _) (raw_writeHeld hheld rfl)
      | released _ => rfl

theorem raw_complete (l : Ledger) (id : ContainerId) :
    l.raw.complete id = shown (l.complete id) := by
  unfold RawLedger.complete complete
  rw [raw_held_get?, ← raw_eraseHeld]
  cases hheld : l.held.get? id with
  | none => rfl
  | some h =>
      obtain ⟨container, signature, assignment, assignedAt, lastTask⟩ := h
      cases assignment with
      | active cookie | beingReleased cookie =>
          have hrest : ({ l with entries := l.entries.erase cookie, held := l.held.erase id } :
              Ledger).raw =
              { l.raw with
                entries := l.raw.entries.erase cookie
                held := (l.held.erase id).map Holding.raw } :=
            raw_eraseEntry { l with held := l.held.erase id } cookie
          simp only [Option.map_some, raw_entries_get?, shown, Holding.raw, hrest]
          cases l.entries.get? cookie <;> rfl
      | idle since => rfl
      | released _ => rfl

/-- An operation on the fields of a ledger answers what it answers on the ledger, and leaves
the fields of what it leaves there. -/
theorem Coherent.perform_raw (hl : l.Coherent) (op : Operation) :
    l.raw.perform op = shown (l.perform op) := by
  cases op with
  | add request =>
      rw [RawLedger.perform, raw_add]
      rfl
  | markRequested cookie asked => exact congrArg (reply _) (raw_markRequested l cookie asked)
  | remove now cookie => exact congrArg (reply _) (raw_remove l now cookie)
  | allocate now cookie container => exact congrArg (reply _) (raw_allocate l now cookie container)
  | assignIdle now cookie id => exact congrArg (reply _) (raw_assignIdle l now cookie id)
  | beginRelease id => exact congrArg (reply _) (hl.raw_beginRelease id)
  | release id => exact congrArg (reply _) (raw_release l id)
  | complete id => exact congrArg (reply _) (raw_complete l id)

/-- What operations write to the fields of a ledger are the fields of the ledger that they
leave, as long as the cookies do not run out. -/
theorem Coherent.run_raw (hl : l.Coherent) (ops : List Operation)
    (hadds : l.nextCookie.toNat + ops.countP Operation.isAdd < 2 ^ 64) :
    l.raw.run ops = (l.run ops).raw := by
  induction ops generalizing l with
  | nil => rfl
  | cons op ops ih =>
      obtain ⟨hnext, hrest⟩ := hasCookies_of_countP hadds
      have hstep : (l.raw.perform op).2 = (l.after op).raw := by
        rw [hl.perform_raw]
        rfl
      calc l.raw.run (op :: ops)
        _ = (l.raw.perform op).2.run ops := rfl
        _ = (l.after op).raw.run ops := by rw [hstep]
        _ = ((l.after op).run ops).raw := ih (hl.after op hnext) hrest

theorem raw_run (ops : List Operation) (hadds : ops.countP Operation.isAdd < 2 ^ 64 - 1) :
    RawLedger.empty.run ops = (empty.run ops).raw :=
  coherent_empty.run_raw ops (cookies_of_empty hadds)

end Ledger

/-! ## What a phase says of the fields -/

/-- A request is in one of four states, names a container exactly if it does not wait for one,
and remembers what was asked for only while it is requested. -/
structure RawEntry.Phased (entry : RawEntry) : Prop where
  state : entry.state = .pending ∨ entry.state = .requested ∨ entry.state = .allocated ∨
    entry.state = .releasing
  container : entry.container = none ↔ entry.state.isOutstanding = true
  asked : entry.state ≠ .requested → entry.asked = []

theorem Entry.phased_raw (entry : Entry) : entry.raw.Phased := by
  obtain ⟨request, phase⟩ := entry
  cases phase with
  | pending => exact ⟨.inl rfl, iff_of_true rfl rfl, fun _ => rfl⟩
  | requested asked => exact ⟨.inr (.inl rfl), iff_of_true rfl rfl, fun h => absurd rfl h⟩
  | allocated id => exact ⟨.inr (.inr (.inl rfl)), iff_of_false nofun nofun, fun _ => rfl⟩
  | releasing id => exact ⟨.inr (.inr (.inr rfl)), iff_of_false nofun nofun, fun _ => rfl⟩

/-- No more than this is in the form of a phase. -/
theorem RawEntry.Phased.exists_raw {entry : RawEntry} (h : entry.Phased) :
    ∃ e : Entry, e.raw = entry := by
  obtain ⟨hstate, hcontainer, hasked⟩ := h
  obtain ⟨request, state, container, asked⟩ := entry
  dsimp only at hstate hcontainer hasked
  rcases hstate with rfl | rfl | rfl | rfl
  · obtain rfl := hcontainer.mpr rfl
    obtain rfl := hasked nofun
    exact ⟨⟨request, .pending⟩, rfl⟩
  · obtain rfl := hcontainer.mpr rfl
    exact ⟨⟨request, .requested asked⟩, rfl⟩
  · obtain ⟨id, rfl⟩ := Option.ne_none_iff_exists'.mp (mt hcontainer.mp nofun)
    obtain rfl := hasked nofun
    exact ⟨⟨request, .allocated id⟩, rfl⟩
  · obtain ⟨id, rfl⟩ := Option.ne_none_iff_exists'.mp (mt hcontainer.mp nofun)
    obtain rfl := hasked nofun
    exact ⟨⟨request, .releasing id⟩, rfl⟩

/-- Whatever is done to a ledger that writes its fields one by one, they stay together as in a
phase. -/
theorem RawLedger.phased_run (ops : List Operation)
    (hadds : ops.countP Operation.isAdd < 2 ^ 64 - 1) {entry : RawEntry}
    (hentry : (RawLedger.empty.run ops).entries.get? cookie = some entry) : entry.Phased := by
  rw [Ledger.raw_run ops hadds, Ledger.raw_entries_get?] at hentry
  obtain ⟨e, -, rfl⟩ := Option.map_eq_some_iff.mp hentry
  exact e.phased_raw

end TaskFleet
