import TaskFleet.Proofs.Ledger.Outstanding
import TaskFleet.Proofs.Ledger.Ownership
import TaskFleet.Proofs.Resource

/-!
# Counters and totals agree

The counters of a ledger are read off two tables: how many requests run is counted among
the requests, how many containers they run in among the containers.  The two numbers are
one because owners and containers name each other (`Coherent.active`, `Coherent.leaving`),
so that each table counts the rows of the other (`SortedMap.length_filter_eq_of_mutual`).

The totals are clipped sums.  What is clipped does not depend on the order of the rows, and
a total over all holdings is the sum of the totals of those that stay and those that go
(`Resource.total_append`).  `Tallied` says all of this about one ledger, and every ledger
that operations can build is tallied (`tallied_run`).
-/

namespace TaskFleet

/-! ## Kinds of rows -/

/-- The container in which the request runs undisturbed. -/
def Phase.allocated? : Phase → Option ContainerId
  | allocated id => some id
  | _ => none

/-- The container that is being taken from the request. -/
def Phase.releasing? : Phase → Option ContainerId
  | releasing id => some id
  | _ => none

/-- The request that the container is being taken from. -/
def Assignment.leavingCookie? : Assignment → Option Cookie
  | beingReleased cookie => some cookie
  | _ => none

/-- A request runs in the container undisturbed. -/
def Assignment.isActive (a : Assignment) : Bool := a.activeCookie?.isSome

/-- The container is being taken from a request. -/
def Assignment.isBeingReleased (a : Assignment) : Bool := a.leavingCookie?.isSome

/-- The container was given back, and its completion is awaited. -/
def Assignment.isReleased : Assignment → Bool
  | released _ => true
  | _ => false

theorem Phase.allocated?_eq_some_iff {phase : Phase} {k : ContainerId} :
    phase.allocated? = some k ↔ phase = .allocated k := by
  cases phase <;> simp [allocated?]

theorem Phase.releasing?_eq_some_iff {phase : Phase} {k : ContainerId} :
    phase.releasing? = some k ↔ phase = .releasing k := by
  cases phase <;> simp [releasing?]

theorem Assignment.activeCookie?_eq_some_iff {use : Assignment} {c : Cookie} :
    use.activeCookie? = some c ↔ use = .active c := by
  cases use <;> simp [activeCookie?]

theorem Assignment.leavingCookie?_eq_some_iff {use : Assignment} {c : Cookie} :
    use.leavingCookie? = some c ↔ use = .beingReleased c := by
  cases use <;> simp [leavingCookie?]

namespace Ledger

variable {l : Ledger}

/-- The containers that are held for a kind of use. -/
def heldFor (l : Ledger) (use : Assignment → Bool) : List Holding :=
  l.holdings.filter fun h => use h.assignment

/-- The allotments of containers. -/
def allotments (hs : List Holding) : List Resource :=
  hs.map fun h => h.container.resource

/-! ## Each table is counted completely -/

/-- Where each row counts for the whole as often as for the two parts, so do all rows. -/
private theorem length_filter_add {α : Type} {whole part part' : α → Bool}
    (hparts : ∀ a, (whole a).toNat = (part a).toNat + (part' a).toNat) (as : List α) :
    (as.filter whole).length = (as.filter part).length + (as.filter part').length := by
  induction as with
  | nil => rfl
  | cons a rest ih =>
      have ha := hparts a
      simp only [← List.countP_eq_length_filter, List.countP_cons] at ih ⊢
      cases hwhole : whole a <;> cases hpart : part a <;> cases hpart' : part' a <;>
        simp [hwhole, hpart, hpart'] at ha ⊢ <;> omega

theorem length_outstanding (l : Ledger) :
    l.outstanding.length =
      (l.entries.values.filter fun entry => entry.phase.isOutstanding).length := by
  rw [outstanding, List.length_mergeSort, List.length_map, SortedMap.values, List.filter_map,
    List.length_map]
  rfl

/-- Who waits is pending or was asked for. -/
theorem countIn_waiting (l : Ledger) :
    l.countIn .pending + l.countIn .requested = l.outstanding.length := by
  rw [length_outstanding]
  refine (length_filter_add (fun entry => ?_) l.entries.values).symm
  cases hphase : entry.phase <;> rfl

/-- A live request waits, runs or is losing its container. -/
theorem countIn_live (l : Ledger) :
    l.countIn .pending + l.countIn .requested + l.countIn .allocated + l.countIn .releasing =
      l.entries.size := by
  have hplaced : (l.entries.values.filter fun entry => !entry.phase.isOutstanding).length =
      l.countIn .allocated + l.countIn .releasing := by
    refine length_filter_add (fun entry => ?_) l.entries.values
    cases hphase : entry.phase <;> rfl
  have hall := (l.entries.values.filter_append_perm fun entry =>
    entry.phase.isOutstanding).length_eq
  rw [List.length_append, SortedMap.length_values] at hall
  rw [countIn_waiting, length_outstanding]
  omega

/-- A request that has ended is not in the table. -/
theorem countIn_ended (l : Ledger) {state : RequestState}
    (hstate : state = .completed ∨ state = .released) : l.countIn state = 0 := by
  rw [countIn, List.length_eq_zero_iff, List.filter_eq_nil_iff]
  intro entry _
  rcases hstate with rfl | rfl <;> cases hphase : entry.phase <;> simp [Phase.state]

/-- Containers that stay are in use or idle. -/
theorem staying_eq (l : Ledger) :
    (l.holdings.filter fun h => !h.isLeaving) =
      l.heldFor fun use => use.isActive || use.isIdle := by
  refine List.filter_congr fun h _ => ?_
  cases hassignment : h.assignment <;> simp [Holding.isLeaving, hassignment] <;> rfl

/-- Containers that leave are being taken away or were given back. -/
theorem leaving_eq (l : Ledger) :
    l.holdings.filter Holding.isLeaving =
      l.heldFor fun use => use.isBeingReleased || use.isReleased := by
  refine List.filter_congr fun h _ => ?_
  cases hassignment : h.assignment <;> simp [Holding.isLeaving, hassignment] <;> rfl

/-- A container is in use, idle, being taken away or given back. -/
theorem length_heldFor (l : Ledger) :
    (l.heldFor Assignment.isActive).length + (l.heldFor Assignment.isBeingReleased).length +
      (l.heldFor Assignment.isIdle).length + (l.heldFor Assignment.isReleased).length =
      l.held.size := by
  have hstaying : (l.heldFor fun use => use.isActive || use.isIdle).length =
      (l.heldFor Assignment.isActive).length + (l.heldFor Assignment.isIdle).length := by
    refine length_filter_add (fun h => ?_) l.holdings
    cases hassignment : h.assignment <;> rfl
  have hleaving : (l.heldFor fun use => use.isBeingReleased || use.isReleased).length =
      (l.heldFor Assignment.isBeingReleased).length +
        (l.heldFor Assignment.isReleased).length := by
    refine length_filter_add (fun h => ?_) l.holdings
    cases hassignment : h.assignment <;> rfl
  have hall := (l.holdings.filter_append_perm Holding.isLeaving).length_eq
  rw [List.length_append, leaving_eq, staying_eq, holdings, SortedMap.length_values] at hall
  omega

/-! ## One table counts the other -/

/-- As many requests run as there are containers in use. -/
theorem Coherent.countIn_allocated (hl : l.Coherent) :
    l.countIn .allocated = (l.heldFor Assignment.isActive).length := by
  have hmutual : ∀ c k,
      (l.entries.get? c).bind (fun entry => entry.phase.allocated?) = some k ↔
        (l.held.get? k).bind (fun h => h.assignment.activeCookie?) = some c := by
    intro c k
    simpa [phase?, assignment?, Option.bind_eq_some_iff, Phase.allocated?_eq_some_iff,
      Assignment.activeCookie?_eq_some_iff] using hl.active c k
  calc l.countIn .allocated
      = (l.entries.values.filter fun entry => entry.phase.allocated?.isSome).length := by
        refine congrArg List.length (List.filter_congr fun entry _ => ?_)
        cases entry.phase <;> rfl
    _ = (l.heldFor Assignment.isActive).length := SortedMap.length_filter_eq_of_mutual hmutual

/-- As many requests lose their containers as there are containers being taken away. -/
theorem Coherent.countIn_releasing (hl : l.Coherent) :
    l.countIn .releasing = (l.heldFor Assignment.isBeingReleased).length := by
  have hmutual : ∀ c k,
      (l.entries.get? c).bind (fun entry => entry.phase.releasing?) = some k ↔
        (l.held.get? k).bind (fun h => h.assignment.leavingCookie?) = some c := by
    intro c k
    simpa [phase?, assignment?, Option.bind_eq_some_iff, Phase.releasing?_eq_some_iff,
      Assignment.leavingCookie?_eq_some_iff] using hl.leaving c k
  calc l.countIn .releasing
      = (l.entries.values.filter fun entry => entry.phase.releasing?.isSome).length := by
        refine congrArg List.length (List.filter_congr fun entry _ => ?_)
        cases entry.phase <;> rfl
    _ = (l.heldFor Assignment.isBeingReleased).length :=
        SortedMap.length_filter_eq_of_mutual hmutual

/-! ## The account of a ledger -/

/-- The counters agree with each other, and the totals are the clipped sums of what they
are totals of. -/
structure Tallied (l : Ledger) : Prop where
  live : l.countIn .pending + l.countIn .requested + l.countIn .allocated +
    l.countIn .releasing = l.entries.size
  ended : l.countIn .completed = 0 ∧ l.countIn .released = 0
  waiting : l.countIn .pending + l.countIn .requested = l.outstanding.length
  active : l.countIn .allocated = (l.heldFor Assignment.isActive).length
  leaving : l.countIn .releasing = (l.heldFor Assignment.isBeingReleased).length
  held : l.held.size = l.countIn .allocated + l.countIn .releasing +
    l.idleContainers.length + (l.heldFor Assignment.isReleased).length
  asked : l.outstandingResources.SumsUp (l.outstanding.map fun row => row.2.capability)
  staying : l.heldResources.SumsUp
    (allotments (l.heldFor fun use => use.isActive || use.isIdle))
  returning : l.releasingResources.SumsUp
    (allotments (l.heldFor fun use => use.isBeingReleased || use.isReleased))
  whole : (l.heldResources + l.releasingResources).SumsUp (allotments l.holdings)

/-- What waiting requests ask for, in the order in which they are served. -/
theorem sumsUp_outstandingResources (l : Ledger) :
    l.outstandingResources.SumsUp (l.outstanding.map fun row => row.2.capability) := by
  refine (Resource.sumsUp_total _).perm ?_
  have hrows : (l.entries.values.filter fun entry => entry.phase.isOutstanding).map
      (fun entry => entry.request.capability) =
      ((l.entries.rows.filter fun row => row.2.phase.isOutstanding).map
        fun row => (row.1, row.2.request)).map fun row => row.2.capability := by
    rw [SortedMap.values, List.filter_map, List.map_map, List.map_map]
    rfl
  rw [hrows, outstanding]
  exact ((List.mergeSort_perm _ servedBefore).map _).symm

theorem Coherent.tallied (hl : l.Coherent) : l.Tallied where
  live := l.countIn_live
  ended := ⟨l.countIn_ended (.inl rfl), l.countIn_ended (.inr rfl)⟩
  waiting := l.countIn_waiting
  active := hl.countIn_allocated
  leaving := hl.countIn_releasing
  held := by
    have hidle : l.idleContainers.length = (l.heldFor Assignment.isIdle).length :=
      List.length_map ..
    rw [hl.countIn_allocated, hl.countIn_releasing, hidle, length_heldFor]
  asked := l.sumsUp_outstandingResources
  staying := by
    rw [heldResources, staying_eq]
    exact Resource.sumsUp_total _
  returning := by
    rw [releasingResources, leaving_eq]
    exact Resource.sumsUp_total _
  whole := by
    rw [heldResources, releasingResources, ← Resource.total_append, ← List.map_append]
    refine (Resource.sumsUp_total _).perm (List.Perm.map _ ?_)
    exact List.perm_append_comm.trans (l.holdings.filter_append_perm Holding.isLeaving)

/-- In every ledger that operations build, counters and totals agree. -/
theorem tallied_run (ops : List Operation)
    (hadds : ops.countP Operation.isAdd < 2 ^ 64 - 1) : (empty.run ops).Tallied :=
  (coherent_run ops hadds).tallied

/-- One container of each kind.  The two that stay have more memory than a word holds, so
their total is clipped. -/
theorem tallied_run_clipped :
    let request : TaskRequest := ⟨⟨7⟩, ⟨1024, 1⟩, ⟨5⟩, ⟨[], [], true⟩, ⟨0, ⟨⟨1024, 1⟩, .empty, .empty⟩⟩⟩
    let container (id : String) (memory : UInt64) : Container :=
      ⟨⟨id⟩, ⟨"host1", 8041⟩, none, ⟨memory, 2⟩, ⟨5⟩, none, none⟩
    let ops : List Operation := [.add request, .add request, .add request, .add request,
      .add request, .allocate .epoch ⟨1⟩ (container "c_1" 18446744073709551000),
      .allocate .epoch ⟨2⟩ (container "c_2" 2048), .allocate .epoch ⟨3⟩ (container "c_3" 4096),
      .allocate .epoch ⟨4⟩ (container "c_4" 1024), .beginRelease ⟨"c_2"⟩, .remove .epoch ⟨3⟩,
      .release ⟨"c_4"⟩]
    (empty.run ops).Tallied ∧ (empty.run ops).countIn .allocated = 1 ∧
      (empty.run ops).countIn .releasing = 1 ∧ (empty.run ops).held.size = 4 ∧
      (empty.run ops).heldResources = ⟨18446744073709551615, 4⟩ ∧
      (empty.run ops).releasingResources = ⟨3072, 4⟩ := by
  intro request container ops
  exact ⟨tallied_run ops (by decide), by decide, by decide, by decide, by decide, by decide⟩

end Ledger

end TaskFleet
