import Mathlib.Order.Bounds.Basic
import TaskFleet.Proofs.Ledger.Matching
import TaskFleet.Proofs.Ledger.Ownership

/-!
# The nearest request, and of equally near ones the oldest

A grant that names no request goes to one that was submitted with its priority and fits into
it.  Which one is found in a single pass over the live requests.  The pass keeps the nearest
so far and compares nothing but nearness; that of equally near requests the oldest is kept is
owed to the order of the rows, in which cookies only grow (`foldl_nearer_noLater`).

How near a request comes to a container is decided by the best of the places that the cluster
was asked for on its behalf (`Container.LiesWithin`).  A request is submitted with its own
tiers, and for these the same can be read off its hints (`TaskRequest.closeness?`).
-/

namespace TaskFleet

/-! ## How near a container is to what was asked for -/

/-- One of the places asked for is the node of the container (0), its rack (1), or anywhere
(2). -/
def Container.LiesWithin (container : Container) (asked : List ContainerRequest) (n : Nat) :
    Prop :=
  n = 0 ∧ (∃ r ∈ asked, r.tier = .node container.node.host) ∨
  n = 1 ∧ (∃ r ∈ asked, ∃ name, r.tier = .rack name ∧ container.rack = some name) ∨
  n = 2 ∧ ∃ r ∈ asked, r.tier = .any

/-- How near the hints of a request allow it to be to a container. -/
def TaskRequest.closeness? (r : TaskRequest) (container : Container) : Option Nat :=
  if container.node.host ∈ r.locality.nodes then some 0
  else if ∃ name ∈ r.locality.racks, container.rack = some name then some 1
  else if r.locality.relaxed = true ∨ r.locality.nodes = [] ∧ r.locality.racks = [] then some 2
  else none

/-- `a` is taken no later than `b`: it is nearer, or as near and no younger. -/
def NoLater (a b : Nat × Cookie) : Prop :=
  a.1 < b.1 ∨ a.1 = b.1 ∧ a.2.val ≤ b.2.val

theorem NoLater.refl (a : Nat × Cookie) : NoLater a a :=
  .inr ⟨rfl, UInt64.le_refl _⟩

theorem NoLater.trans {a b c : Nat × Cookie} (hab : NoLater a b) (hbc : NoLater b c) :
    NoLater a c := by
  simp only [NoLater, UInt64.le_iff_toNat_le] at *
  omega

theorem NoLater.antisymm {a b : Nat × Cookie} (hab : NoLater a b) (hba : NoLater b a) :
    a = b := by
  simp only [NoLater, UInt64.le_iff_toNat_le] at hab hba
  have hrank : a.1 = b.1 := by omega
  have hcookie : a.2.val = b.2.val := UInt64.toNat_inj.mp (by omega)
  exact Prod.ext hrank (Cookie.eq_of_val hcookie)

namespace Ledger

variable {l : Ledger} {container : Container} {cookie : Cookie} {rank : Nat}
  {asked : List ContainerRequest}

theorem nearness?_eq_some_iff {tier : LocalityTier} {n : Nat} :
    nearness? container tier = some n ↔
      n = 0 ∧ tier = .node container.node.host ∨
      n = 1 ∧ (∃ name, tier = .rack name ∧ container.rack = some name) ∨
      n = 2 ∧ tier = .any := by
  cases tier with
  | node host => simp [nearness?, and_comm, eq_comm]
  | rack name => simp [nearness?, and_comm, eq_comm]
  | any => simp [nearness?, eq_comm]

theorem mem_nearness_iff {n : Nat} :
    n ∈ asked.filterMap (fun r => nearness? container r.tier) ↔
      container.LiesWithin asked n := by
  simp only [List.mem_filterMap, nearness?_eq_some_iff, Container.LiesWithin]
  constructor
  · rintro ⟨r, hr, h | h | h⟩
    · exact .inl ⟨h.1, r, hr, h.2⟩
    · exact .inr (.inl ⟨h.1, r, hr, h.2⟩)
    · exact .inr (.inr ⟨h.1, r, hr, h.2⟩)
  · rintro (⟨hn, r, hr, h⟩ | ⟨hn, r, hr, h⟩ | ⟨hn, r, hr, h⟩)
    · exact ⟨r, hr, .inl ⟨hn, h⟩⟩
    · exact ⟨r, hr, .inr (.inl ⟨hn, h⟩)⟩
    · exact ⟨r, hr, .inr (.inr ⟨hn, h⟩)⟩

theorem min?_nearness_eq_some_iff :
    (asked.filterMap fun r => nearness? container r.tier).min? = some rank ↔
      IsLeast {n | container.LiesWithin asked n} rank := by
  rw [List.min?_eq_some_iff]
  simp only [mem_nearness_iff]
  rfl

/-! ## Requests that a grant may be meant for -/

/-- A submitted request of the container's priority that fits into it, and how near it comes. -/
def Eligible (l : Ledger) (container : Container) (cookie : Cookie) (rank : Nat) : Prop :=
  ∃ request asked, l.entries.get? cookie = some ⟨request, .requested asked⟩ ∧
    request.priority = container.priority ∧
    container.resource.covers request.capability = true ∧
    IsLeast {n | container.LiesWithin asked n} rank

theorem rank?_eq_some_iff {entry : Entry} :
    rank? container entry = some rank ↔
      ∃ asked, entry.phase = .requested asked ∧ entry.request.priority = container.priority ∧
        container.resource.covers entry.request.capability = true ∧
        IsLeast {n | container.LiesWithin asked n} rank := by
  obtain ⟨request, phase⟩ := entry
  cases phase with
  | requested asked =>
      simp only [rank?, Phase.state, Phase.asked, Phase.requested.injEq, exists_eq_left',
        true_and, ← min?_nearness_eq_some_iff]
      split <;> simp_all
  | pending | allocated id | releasing id => simp [rank?, Phase.state]

theorem eligible_iff_mem_rows :
    l.Eligible container cookie rank ↔
      (some rank, cookie) ∈ l.entries.rows.map fun row => (rank? container row.2, row.1) := by
  constructor
  · rintro ⟨request, asked, hentry, hfits⟩
    refine List.mem_map.mpr ⟨(cookie, ⟨request, .requested asked⟩), ?_, ?_⟩
    · exact l.entries.mem_rows_iff.mpr hentry
    · rw [rank?_eq_some_iff.mpr ⟨asked, rfl, hfits⟩]
  · intro h
    obtain ⟨⟨c, request, phase⟩, hrow, heq⟩ := List.mem_map.mp h
    obtain ⟨hrank, rfl⟩ := Prod.mk.inj heq
    obtain ⟨asked, rfl, hfits⟩ := rank?_eq_some_iff.mp hrank
    exact ⟨request, asked, l.entries.mem_rows_iff.mp hrow, hfits⟩

/-! ## The pass over the requests -/

variable {best : Option (Nat × Cookie)} {first : Nat × Cookie}

/-- What one comparison keeps is taken no later than either of the two, if the younger one
comes second. -/
theorem nearer_noLater {row : Option Nat × Cookie}
    (hbest : ∀ b, best = some b → b.2 < row.2) :
    (∀ b, best = some b → ∃ n, nearer best row = some n ∧ NoLater n b) ∧
      ∀ rank, row.1 = some rank → ∃ n, nearer best row = some n ∧ NoLater n (rank, row.2) := by
  obtain ⟨rank?, c⟩ := row
  cases rank? with
  | none =>
      refine ⟨fun b hb => ⟨b, hb, .refl b⟩, fun rank hrank => ?_⟩
      cases hrank
  | some rank =>
      cases best with
      | none =>
          refine ⟨nofun, fun rank' hrank => ?_⟩
          cases hrank
          exact ⟨(rank, c), rfl, .refl _⟩
      | some b =>
          obtain ⟨least, old⟩ := b
          have hold : old.val ≤ c.val := UInt64.le_of_lt (hbest _ rfl)
          simp only [nearer, Option.some.injEq, forall_eq']
          split
          · next hlt => exact ⟨⟨_, rfl, .inl hlt⟩, _, rfl, .refl _⟩
          · next hge =>
            refine ⟨⟨_, rfl, .refl _⟩, _, rfl, ?_⟩
            rcases Nat.lt_or_eq_of_le (Nat.le_of_not_lt hge) with hlt | heq
            · exact .inl hlt
            · exact .inr ⟨heq, hold⟩

/-- The pass ends with a request that is taken no later than any it has seen. -/
theorem foldl_nearer_noLater {rows : List (Option Nat × Cookie)}
    (hsorted : rows.Pairwise fun a b => a.2 < b.2)
    (hbest : ∀ b, best = some b → ∀ row ∈ rows, b.2 < row.2)
    (h : rows.foldl nearer best = some first) :
    (∀ b, best = some b → NoLater first b) ∧
      ∀ rank c, (some rank, c) ∈ rows → NoLater first (rank, c) := by
  induction rows generalizing best with
  | nil =>
      obtain rfl : best = some first := h
      exact ⟨fun b hb => Option.some.inj hb ▸ .refl b, nofun⟩
  | cons row rows ih =>
      obtain ⟨hrow, hrows⟩ := List.pairwise_cons.mp hsorted
      obtain ⟨hkept, htaken⟩ := nearer_noLater fun b hb => hbest b hb row List.mem_cons_self
      -- whichever of the two is kept, the rows to come are younger
      have hnext : ∀ n, nearer best row = some n → ∀ later ∈ rows, n.2 < later.2 := by
        intro n hn later hlater
        rcases nearer_cases best row with hsame | ⟨rank, -, hnew⟩
        · exact hbest n (hsame ▸ hn) later (List.mem_cons_of_mem _ hlater)
        · rw [hnew] at hn
          cases hn
          exact hrow later hlater
      obtain ⟨hbefore, hafter⟩ := ih hrows hnext h
      refine ⟨fun b hb => ?_, fun rank c hmem => ?_⟩
      · obtain ⟨n, hn, hle⟩ := hkept b hb
        exact (hbefore n hn).trans hle
      · rcases List.mem_cons.mp hmem with rfl | hmem
        · obtain ⟨n, hn, hle⟩ := htaken rank rfl
          exact (hbefore n hn).trans hle
        · exact hafter rank c hmem

theorem foldl_nearer_eq_none {rows : List (Option Nat × Cookie)}
    (h : rows.foldl nearer best = none) : best = none ∧ ∀ row ∈ rows, row.1 = none := by
  induction rows generalizing best with
  | nil => exact ⟨h, nofun⟩
  | cons row rows ih =>
      obtain ⟨hnone, hrows⟩ := ih h
      unfold nearer at hnone
      split at hnone
      · next hrow => exact ⟨hnone, List.forall_mem_cons.mpr ⟨hrow, hrows⟩⟩
      · cases hnone
      · split at hnone <;> cases hnone

theorem matchOutstanding_eq_none_iff :
    l.matchOutstanding container = none ↔ ∀ cookie rank, ¬ l.Eligible container cookie rank := by
  constructor
  · intro h cookie rank helig
    have hall := (foldl_nearer_eq_none (Option.map_eq_none_iff.mp h)).2
    cases hall _ (eligible_iff_mem_rows.mp helig)
  · intro h
    cases hmatch : l.matchOutstanding container with
    | none => rfl
    | some cookie =>
        obtain ⟨⟨rank, c⟩, hfold, -⟩ := Option.map_eq_some_iff.mp hmatch
        rcases foldl_nearer_sound hfold with hmem | hnone
        · exact absurd (eligible_iff_mem_rows.mpr hmem) (h c rank)
        · cases hnone

/-- What is found is eligible, and nothing eligible is taken before it. -/
theorem matchOutstanding_least (h : l.matchOutstanding container = some cookie) :
    ∃ rank, l.Eligible container cookie rank ∧ ∀ cookie' rank',
      l.Eligible container cookie' rank' → NoLater (rank, cookie) (rank', cookie') := by
  obtain ⟨⟨rank, c⟩, hfold, rfl⟩ := Option.map_eq_some_iff.mp h
  have hsorted : (l.entries.rows.map fun row => (rank? container row.2, row.1)).Pairwise
      fun a b => a.2 < b.2 :=
    List.pairwise_map.mpr l.entries.sorted
  refine ⟨rank, ?_, fun cookie' rank' helig => ?_⟩
  · rcases foldl_nearer_sound hfold with hmem | hnone
    · exact eligible_iff_mem_rows.mpr hmem
    · cases hnone
  · have hleast := (foldl_nearer_noLater hsorted (fun b hb => by cases hb) hfold).2
    exact hleast rank' cookie' (eligible_iff_mem_rows.mp helig)

theorem matchOutstanding_eq_some_iff :
    l.matchOutstanding container = some cookie ↔
      ∃ rank, l.Eligible container cookie rank ∧ ∀ cookie' rank',
        l.Eligible container cookie' rank' → NoLater (rank, cookie) (rank', cookie') := by
  refine ⟨matchOutstanding_least, ?_⟩
  rintro ⟨rank, helig, hleast⟩
  cases hmatch : l.matchOutstanding container with
  | none => exact absurd helig (matchOutstanding_eq_none_iff.mp hmatch cookie rank)
  | some found =>
      obtain ⟨rank', helig', hleast'⟩ := matchOutstanding_least hmatch
      have hsame := (hleast' cookie rank helig).antisymm (hleast found rank' helig')
      rw [(Prod.mk.inj hsame).2]

/-! ## Requests submitted with their own tiers -/

theorem mem_tiers_iff {request : TaskRequest} {c : Cookie} {tier : LocalityTier} :
    (∃ r ∈ request.tiers c, r.tier = tier) ↔ tier ∈ request.places := by
  constructor
  · rintro ⟨r, hr, rfl⟩
    obtain ⟨tier, htier, rfl⟩ := List.mem_map.mp hr
    exact htier
  · intro htier
    exact ⟨_, List.mem_map_of_mem htier, rfl⟩

theorem mem_places_iff {request : TaskRequest} {tier : LocalityTier} :
    tier ∈ request.places ↔
      match tier with
      | .node host => host ∈ request.locality.nodes
      | .rack name => name ∈ request.locality.racks
      | .any => request.locality.relaxed = true ∨
          request.locality.nodes = [] ∧ request.locality.racks = [] := by
  cases tier with
  | node host => simp only [TaskRequest.places]; split <;> simp
  | rack name => simp only [TaskRequest.places]; split <;> simp
  | any => simp only [TaskRequest.places]; split <;> simp_all

theorem liesWithin_tiers_iff {request : TaskRequest} {c : Cookie} {n : Nat} :
    container.LiesWithin (request.tiers c) n ↔
      n = 0 ∧ container.node.host ∈ request.locality.nodes ∨
      n = 1 ∧ (∃ name ∈ request.locality.racks, container.rack = some name) ∨
      n = 2 ∧ (request.locality.relaxed = true ∨
        request.locality.nodes = [] ∧ request.locality.racks = []) := by
  have hrack : (∃ r ∈ request.tiers c, ∃ name, r.tier = .rack name ∧
      container.rack = some name) ↔
        ∃ name ∈ request.locality.racks, container.rack = some name := by
    constructor
    · rintro ⟨r, hr, name, htier, hname⟩
      have hplace : LocalityTier.rack name ∈ request.places :=
        (mem_tiers_iff (c := c)).mp ⟨r, hr, htier⟩
      exact ⟨name, mem_places_iff.mp hplace, hname⟩
    · rintro ⟨name, hhint, hname⟩
      have hplace : LocalityTier.rack name ∈ request.places := mem_places_iff.mpr hhint
      obtain ⟨r, hr, htier⟩ := (mem_tiers_iff (c := c)).mpr hplace
      exact ⟨r, hr, name, htier, hname⟩
  rw [Container.LiesWithin, hrack, mem_tiers_iff, mem_tiers_iff, mem_places_iff,
    mem_places_iff]

/-- The least of three numbers that are there or not. -/
theorem isLeast_of_three {p q r : Prop} [Decidable p] [Decidable q] [Decidable r] :
    IsLeast {n | n = 0 ∧ p ∨ n = 1 ∧ q ∨ n = 2 ∧ r} rank ↔
      (if p then some 0 else if q then some 1 else if r then some 2 else none) =
        some rank := by
  rw [IsLeast, mem_lowerBounds]
  constructor
  · rintro ⟨hmem, hleast⟩
    have hp : p → rank ≤ 0 := fun h => hleast 0 (.inl ⟨rfl, h⟩)
    have hq : q → rank ≤ 1 := fun h => hleast 1 (.inr (.inl ⟨rfl, h⟩))
    rcases hmem with ⟨rfl, h⟩ | ⟨rfl, h⟩ | ⟨rfl, h⟩ <;> grind
  · intro h
    show (rank = 0 ∧ p ∨ rank = 1 ∧ q ∨ rank = 2 ∧ r) ∧
      ∀ n, (n = 0 ∧ p ∨ n = 1 ∧ q ∨ n = 2 ∧ r) → rank ≤ n
    grind

theorem isLeast_tiers_iff {request : TaskRequest} {c : Cookie} :
    IsLeast {n | container.LiesWithin (request.tiers c) n} rank ↔
      request.closeness? container = some rank := by
  simp only [liesWithin_tiers_iff, isLeast_of_three]
  rfl

/-- A grant that names no request is meant for the nearest, and of equally near ones the oldest,
of the submitted requests of its priority that fit into it and asked for a place where it is;
if there is none, it is meant for nobody.  Where the cluster was asked for the tiers of a
request, its hints tell how near it is: on a node that it names, else on a rack that it names,
else anywhere if it is relaxed or names no place, else not at all.  The grant, if it is not
held already, can be recorded for the request that it is meant for, and that request had been
submitted. -/
theorem nearest_oldest_matched (l : Ledger) (container : Container) :
    (∀ cookie, l.matchOutstanding container = some cookie ↔
      ∃ rank, l.Eligible container cookie rank ∧ ∀ cookie' rank',
        l.Eligible container cookie' rank' →
          rank < rank' ∨ rank = rank' ∧ cookie.val ≤ cookie'.val) ∧
    (l.matchOutstanding container = none ↔
      ∀ cookie rank, ¬ l.Eligible container cookie rank) ∧
    (∀ (request : TaskRequest) c rank,
      IsLeast {n | container.LiesWithin (request.tiers c) n} rank ↔
        request.closeness? container = some rank) ∧
    ∀ cookie now, l.matchOutstanding container = some cookie →
      l.holding? container.id = none →
      ∃ l', l.allocate now cookie container = (.ok .requested, l') := by
  refine ⟨fun cookie => matchOutstanding_eq_some_iff, matchOutstanding_eq_none_iff,
    fun request c rank => isLeast_tiers_iff, fun cookie now hmatch hnew => ?_⟩
  obtain ⟨rank, ⟨request, asked, hentry, -⟩, -⟩ := matchOutstanding_least hmatch
  have hunheld : l.held.contains container.id = false :=
    l.held.contains_eq_false_iff.mpr hnew
  simp [allocate, hunheld, hentry, Phase.container?, Phase.isOutstanding, Phase.state,
    RequestState.isOutstanding]

/-- Three requests wait.  The oldest would take a container anywhere, the other two ask for the
rack that the container turns out to be on. -/
theorem nearest_oldest_matched_rack :
    let request (task : UInt64) (racks : List String) : TaskRequest :=
      ⟨⟨task⟩, ⟨1024, 1⟩, ⟨5⟩, ⟨["host2"], racks, true⟩, ⟨0, ⟨⟨1024, 1⟩, .empty, .empty⟩⟩⟩
    let container : Container :=
      ⟨⟨"c_1"⟩, ⟨"host1", 8041⟩, some "rack1", ⟨1024, 1⟩, ⟨5⟩, none, none⟩
    let ops : List Operation := [.add (request 7 []), .add (request 8 ["rack1"]),
      .add (request 9 ["rack1"]), .markRequested ⟨1⟩ ((request 7 []).tiers ⟨1⟩),
      .markRequested ⟨2⟩ ((request 8 ["rack1"]).tiers ⟨2⟩),
      .markRequested ⟨3⟩ ((request 9 ["rack1"]).tiers ⟨3⟩)]
    (empty.run ops).matchOutstanding container = some ⟨2⟩ ∧
      (empty.run ops).Eligible container ⟨2⟩ 1 ∧
      ∃ l', (empty.run ops).allocate .epoch ⟨2⟩ container = (.ok .requested, l') := by
  intro request container ops
  obtain ⟨-, -, hhints, hallocate⟩ := nearest_oldest_matched (empty.run ops) container
  have hmatch : (empty.run ops).matchOutstanding container = some ⟨2⟩ := by decide
  have hentry : (empty.run ops).entries.get? ⟨2⟩ =
      some ⟨request 8 ["rack1"], .requested ((request 8 ["rack1"]).tiers ⟨2⟩)⟩ := by decide
  have hrank := (hhints (request 8 ["rack1"]) ⟨2⟩ 1).mpr (by decide)
  exact ⟨hmatch, ⟨_, _, hentry, rfl, by decide, hrank⟩,
    hallocate ⟨2⟩ .epoch hmatch (by decide)⟩

end Ledger

end TaskFleet
