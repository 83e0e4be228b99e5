import TaskFleet.Preemption
import TaskFleet.Scheduler.Assignment
import TaskFleet.Proofs.SortedMap

/-!
# What a choice for reuse may rely on

A request picks an idle container (`pickIdle?`), or an idle container is offered to the
waiting requests (`firstServed?`).  Either way what is chosen was among the candidates,
the container is large enough, and the policy lets it serve the request; and where nothing
is chosen, no candidate would have done.
-/

namespace TaskFleet

/-! ## A request picks a container -/

theorem keepWhere_sound {ε α : Type} {test : α → Except ε Bool} {as bs : List α}
    (h : keepWhere test as = .ok bs) : ∀ b ∈ bs, b ∈ as ∧ test b = .ok true := by
  induction as generalizing bs with
  | nil =>
      cases h
      simp
  | cons a as ih =>
      rw [keepWhere] at h
      cases ha : test a with
      | error cause => simp [ha, bind, Except.bind] at h
      | ok keep =>
          cases hrest : keepWhere test as with
          | error cause => simp [ha, hrest, bind, Except.bind] at h
          | ok rest =>
              simp only [ha, hrest, bind, Except.bind, pure, Except.pure] at h
              cases h
              intro b hb
              have hlater : b ∈ rest → b ∈ a :: as ∧ test b = .ok true := fun hmem =>
                ⟨List.mem_cons_of_mem _ (ih hrest b hmem).1, (ih hrest b hmem).2⟩
              cases keep with
              | false => exact hlater (by simpa using hb)
              | true =>
                  rcases List.mem_cons.mp hb with rfl | hmem
                  · exact ⟨List.mem_cons_self, ha⟩
                  · exact hlater hmem

theorem keepWhere_complete {ε α : Type} {test : α → Except ε Bool} {as bs : List α}
    (h : keepWhere test as = .ok bs) {a : α} (ha : a ∈ as) (htest : test a = .ok true) :
    a ∈ bs := by
  induction as generalizing bs with
  | nil => cases ha
  | cons first as ih =>
      rw [keepWhere] at h
      cases hfirst : test first with
      | error cause => simp [hfirst, bind, Except.bind] at h
      | ok keep =>
          cases hrest : keepWhere test as with
          | error cause => simp [hfirst, hrest, bind, Except.bind] at h
          | ok rest =>
              simp only [hfirst, hrest, bind, Except.bind, pure, Except.pure] at h
              cases h
              rcases List.mem_cons.mp ha with rfl | ha
              · rw [htest] at hfirst
                cases hfirst
                exact List.mem_cons_self
              · have hkept := ih hrest ha
                cases keep with
                | false => exact hkept
                | true => exact List.mem_cons_of_mem _ hkept

theorem foldl_betterFit_mem {fits : List Fit} {best : Option Fit} {fit : Fit}
    (h : fits.foldl betterFit best = some fit) : fit ∈ fits ∨ best = some fit := by
  induction fits generalizing best with
  | nil => exact .inr h
  | cons first rest ih =>
      rcases ih h with hmem | hbest
      · exact .inl (List.mem_cons_of_mem _ hmem)
      · unfold betterFit at hbest
        split at hbest
        · cases hbest
          exact .inl List.mem_cons_self
        · split at hbest
          · cases hbest
            exact .inl List.mem_cons_self
          · exact .inr hbest

theorem foldl_betterFit_eq_none {fits : List Fit} {best : Option Fit}
    (h : fits.foldl betterFit best = none) : fits = [] ∧ best = none := by
  induction fits generalizing best with
  | nil => exact ⟨rfl, h⟩
  | cons first rest ih =>
      obtain ⟨-, hbest⟩ := ih h
      unfold betterFit at hbest
      split at hbest
      · cases hbest
      · split at hbest <;> cases hbest

/-- A request picks an idle container that is large enough and serves it. -/
theorem pickIdle?_sound {m : Matcher} {required : TaskRequest} {held : List Holding}
    {id : ContainerId} (h : pickIdle? m required held = .ok (some id)) :
    ∃ holding ∈ held, holding.container.id = id ∧ holding.isIdle = true ∧
      holding.container.resource.covers required.capability = true ∧
      m.superset (some holding.signature) (some required.signature) = .ok true := by
  unfold pickIdle? at h
  simp only [bind, Except.bind, pure, Except.pure] at h
  split at h
  · cases h
  · next fit hfit =>
    simp only [Except.ok.injEq, Option.map_eq_some_iff] at h
    obtain ⟨best, hbest, rfl⟩ := h
    rcases foldl_betterFit_mem hbest with hmem | hnone
    · obtain ⟨holding, hholding, rfl⟩ := List.mem_map.mp hmem
      obtain ⟨hlarge, hserves⟩ := keepWhere_sound hfit holding hholding
      obtain ⟨hheld, hfits⟩ := List.mem_filter.mp hlarge
      rw [Bool.and_eq_true] at hfits
      exact ⟨holding, hheld, rfl, hfits.1, hfits.2, hserves⟩
    · cases hnone

/-- The container is large enough for the request, and the policy lets it run it. -/
def Matcher.CanRun (m : Matcher) (h : Holding) (request : TaskRequest) : Prop :=
  h.container.resource.covers request.capability = true ∧
    m.superset (some h.signature) (some request.signature) = .ok true

/-- A request that picks nothing could run in no idle container. -/
theorem pickIdle?_complete {m : Matcher} {required : TaskRequest} {held : List Holding}
    (h : pickIdle? m required held = .ok none) {holding : Holding} (hheld : holding ∈ held)
    (hidle : holding.isIdle = true) : ¬ m.CanRun holding required := by
  rintro ⟨hlarge, hserves⟩
  unfold pickIdle? at h
  simp only [bind, Except.bind, pure, Except.pure] at h
  split at h
  · cases h
  · next fit hfit =>
    simp only [Except.ok.injEq, Option.map_eq_none_iff] at h
    have hcandidate : holding ∈ held.filter fun h =>
        h.isIdle && h.container.resource.covers required.capability := by
      simp [hheld, hidle, hlarge]
    have hkept : holding ∈ fit := keepWhere_complete hfit hcandidate hserves
    have hnone := (foldl_betterFit_eq_none h).1
    rw [List.map_eq_nil_iff.mp hnone] at hkept
    cases hkept

/-! ## A container is offered -/

theorem Ledger.mem_outstanding_iff {l : Ledger} {cookie : Cookie} {request : TaskRequest} :
    (cookie, request) ∈ l.outstanding ↔
      ∃ phase, l.entries.get? cookie = some ⟨request, phase⟩ ∧ phase.isOutstanding = true := by
  simp only [Ledger.outstanding, List.mem_mergeSort, List.mem_map, List.mem_filter]
  constructor
  · rintro ⟨⟨c, entry⟩, ⟨hmem, hwaiting⟩, heq⟩
    cases heq
    exact ⟨entry.phase, l.entries.mem_rows_iff.mp hmem, hwaiting⟩
  · rintro ⟨phase, hget, hwaiting⟩
    exact ⟨(cookie, ⟨request, phase⟩), ⟨l.entries.mem_rows_iff.mpr hget, hwaiting⟩, rfl⟩

/-- The request chosen for a container waits, fits and is served by it. -/
theorem Scheduler.firstServed?_sound {m : Matcher} {h : Holding}
    {waiting : List (Cookie × TaskRequest)} {cookie : Cookie} {request : TaskRequest}
    (hfirst : Scheduler.firstServed? m h waiting = .ok (some (cookie, request))) :
    (cookie, request) ∈ waiting ∧
      h.container.resource.covers request.capability = true ∧
      m.superset (some h.signature) (some request.signature) = .ok true := by
  induction waiting with
  | nil => cases hfirst
  | cons row rest ih =>
      obtain ⟨cookie', request'⟩ := row
      rw [Scheduler.firstServed?] at hfirst
      split at hfirst
      · cases hfirst
      · next serves hserves =>
        split at hfirst
        · next hboth =>
          cases hfirst
          rw [Bool.and_eq_true] at hboth
          exact ⟨List.mem_cons_self, hboth.2, hboth.1 ▸ hserves⟩
        · obtain ⟨hmem, hrest⟩ := ih hfirst
          exact ⟨List.mem_cons_of_mem _ hmem, hrest⟩

/-- A container that nobody takes could run none of the waiting requests. -/
theorem Scheduler.firstServed?_complete {m : Matcher} {h : Holding}
    {waiting : List (Cookie × TaskRequest)}
    (hfirst : Scheduler.firstServed? m h waiting = .ok none) {row : Cookie × TaskRequest}
    (hrow : row ∈ waiting) : ¬ m.CanRun h row.2 := by
  induction waiting with
  | nil => cases hrow
  | cons first rest ih =>
      rw [Scheduler.firstServed?] at hfirst
      split at hfirst
      · cases hfirst
      · next serves hserves =>
        split at hfirst
        · cases hfirst
        · next hneither =>
          rcases List.mem_cons.mp hrow with rfl | hrow
          · rintro ⟨hlarge, htrue⟩
            rw [htrue] at hserves
            cases hserves
            exact hneither hlarge
          · exact ih hfirst hrow

end TaskFleet
