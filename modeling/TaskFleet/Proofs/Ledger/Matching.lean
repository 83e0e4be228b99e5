import TaskFleet.Proofs.Reuse

/-!
# The request that a grant is meant for

A grant that names no request is matched with one that was submitted.  The match looks at
every live request, so what it may rely on has to be read off a fold: the request that is
found was ranked (`matchOutstanding_sound`), and whatever was ranked has the priority of
the container, fits into it, and asked for one of the places that the container is at
(`rank?_sound`).
-/

namespace TaskFleet.Ledger

variable {l : Ledger} {container : Container} {cookie : Cookie} {rank : Nat}

/-- A row is taken if it is ranked and better, or the best so far stays. -/
theorem nearer_cases (best : Option (Nat × Cookie)) (row : Option Nat × Cookie) :
    nearer best row = best ∨
      ∃ rank, row.1 = some rank ∧ nearer best row = some (rank, row.2) := by
  unfold nearer
  split
  · exact .inl rfl
  · next rank hrow => exact .inr ⟨rank, hrow, rfl⟩
  · next rank least cookie hrow =>
    split
    · exact .inr ⟨rank, hrow, rfl⟩
    · exact .inl rfl

/-- What is found by comparing rows was one of them, or stood at the beginning. -/
theorem foldl_nearer_sound {rows : List (Option Nat × Cookie)} {best : Option (Nat × Cookie)}
    (h : rows.foldl nearer best = some (rank, cookie)) :
    (some rank, cookie) ∈ rows ∨ best = some (rank, cookie) := by
  induction rows generalizing best with
  | nil => exact .inr h
  | cons row rows ih =>
      rcases ih h with hmem | hbest
      · exact .inl (List.mem_cons_of_mem _ hmem)
      · rcases nearer_cases best row with hkept | ⟨rank', hrow, htaken⟩
        · exact .inr (hkept.symm.trans hbest)
        · obtain ⟨first, c⟩ := row
          rw [htaken] at hbest
          cases hbest
          cases hrow
          exact .inl List.mem_cons_self

/-- A ranked request was submitted with the priority of the container, fits into it, and the
rank is how near one of its places is. -/
theorem rank?_sound {entry : Entry} (h : rank? container entry = some rank) :
    entry.phase.state = .requested ∧ entry.request.priority = container.priority ∧
      container.resource.covers entry.request.capability = true ∧
      ∃ r ∈ entry.phase.asked, nearness? container r.tier = some rank := by
  unfold rank? at h
  split at h
  · next hfits =>
    obtain ⟨hstate, hpriority, hcovers⟩ := hfits
    have hmem := List.min?_mem h
    exact ⟨hstate, hpriority, hcovers, List.mem_filterMap.mp hmem⟩
  · cases h

/-- The request that is found is live, and it was ranked. -/
theorem matchOutstanding_sound (h : l.matchOutstanding container = some cookie) :
    ∃ entry rank, l.entries.get? cookie = some entry ∧ rank? container entry = some rank := by
  obtain ⟨⟨rank, c⟩, hfold, rfl⟩ := Option.map_eq_some_iff.mp h
  rcases foldl_nearer_sound hfold with hmem | hnone
  · obtain ⟨⟨c', entry⟩, hrow, heq⟩ := List.mem_map.mp hmem
    obtain ⟨hrank, rfl⟩ := Prod.mk.inj heq
    exact ⟨entry, rank, l.entries.mem_rows_iff.mp hrow, hrank⟩
  · cases hnone

end TaskFleet.Ledger
