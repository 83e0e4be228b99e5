import TaskFleet.Ledger.View
import TaskFleet.Proofs.Ledger.Operations

/-!
# Containers are kept under their own names

A container enters the table of holdings under the name that it was granted with, and
nothing changes the name afterwards (`Keyed`).  So the holdings have as many names as there
are holdings, and a choice among them may be answered by name.

Cookies play no part in it: of all that is said about ledgers, this holds even of one that
has used up its cookies.
-/

namespace TaskFleet.Ledger

variable {l l' : Ledger} {now : Instant} {cookie : Cookie} {id : ContainerId}

/-- A container is kept under its own name. -/
def Keyed (l : Ledger) : Prop :=
  ∀ k h, l.held.get? k = some h → h.container.id = k

theorem keyed_empty : empty.Keyed := by
  intro k h hk
  cases hk

/-- No name occurs twice among the holdings. -/
theorem Keyed.nodup_ids (hl : l.Keyed) : (l.holdings.map fun h => h.container.id).Nodup := by
  have hkeys : l.holdings.map (fun h => h.container.id) = l.held.keys := by
    rw [holdings, SortedMap.values, SortedMap.keys, List.map_map]
    refine List.map_congr_left fun row hrow => ?_
    exact hl row.1 row.2 (l.held.mem_rows_iff.mp hrow)
  exact hkeys ▸ l.held.nodup_keys

/-- A container was noted under its name. -/
theorem Keyed.insert (hl : l.Keyed) {h : Holding} (hheld : l'.held = l.held.insert id h)
    (hid : h.container.id = id) : l'.Keyed := by
  intro k h' hk
  rw [hheld, SortedMap.get?_insert] at hk
  split at hk
  · next heq =>
    cases hk
    rw [hid, heq]
  · exact hl k h' hk

theorem Keyed.markRequested (hl : l.Keyed) {asked : List ContainerRequest}
    (h : l.markRequested cookie asked = (.ok (), l')) : l'.Keyed := by
  intro k held hk
  rw [held_markRequested h] at hk
  exact hl k held hk

theorem Keyed.remove (hl : l.Keyed) {removed : RemovedRequest}
    (h : l.remove now cookie = (.ok removed, l')) : l'.Keyed := by
  obtain ⟨entry, -, -, -, -, -, hheld⟩ := remove_ok h
  intro k held hk
  rw [hheld] at hk
  split at hk
  · obtain ⟨old, hold, rfl⟩ := Option.map_eq_some_iff.mp hk
    exact hl k old hold
  · exact hl k held hk

theorem Keyed.allocate (hl : l.Keyed) {container : Container} {previous : RequestState}
    (h : l.allocate now cookie container = (.ok previous, l')) : l'.Keyed := by
  obtain ⟨entry, -, -, -, -, rfl⟩ := allocate_ok h
  exact hl.insert rfl rfl

theorem Keyed.assignIdle (hl : l.Keyed) {container : Container} {previous : RequestState}
    (h : l.assignIdle now cookie id = (.ok (container, previous), l')) : l'.Keyed := by
  obtain ⟨entry, held, -, -, hheld, -, -, -, rfl⟩ := assignIdle_ok h
  exact hl.insert rfl (hl id held hheld)

theorem Keyed.beginRelease (hl : l.Keyed) {victim : Cookie}
    (h : l.beginRelease id = (.ok victim, l')) : l'.Keyed := by
  obtain ⟨held, hheld, -, rfl⟩ := beginRelease_ok h
  exact hl.insert rfl (hl id held hheld)

theorem Keyed.release (hl : l.Keyed) {task : Option TaskId}
    (h : l.release id = (.ok task, l')) : l'.Keyed := by
  obtain ⟨held, hheld, -, -, -, hheld', -⟩ := release_ok h
  exact hl.insert hheld' (hl id held hheld)

theorem Keyed.complete (hl : l.Keyed) {done : CompletedContainer}
    (h : l.complete id = (.ok done, l')) : l'.Keyed := by
  obtain ⟨held, -, -, -, -, hheld', -⟩ := complete_ok h
  intro k held hk
  rw [hheld', SortedMap.get?_erase] at hk
  split at hk
  · cases hk
  · exact hl k held hk

end TaskFleet.Ledger
