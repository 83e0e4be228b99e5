import TaskFleet.SortedMap

/-!
# Lookups decide a sorted map

The lookup laws beside the operations speak of the key at hand and of other keys apart.
Here insertion has one law for all keys, and the rows of a map are exactly what its
lookups answer, so that a walk over the values can be read as a question about keys.
-/

namespace TaskFleet.SortedMap

variable {κ ν : Type} [Key κ]

/-- Insertion changes the lookup of its own key only. -/
theorem get?_insert (m : SortedMap κ ν) (k k' : κ) (v : ν) :
    (m.insert k v).get? k' = if k' = k then some v else m.get? k' := by
  split
  · next h => rw [h, get?_insert_self]
  · next h => exact get?_insert_ne m v h

/-- Where one value is replaced by a related one, every value is related to what was there. -/
theorem related_of_get?_insert {m : SortedMap κ ν} {R : ν → ν → Prop} {k k' : κ}
    {old next new : ν} (hold : m.get? k = some old)
    (hnew : (m.insert k next).get? k' = some new) (hnext : R old next)
    (hrefl : ∀ v, R v v) : ∃ v, m.get? k' = some v ∧ R v new := by
  rw [get?_insert] at hnew
  split at hnew
  · next hk =>
    cases hnew
    exact ⟨old, hk ▸ hold, hnext⟩
  · exact ⟨new, hnew, hrefl new⟩

private theorem find_eq_some_of_mem {rows : List (κ × ν)}
    (hsorted : rows.Pairwise fun a b => a.1 < b.1) {k : κ} {v : ν} (hmem : (k, v) ∈ rows) :
    find k rows = some v := by
  induction rows with
  | nil => simp at hmem
  | cons head rest ih =>
      obtain ⟨k', v'⟩ := head
      have hrest := (List.pairwise_cons.mp hsorted).2
      rcases List.mem_cons.mp hmem with heq | hmem
      · cases heq
        simp [find]
      · have hlt : k' < k := (List.pairwise_cons.mp hsorted).1 (k, v) hmem
        have hne : k ≠ k' := fun h => Key.irrefl k' (h ▸ hlt)
        rw [find, if_neg hne]
        exact ih hrest hmem

private theorem mem_of_find_eq_some {rows : List (κ × ν)} {k : κ} {v : ν}
    (h : find k rows = some v) : (k, v) ∈ rows := by
  induction rows with
  | nil => simp [find] at h
  | cons head rest ih =>
      obtain ⟨k', v'⟩ := head
      rw [find] at h
      split at h
      · next hk =>
        cases h
        simp [hk]
      · exact List.mem_cons_of_mem _ (ih h)

theorem mem_rows_iff (m : SortedMap κ ν) {k : κ} {v : ν} :
    (k, v) ∈ m.rows ↔ m.get? k = some v :=
  ⟨find_eq_some_of_mem m.sorted, mem_of_find_eq_some⟩

theorem mem_values_iff (m : SortedMap κ ν) {v : ν} :
    v ∈ m.values ↔ ∃ k, m.get? k = some v := by
  simp only [values, List.mem_map, Prod.exists, mem_rows_iff, exists_eq_right]

@[simp] theorem length_values (m : SortedMap κ ν) : m.values.length = m.size :=
  List.length_map ..

theorem contains_eq_false_iff (m : SortedMap κ ν) {k : κ} :
    m.contains k = false ↔ m.get? k = none := by
  simp [contains]

theorem get?_filter_eq_some_iff (m : SortedMap κ ν) {p : κ → ν → Bool} {k : κ} {v : ν} :
    (m.filter p).get? k = some v ↔ m.get? k = some v ∧ p k v = true := by
  rw [← mem_rows_iff, ← mem_rows_iff]
  exact List.mem_filter

private theorem place_of_mem {k : κ} {old v : ν} {before after : List (κ × ν)}
    (hsorted : (before ++ (k, old) :: after).Pairwise fun a b => a.1 < b.1) :
    place k v (before ++ (k, old) :: after) = before ++ (k, v) :: after := by
  induction before with
  | nil => simp [place, Key.irrefl]
  | cons head rest ih =>
      obtain ⟨k', v'⟩ := head
      obtain ⟨hhead, hrest⟩ := List.pairwise_cons.mp hsorted
      have hlt : k' < k := hhead (k, old) (by simp)
      have hnlt : ¬ k < k' := fun h => Key.irrefl k (Key.trans h hlt)
      have hne : k ≠ k' := fun h => Key.irrefl k' (h ▸ hlt)
      rw [List.cons_append, place, if_neg hnlt, if_neg hne, ih hrest, List.cons_append]

/-- A row that is there is replaced where it stands. -/
theorem rows_insert_of_get? {m : SortedMap κ ν} {k : κ} {old : ν} (h : m.get? k = some old)
    (v : ν) : ∃ before after, m.rows = before ++ (k, old) :: after ∧
      (m.insert k v).rows = before ++ (k, v) :: after := by
  obtain ⟨before, after, hrows⟩ := List.append_of_mem (m.mem_rows_iff.mpr h)
  refine ⟨before, after, hrows, ?_⟩
  have hsorted := m.sorted
  rw [hrows] at hsorted
  show place k v m.rows = _
  rw [hrows]
  exact place_of_mem hsorted

theorem nodup_keys (m : SortedMap κ ν) : m.keys.Nodup := by
  rw [keys, List.Nodup, List.pairwise_map]
  refine m.sorted.imp fun {a b} hlt heq => ?_
  rw [heq] at hlt
  exact Key.irrefl _ hlt

/-- A map is what its lookups answer. -/
theorem eq_of_get? {m n : SortedMap κ ν} (h : ∀ k, m.get? k = n.get? k) : m = n := by
  have hnodup : ∀ m : SortedMap κ ν, m.rows.Nodup := by
    intro m
    refine m.sorted.imp fun {a b} hlt heq => ?_
    exact Key.irrefl b.1 (heq ▸ hlt)
  have hperm : m.rows.Perm n.rows := by
    refine (List.perm_ext_iff_of_nodup (hnodup m) (hnodup n)).mpr ?_
    rintro ⟨k, v⟩
    rw [mem_rows_iff, mem_rows_iff, h]
  refine SortedMap.ext (hperm.eq_of_pairwise (fun a b _ _ hab hba => ?_) m.sorted n.sorted)
  exact absurd (Key.trans hab hba) (Key.irrefl a.1)

/-- There is nothing to drop under a key that is not there. -/
theorem erase_eq_self {m : SortedMap κ ν} {k : κ} (h : m.get? k = none) : m.erase k = m := by
  apply eq_of_get?
  intro k'
  rw [get?_erase]
  split
  · next heq => rw [heq, h]
  · rfl

/-- Nothing changes when a value is stored once more. -/
theorem insert_eq_self {m : SortedMap κ ν} {k : κ} {v : ν} (h : m.get? k = some v) :
    m.insert k v = m := by
  apply eq_of_get?
  intro k'
  rw [get?_insert]
  split
  · next heq => rw [heq, h]
  · rfl

/-! ## Values seen through a function -/

section Map

variable {ν' : Type} {m : SortedMap κ ν} {k : κ} {f : ν → ν'} {g : ν' → ν'}

theorem map_insert (m : SortedMap κ ν) (f : ν → ν') (k : κ) (v : ν) :
    (m.insert k v).map f = (m.map f).insert k (f v) := by
  apply eq_of_get?
  intro k'
  simp only [get?_map, get?_insert]
  split <;> rfl

theorem map_erase (m : SortedMap κ ν) (f : ν → ν') (k : κ) :
    (m.erase k).map f = (m.map f).erase k := by
  apply eq_of_get?
  intro k'
  simp only [get?_map, get?_erase]
  split <;> rfl

/-- To write over a value that is there is to insert what is written. -/
theorem modify_map_of_get? {v v' : ν} (h : m.get? k = some v) (hwrite : g (f v) = f v') :
    (m.map f).modify k g = (m.insert k v').map f := by
  apply eq_of_get?
  intro k'
  simp only [get?_map, get?_insert, get?_modify]
  split
  · next heq => simp [heq, h, hwrite]
  · rfl

theorem modify_modify (m : SortedMap κ ν) (k : κ) (f g : ν → ν) :
    (m.modify k f).modify k g = m.modify k (g ∘ f) := by
  apply eq_of_get?
  intro k'
  simp only [get?_modify]
  split
  · rw [Option.map_map]
  · rfl

/-- What is written matters only for the value that is there. -/
theorem modify_eq_insert {f : ν → ν} {v v' : ν} (h : m.get? k = some v) (hwrite : f v = v') :
    m.modify k f = m.insert k v' := by
  apply eq_of_get?
  intro k'
  simp only [get?_insert, get?_modify]
  split
  · next heq => simp [heq, h, hwrite]
  · rfl

end Map

/-! ## Maps that agree on some keys -/

/-- Two maps answer alike for the keys in question. -/
def AgreeOn (P : κ → Prop) (m n : SortedMap κ ν) : Prop :=
  ∀ k, P k → m.get? k = n.get? k

section AgreeOn

variable {P : κ → Prop} {m n : SortedMap κ ν} {k : κ}

/-! What is done to both keeps them alike. -/

theorem AgreeOn.insert (h : AgreeOn P m n) (k : κ) (v : ν) :
    AgreeOn P (m.insert k v) (n.insert k v) := by
  intro k' hk'
  rw [get?_insert, get?_insert, h k' hk']

theorem AgreeOn.erase (h : AgreeOn P m n) (k : κ) : AgreeOn P (m.erase k) (n.erase k) := by
  intro k' hk'
  rw [get?_erase, get?_erase, h k' hk']

theorem AgreeOn.modify (h : AgreeOn P m n) (k : κ) (f : ν → ν) :
    AgreeOn P (m.modify k f) (n.modify k f) := by
  intro k' hk'
  rw [get?_modify, get?_modify, h k' hk']

/-! What is done at one key leaves the others alone. -/

theorem agreeOn_insert (m : SortedMap κ ν) (v : ν) (hk : ¬ P k) : AgreeOn P (m.insert k v) m := by
  intro k' hk'
  exact get?_insert_ne m v fun heq => hk (heq ▸ hk')

theorem agreeOn_modify (m : SortedMap κ ν) (f : ν → ν) (hk : ¬ P k) :
    AgreeOn P (m.modify k f) m := by
  intro k' hk'
  have hne : k' ≠ k := fun heq => hk (heq ▸ hk')
  rw [get?_modify, if_neg hne]

/-- A map changed on some keys and then on others is the map changed in the other order, if
each change is made the same whether it comes first or second. -/
theorem eq_of_agreeOn {Q : κ → Prop} {a b ab ba : SortedMap κ ν} (hapart : ∀ k, P k → ¬ Q k)
    (ha : AgreeOn (¬ P ·) a m) (hb : AgreeOn (¬ Q ·) b m)
    (hab : AgreeOn (¬ Q ·) ab a) (hba : AgreeOn (¬ P ·) ba b)
    (hfirst : AgreeOn P a ba) (hsecond : AgreeOn Q b ab) : ab = ba := by
  refine eq_of_get? fun k => ?_
  by_cases hP : P k
  · rw [hab k (hapart k hP), hfirst k hP]
  · by_cases hQ : Q k
    · rw [hba k hP, hsecond k hQ]
    · rw [hab k hQ, ha k hP, hba k hP, hb k hQ]

end AgreeOn

/-! ## Rows that name keys of another table -/

variable {κ' ν' : Type}

/-- The keys of rows that name something, each with what is named. -/
def namings (m : SortedMap κ ν) (names : ν → Option κ') : List (κ × κ') :=
  m.rows.filterMap fun row => (names row.2).map fun k' => (row.1, k')

theorem mem_namings_iff {m : SortedMap κ ν} {names : ν → Option κ'} {k : κ} {k' : κ'} :
    (k, k') ∈ m.namings names ↔ (m.get? k).bind names = some k' := by
  simp only [namings, List.mem_filterMap, Option.map_eq_some_iff, Prod.exists,
    Option.bind_eq_some_iff, Prod.mk.injEq]
  constructor
  · rintro ⟨key, v, hrow, named, hnamed, rfl, rfl⟩
    exact ⟨v, m.mem_rows_iff.mp hrow, hnamed⟩
  · rintro ⟨v, hget, hnamed⟩
    exact ⟨k, v, m.mem_rows_iff.mpr hget, k', hnamed, rfl, rfl⟩

theorem nodup_namings (m : SortedMap κ ν) (names : ν → Option κ') : (m.namings names).Nodup := by
  refine List.pairwise_filterMap.mpr (m.sorted.imp fun {a b} hlt => ?_)
  intro named hnamed named' hnamed' heq
  obtain ⟨k, -, rfl⟩ := Option.map_eq_some_iff.mp hnamed
  obtain ⟨k', -, rfl⟩ := Option.map_eq_some_iff.mp hnamed'
  have hkey : a.1 = b.1 := (Prod.mk.inj heq).1
  exact Key.irrefl b.1 (hkey ▸ hlt)

theorem length_namings (m : SortedMap κ ν) (names : ν → Option κ') :
    (m.namings names).length = (m.values.filter fun v => (names v).isSome).length := by
  rw [namings, List.length_filterMap_eq_countP, ← List.countP_eq_length_filter, values,
    List.countP_map]
  refine List.countP_congr fun row _ => ?_
  simp

/-- Where the rows of two tables name each other, as many of the one name as of the other. -/
theorem length_filter_eq_of_mutual [Key κ'] {m : SortedMap κ ν} {n : SortedMap κ' ν'}
    {names : ν → Option κ'} {names' : ν' → Option κ}
    (hmutual : ∀ k k', (m.get? k).bind names = some k' ↔ (n.get? k').bind names' = some k) :
    (m.values.filter fun v => (names v).isSome).length =
      (n.values.filter fun v => (names' v).isSome).length := by
  have hperm : ((m.namings names).map Prod.swap).Perm (n.namings names') := by
    have hnodup : ((m.namings names).map Prod.swap).Nodup :=
      List.pairwise_map.mpr ((m.nodup_namings names).imp fun hne heq =>
        hne (Prod.swap_inj.mp heq))
    refine (List.perm_ext_iff_of_nodup hnodup (n.nodup_namings names')).mpr ?_
    rintro ⟨k', k⟩
    rw [mem_namings_iff, ← hmutual, ← mem_namings_iff, List.mem_map]
    constructor
    · rintro ⟨naming, hmem, heq⟩
      cases heq
      exact hmem
    · intro hmem
      exact ⟨(k, k'), hmem, rfl⟩
  calc (m.values.filter fun v => (names v).isSome).length
      = ((m.namings names).map Prod.swap).length := by rw [List.length_map, length_namings]
    _ = (n.namings names').length := hperm.length_eq
    _ = (n.values.filter fun v => (names' v).isSome).length := n.length_namings names'

end TaskFleet.SortedMap
