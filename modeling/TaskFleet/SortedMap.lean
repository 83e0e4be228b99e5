/-!
# Maps kept in key order

Every table whose order an answer can show is a `SortedMap`: the ledger's requests
by cookie, the containers held by identifier, the files and variables of a launch
specification by name.  The rows are strictly increasing in the key, and that fact
is part of the type, so two maps with the same rows are equal and iteration order is
never an accident.

Insertion replaces on collision in one pass; `get?` after each operation is stated
beside the operation.
-/

namespace TaskFleet

/-- Keys with a decidable strict total order. -/
class Key (κ : Type) extends LT κ where
  decEq : DecidableEq κ
  decLt : DecidableLT κ
  irrefl : ∀ a : κ, ¬ a < a
  trans : ∀ {a b c : κ}, a < b → b < c → a < c
  total : ∀ {a b : κ}, ¬ a < b → ¬ b < a → a = b

instance (priority := low) Key.decidableEq {κ : Type} [Key κ] : DecidableEq κ := Key.decEq

instance (priority := low) Key.decidableLT {κ : Type} [Key κ] : DecidableLT κ := Key.decLt

instance : Key String where
  decEq := inferInstance
  decLt := inferInstance
  irrefl := String.lt_irrefl
  trans := String.lt_trans
  total h h' := String.le_antisymm h' h

instance : Key UInt64 where
  decEq := inferInstance
  decLt := inferInstance
  irrefl := UInt64.lt_irrefl
  trans := UInt64.lt_trans
  total h h' := UInt64.le_antisymm (UInt64.not_lt.mp h') (UInt64.not_lt.mp h)

/-- Rows in strictly increasing key order. -/
structure SortedMap (κ ν : Type) [Key κ] where
  rows : List (κ × ν)
  sorted : rows.Pairwise fun a b => a.1 < b.1

namespace SortedMap

variable {κ ν : Type} [Key κ]

theorem ext {m n : SortedMap κ ν} (h : m.rows = n.rows) : m = n := by
  cases m
  cases n
  cases h
  rfl

instance [DecidableEq ν] : DecidableEq (SortedMap κ ν) := fun m n =>
  decidable_of_iff (m.rows = n.rows) ⟨ext, fun h => h ▸ rfl⟩

/-- The map without rows. -/
def empty : SortedMap κ ν := ⟨[], .nil⟩

instance : Inhabited (SortedMap κ ν) := ⟨empty⟩

/-- Keys in increasing order. -/
def keys (m : SortedMap κ ν) : List κ :=
  m.rows.map Prod.fst

/-- Values in the order of their keys. -/
def values (m : SortedMap κ ν) : List ν :=
  m.rows.map Prod.snd

/-- How many rows there are. -/
def size (m : SortedMap κ ν) : Nat :=
  m.rows.length

/-! ## Lookup -/

/-- The value in the first row with key `k`. -/
def find (k : κ) : List (κ × ν) → Option ν
  | [] => none
  | (k', v) :: rest => if k = k' then some v else find k rest

/-- The value stored under `k`. -/
def get? (m : SortedMap κ ν) (k : κ) : Option ν :=
  find k m.rows

/-- Some value is stored under `k`. -/
def contains (m : SortedMap κ ν) (k : κ) : Bool :=
  (m.get? k).isSome

/-! ## Insertion -/

/-- Put `v` under `k` in increasing rows, in the place of a row with that key. -/
def place (k : κ) (v : ν) : List (κ × ν) → List (κ × ν)
  | [] => [(k, v)]
  | (k', v') :: rest =>
    if k < k' then (k, v) :: (k', v') :: rest
    else if k = k' then (k, v) :: rest
    else (k', v') :: place k v rest

theorem mem_place {k : κ} {v : ν} {row : κ × ν} {rows : List (κ × ν)}
    (h : row ∈ place k v rows) : row = (k, v) ∨ row ∈ rows := by
  induction rows with
  | nil => simpa [place] using h
  | cons head rest ih =>
    obtain ⟨k', v'⟩ := head
    simp only [place] at h
    split at h
    · simpa using h
    · split at h
      · rcases List.mem_cons.mp h with h | h
        · exact .inl h
        · exact .inr (List.mem_cons_of_mem _ h)
      · rcases List.mem_cons.mp h with h | h
        · exact .inr (h ▸ List.mem_cons_self)
        · exact (ih h).imp_right (List.mem_cons_of_mem _)

theorem pairwise_place (k : κ) (v : ν) {rows : List (κ × ν)}
    (h : rows.Pairwise fun a b => a.1 < b.1) :
    (place k v rows).Pairwise fun a b => a.1 < b.1 := by
  induction rows with
  | nil => simp [place]
  | cons head rest ih =>
    obtain ⟨k', v'⟩ := head
    have hhead := (List.pairwise_cons.mp h).1
    have hrest := (List.pairwise_cons.mp h).2
    simp only [place]
    split
    · next hlt =>
      refine List.pairwise_cons.mpr ⟨fun row hrow => ?_, h⟩
      rcases List.mem_cons.mp hrow with rfl | hrow
      · exact hlt
      · exact Key.trans hlt (hhead row hrow)
    · next hnlt =>
      split
      · next heq =>
        subst heq
        exact List.pairwise_cons.mpr ⟨hhead, hrest⟩
      · next hne =>
        refine List.pairwise_cons.mpr ⟨fun row hrow => ?_, ih hrest⟩
        rcases mem_place hrow with rfl | hrow
        · exact Classical.byContradiction fun hngt => hne (Key.total hnlt hngt)
        · exact hhead row hrow

/-- Store `v` under `k`, in the place of an earlier value. -/
def insert (m : SortedMap κ ν) (k : κ) (v : ν) : SortedMap κ ν :=
  ⟨place k v m.rows, pairwise_place k v m.sorted⟩

/-- The map holding the given rows; of two rows with one key the later stands. -/
def ofList (rows : List (κ × ν)) : SortedMap κ ν :=
  rows.foldl (fun m row => m.insert row.1 row.2) empty

/-! ## Removal -/

/-- Drop the row stored under `k`. -/
def erase (m : SortedMap κ ν) (k : κ) : SortedMap κ ν :=
  ⟨m.rows.filter fun row => !decide (row.1 = k), m.sorted.filter _⟩

/-- Keep the rows that pass a test. -/
def filter (m : SortedMap κ ν) (p : κ → ν → Bool) : SortedMap κ ν :=
  ⟨m.rows.filter fun row => p row.1 row.2, m.sorted.filter _⟩

/-! ## Change in place -/

/-- Apply `f` to the value stored under `k`, if there is one. -/
def modify (m : SortedMap κ ν) (k : κ) (f : ν → ν) : SortedMap κ ν where
  rows := m.rows.map fun row => if row.1 = k then (row.1, f row.2) else row
  sorted := by
    refine List.pairwise_map.mpr (m.sorted.imp fun {a b} h => ?_)
    split <;> split <;> exact h

/-- Apply `f` to every value. -/
def map {ν' : Type} (f : ν → ν') (m : SortedMap κ ν) : SortedMap κ ν' where
  rows := m.rows.map fun row => (row.1, f row.2)
  sorted := List.pairwise_map.mpr m.sorted

/-! ## Lookup after each operation -/

theorem find_place_self (k : κ) (v : ν) (rows : List (κ × ν)) :
    find k (place k v rows) = some v := by
  induction rows with
  | nil => simp [place, find]
  | cons head rest ih =>
    obtain ⟨k', v'⟩ := head
    simp only [place]
    split
    · simp [find]
    · split
      · simp [find]
      · next hne => simp [find, hne, ih]

theorem find_place_ne {k k' : κ} (v : ν) (rows : List (κ × ν)) (h : k' ≠ k) :
    find k' (place k v rows) = find k' rows := by
  induction rows with
  | nil => simp [place, find, h]
  | cons head rest ih =>
    obtain ⟨k'', v''⟩ := head
    simp only [place]
    split
    · simp [find, h]
    · split
      · next heq =>
        subst heq
        simp [find, h]
      · simp [find, ih]

@[simp] theorem get?_empty (k : κ) : (empty : SortedMap κ ν).get? k = none := rfl

@[simp] theorem get?_insert_self (m : SortedMap κ ν) (k : κ) (v : ν) :
    (m.insert k v).get? k = some v :=
  find_place_self k v m.rows

theorem get?_insert_ne (m : SortedMap κ ν) {k k' : κ} (v : ν) (h : k' ≠ k) :
    (m.insert k v).get? k' = m.get? k' :=
  find_place_ne v m.rows h

theorem find_filter_ne (k k' : κ) (rows : List (κ × ν)) :
    find k' (rows.filter fun row => !decide (row.1 = k)) =
      if k' = k then none else find k' rows := by
  induction rows with
  | nil => simp [find]
  | cons head rest ih =>
    obtain ⟨k'', v''⟩ := head
    by_cases hk : k'' = k
    · subst hk
      by_cases hk' : k' = k''
      · subst hk'
        simpa using ih
      · simp [ih, hk', find]
    · by_cases hk' : k' = k''
      · subst hk'
        simp [hk, find]
      · simp [hk, ih, hk', find]

theorem get?_erase (m : SortedMap κ ν) (k k' : κ) :
    (m.erase k).get? k' = if k' = k then none else m.get? k' :=
  find_filter_ne k k' m.rows

theorem get?_map {ν' : Type} (m : SortedMap κ ν) (f : ν → ν') (k : κ) :
    (m.map f).get? k = (m.get? k).map f := by
  simp only [get?, map]
  induction m.rows with
  | nil => rfl
  | cons head rest ih =>
    simp only [List.map_cons, find]
    split
    · rfl
    · exact ih

theorem get?_modify (m : SortedMap κ ν) (k k' : κ) (f : ν → ν) :
    (m.modify k f).get? k' = if k' = k then (m.get? k').map f else m.get? k' := by
  simp only [get?, modify]
  induction m.rows with
  | nil => simp [find]
  | cons head rest ih =>
    obtain ⟨k'', v''⟩ := head
    by_cases hk : k'' = k
    · subst hk
      by_cases hk' : k' = k''
      · simp [find, hk']
      · simpa [find, hk'] using ih
    · by_cases hk' : k' = k''
      · subst hk'
        simp [find, hk]
      · by_cases hkk : k' = k
        · simp [find, hk, hkk] at ih ⊢
          simpa [Ne.symm hk] using ih
        · simpa [find, hk, hk', hkk] using ih

end SortedMap

end TaskFleet
