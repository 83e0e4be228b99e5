import TaskFleet.Json.Codec
import TaskFleet.Proofs.Json.Document
import TaskFleet.Proofs.SortedMap

/-!
# Decoding undoes encoding

A type is lawful if the documents of its values are legal and are read back as the values
(`LawfulCodec`).  Then the text of a value is read back too, since a legal document survives
being written (`ofJsonText?_toJsonText`).

Words, texts, lists and tables are lawful.  An option is written as the value it holds or as
`null`, so it is lawful over types that never write `null`.

What is known of a record is where its fields are looked for.  Its members may be written in
any order and with others between them; `fields?_of_writes` says that this makes no
difference, and a record that is written in order is a special case.
-/

namespace TaskFleet

/-- The documents of all values are legal and are read back as the values. -/
class LawfulCodec (α : Type) [Codec α] : Prop where
  isLegal_encode : ∀ a : α, (encode a).IsLegal
  decode?_encode : ∀ a : α, decode? (encode a) = some a

export LawfulCodec (isLegal_encode decode?_encode)

attribute [simp] isLegal_encode decode?_encode

/-- No value is written as `null`. -/
class NeverNull (α : Type) [Codec α] : Prop where
  encode_ne_null : ∀ a : α, encode a ≠ .null

/-- A value is read back from its text. -/
theorem ofJsonText?_toJsonText {α : Type} [Codec α] [LawfulCodec α] (a : α) :
    ofJsonText? α (toJsonText a) = some a := by
  rw [ofJsonText?, toJsonText, Json.parse?_toText (isLegal_encode a), Option.bind_some,
    decode?_encode]

/-! ## Words and texts -/

namespace Json

theorem isLegal_number (negative : Bool) (magnitude : Nat) :
    (Json.number negative magnitude []).IsLegal := by
  intro t ht
  obtain rfl : t = .number negative magnitude [] := by simpa [tokens] using ht
  exact ⟨[], [], .none, .none, rfl⟩

@[simp] theorem isLegal_null : Json.null.IsLegal := by simp [IsLegal, tokens, Token.IsLegal]

@[simp] theorem isLegal_bool (b : Bool) : (Json.bool b).IsLegal := by
  simp [IsLegal, tokens, Token.IsLegal]

@[simp] theorem isLegal_string (content : Option String) : (Json.string content).IsLegal := by
  simp [IsLegal, tokens, Token.IsLegal]

@[simp] theorem isLegal_ofNat (n : Nat) : (ofNat n).IsLegal := isLegal_number false n

@[simp] theorem isLegal_ofInt (n : Int) : (ofInt n).IsLegal := by
  cases n <;> exact isLegal_number _ _

theorem below?_ofNat {bound n : Nat} (h : n < bound) : (ofNat n).below? bound = some n := by
  rw [below?, ofNat, natural?, Option.bind_some, if_pos h]

theorem integer?_ofInt (n : Int) : (ofInt n).integer? = some n := by
  cases n <;> rfl

end Json

instance : LawfulCodec Bool where
  isLegal_encode := Json.isLegal_bool
  decode?_encode _ := rfl

instance : LawfulCodec String where
  isLegal_encode s := Json.isLegal_string (some s)
  decode?_encode _ := rfl

instance : LawfulCodec UInt16 where
  isLegal_encode w := Json.isLegal_ofNat w.toNat
  decode?_encode w := by
    show ((Json.ofNat w.toNat).below? UInt16.size).map UInt16.ofNat = some w
    rw [Json.below?_ofNat w.toNat_lt, Option.map_some, UInt16.ofNat_toNat]

instance : LawfulCodec UInt32 where
  isLegal_encode w := Json.isLegal_ofNat w.toNat
  decode?_encode w := by
    show ((Json.ofNat w.toNat).below? UInt32.size).map UInt32.ofNat = some w
    rw [Json.below?_ofNat w.toNat_lt, Option.map_some, UInt32.ofNat_toNat]

instance : LawfulCodec UInt64 where
  isLegal_encode w := Json.isLegal_ofNat w.toNat
  decode?_encode w := by
    show ((Json.ofNat w.toNat).below? UInt64.size).map UInt64.ofNat = some w
    rw [Json.below?_ofNat w.toNat_lt, Option.map_some, UInt64.ofNat_toNat]

instance : LawfulCodec Int32 where
  isLegal_encode w := Json.isLegal_ofInt w.toInt
  decode?_encode w := by
    have hrange : Int32.minValue.toInt ≤ w.toInt ∧ w.toInt ≤ Int32.maxValue.toInt :=
      ⟨w.minValue_le_toInt, w.toInt_le⟩
    show ((Json.ofInt w.toInt).integer?.bind fun n =>
      if Int32.minValue.toInt ≤ n ∧ n ≤ Int32.maxValue.toInt then some (Int32.ofInt n)
      else none) = some w
    rw [Json.integer?_ofInt, Option.bind_some, if_pos hrange, Int32.ofInt_toInt]

instance : LawfulCodec Instant where
  isLegal_encode t := Json.isLegal_ofNat t.ms
  decode?_encode := Instant.ofNat?_ms

instance : NeverNull Bool := ⟨fun _ => Json.noConfusion⟩

instance : NeverNull String := ⟨fun _ => Json.noConfusion⟩

instance : NeverNull UInt64 := ⟨fun _ => Json.noConfusion⟩

/-! ## Options, lists and tables -/

section Containers

variable {α : Type} [Codec α] [LawfulCodec α]

instance [NeverNull α] : LawfulCodec (Option α) where
  isLegal_encode
    | none => Json.isLegal_null
    | some a => isLegal_encode a
  decode?_encode
    | none => rfl
    | some a => by
      have hnull : encode a ≠ .null := NeverNull.encode_ne_null a
      have hread : decode? (encode a) = some a := decode?_encode a
      show decode? (α := Option α) (encode a) = some (some a)
      generalize encode a = j at hnull hread
      cases j with
      | null => exact absurd rfl hnull
      | _ =>
        show (decode? _).map some = _
        rw [hread, Option.map_some]

/-- If every element is read as its image, the list is read as the list of images. -/
theorem readAll_map {α β γ : Type} {f : β → Option γ} {g : α → β} {h : α → γ} {as : List α}
    (hread : ∀ a ∈ as, f (g a) = some (h a)) : readAll f (as.map g) = some (as.map h) := by
  induction as with
  | nil => rfl
  | cons a as ih =>
    rw [List.map_cons, readAll, hread a List.mem_cons_self,
      ih fun a ha => hread a (List.mem_cons_of_mem _ ha), List.map_cons]

instance : LawfulCodec (List α) where
  isLegal_encode as := by simp [encode]
  decode?_encode as := by
    have h : readAll decode? (as.map encode) = some (as.map fun a : α => a) :=
      readAll_map fun a _ => decode?_encode a
    rw [List.map_id'] at h
    exact h

namespace SortedMap

variable {κ ν : Type} [Key κ]

/-- A row whose key is larger than all others is stored behind them. -/
theorem place_of_lt {k : κ} {v : ν} {rows : List (κ × ν)} (h : ∀ row ∈ rows, row.1 < k) :
    place k v rows = rows ++ [(k, v)] := by
  induction rows with
  | nil => rfl
  | cons head rest ih =>
    obtain ⟨k', v'⟩ := head
    have hlt : k' < k := h (k', v') List.mem_cons_self
    have hnlt : ¬ k < k' := fun hgt => Key.irrefl k (Key.trans hgt hlt)
    have hne : k ≠ k' := fun heq => Key.irrefl k' (heq ▸ hlt)
    rw [place, if_neg hnlt, if_neg hne, ih fun row hrow => h row (List.mem_cons_of_mem _ hrow),
      List.cons_append]

theorem rows_foldl_insert {rows : List (κ × ν)} {m : SortedMap κ ν}
    (h : (m.rows ++ rows).Pairwise fun a b => a.1 < b.1) :
    (rows.foldl (fun m row => m.insert row.1 row.2) m).rows = m.rows ++ rows := by
  induction rows generalizing m with
  | nil => simp
  | cons row rows ih =>
    have hrows : (m.insert row.1 row.2).rows = m.rows ++ [row] :=
      place_of_lt fun earlier hearlier =>
        (List.pairwise_append.mp h).2.2 earlier hearlier row List.mem_cons_self
    rw [List.append_cons, ← hrows] at h
    rw [List.foldl_cons, ih h, hrows, List.append_assoc, List.singleton_append]

/-- A map is made of its own rows. -/
@[simp] theorem ofList_rows (m : SortedMap κ ν) : ofList m.rows = m :=
  SortedMap.ext (rows_foldl_insert (m := empty) m.sorted)

end SortedMap

instance : LawfulCodec (SortedMap String α) where
  isLegal_encode m := by
    simp only [encode, Json.isLegal_object_iff, List.forall_mem_map]
    exact fun row _ => isLegal_encode row.2
  decode?_encode m := by
    refine (congrArg (Option.map SortedMap.ofList)
      (readAll_map (h := fun row => row) fun row _ => ?_)).trans ?_
    · simp only [decode?_encode]
    · rw [List.map_id', Option.map_some, SortedMap.ofList_rows]

end Containers

/-! ## Records -/

namespace Json

/-- The members that fields are written as: a field without a document is left out. -/
def written (fields : List (String × Option Json)) : List (Option String × Json) :=
  fields.filterMap fun field => field.2.map fun value => (some field.1, value)

/-- Among `members` a record finds exactly its `fields`, those that have a document, in some
order.  Whatever else is there has other names. -/
structure Writes (fields : List (String × Option Json)) (members : List (Option String × Json)) :
    Prop where
  named : ∀ m ∈ members, m.1.isSome
  known : (members.filter fun m => fields.any fun field => decide (m.1 = some field.1)).Perm
    (written fields)

theorem mem_written {fields : List (String × Option Json)} {m : Option String × Json}
    (h : m ∈ written fields) : ∃ field ∈ fields, m.1 = some field.1 := by
  obtain ⟨field, hfield, hvalue⟩ := List.mem_filterMap.mp h
  obtain ⟨value, _, rfl⟩ := Option.map_eq_some_iff.mp hvalue
  exact ⟨field, hfield, rfl⟩

/-- Of fields with different names one at most is written under a given name. -/
theorem filter_written {fields : List (String × Option Json)}
    (hnodup : (fields.map Prod.fst).Nodup) {field : String × Option Json}
    (hfield : field ∈ fields) :
    (written fields).filter (fun m => decide (m.1 = some field.1)) = written [field] := by
  induction fields with
  | nil => cases hfield
  | cons first fields ih =>
    rw [List.map_cons, List.nodup_cons] at hnodup
    have hsplit : written (first :: fields) = written [first] ++ written fields := by
      simp only [written, ← List.filterMap_append, List.singleton_append]
    have hfirst : ∀ m ∈ written [first], m.1 = some first.1 := fun m hm => by
      simpa using mem_written hm
    rw [hsplit, List.filter_append]
    rcases List.mem_cons.mp hfield with rfl | hfield
    · have hothers : (written fields).filter (fun m => decide (m.1 = some field.1)) = [] := by
        refine List.filter_eq_nil_iff.mpr fun m hm hname => ?_
        obtain ⟨other, hother, hkey⟩ := mem_written hm
        have heq : other.1 = field.1 :=
          Option.some.inj (hkey.symm.trans (of_decide_eq_true hname))
        exact hnodup.1 (List.mem_map.mpr ⟨other, hother, heq⟩)
      rw [hothers, List.append_nil, List.filter_eq_self]
      exact fun m hm => decide_eq_true (hfirst m hm)
    · have hnone : (written [first]).filter (fun m => decide (m.1 = some field.1)) = [] := by
        refine List.filter_eq_nil_iff.mpr fun m hm hname => ?_
        have heq : field.1 = first.1 :=
          Option.some.inj ((of_decide_eq_true hname).symm.trans (hfirst m hm))
        exact hnodup.1 (List.mem_map.mpr ⟨field, hfield, heq⟩)
      rw [hnone, List.nil_append, ih hnodup.2 hfield]

/-- A name that a record knows is written once if its field has a document, else never. -/
theorem Writes.filter_eq {fields : List (String × Option Json)}
    {members : List (Option String × Json)} (h : Writes fields members)
    (hnodup : (fields.map Prod.fst).Nodup) {field : String × Option Json}
    (hfield : field ∈ fields) :
    members.filter (fun m => decide (m.1 = some field.1)) = written [field] := by
  have hperm := h.known.filter fun m => decide (m.1 = some field.1)
  -- a member of that name is one of those that the record knows
  have hmembers : (members.filter fun m => fields.any fun field =>
      decide (m.1 = some field.1)).filter (fun m => decide (m.1 = some field.1)) =
      members.filter fun m => decide (m.1 = some field.1) := by
    rw [List.filter_filter]
    refine List.filter_congr fun m _ => ?_
    rw [Bool.and_eq_left_iff_imp]
    intro hm
    exact List.any_eq_true.mpr ⟨field, hfield, hm⟩
  rw [hmembers, filter_written hnodup hfield] at hperm
  obtain ⟨name, value?⟩ := field
  cases value? with
  | none => exact hperm.eq_nil
  | some value => exact hperm.eq_singleton

theorem member?_eq_filter (name : String) (members : List (Option String × Json)) :
    member? name members =
      (members.filter fun m => decide (m.1 = some name)).head?.map Prod.snd := by
  induction members with
  | nil => rfl
  | cons m members ih =>
    obtain ⟨key, value⟩ := m
    by_cases hkey : key = some name
    · simp [member?, hkey]
    · simp [member?, hkey, ih]

/-- A record finds its fields wherever they are written. -/
theorem fields?_of_writes {fields : List (String × Option Json)}
    {members : List (Option String × Json)} (h : Writes fields members)
    (hnodup : (fields.map Prod.fst).Nodup) (short : Bool) :
    (Json.object members).fields? (fields.map Prod.fst) short = some (fields.map Prod.snd) := by
  have honce : (fields.map Prod.fst).all (fun name => !isRepeated name members) = true := by
    refine List.all_eq_true.mpr fun name hname => ?_
    obtain ⟨field, hfield, rfl⟩ := List.mem_map.mp hname
    rw [isRepeated, h.filter_eq hnodup hfield]
    obtain ⟨name, value?⟩ := field
    cases value? <;> rfl
  rw [fields?, honce, List.all_eq_true.mpr h.named, Bool.and_true, if_pos rfl, List.map_map]
  refine congrArg some (List.map_congr_left fun field hfield => ?_)
  show member? field.1 members = field.2
  rw [member?_eq_filter, h.filter_eq hnodup hfield]
  obtain ⟨name, value?⟩ := field
  cases value? <;> rfl

/-- What is read from a record depends on its fields alone. -/
theorem bind_fields?_of_writes {α : Type} {fields : List (String × Option Json)}
    {members : List (Option String × Json)} (h : Writes fields members)
    (hnodup : (fields.map Prod.fst).Nodup) (short : Bool)
    (read : List (Option Json) → Option α) :
    ((Json.object members).fields? (fields.map Prod.fst) short).bind read =
      read (fields.map Prod.snd) := by
  rw [fields?_of_writes h hnodup, Option.bind_some]

/-- Fields that are written in order, with nothing else between them. -/
theorem writes_written (fields : List (String × Option Json)) : Writes fields (written fields) where
  named m hm := by
    obtain ⟨field, _, hname⟩ := mem_written hm
    rw [hname]
    rfl
  known := by
    refine List.Perm.of_eq (List.filter_eq_self.mpr fun m hm => ?_)
    obtain ⟨field, hfield, hname⟩ := mem_written hm
    exact List.any_eq_true.mpr ⟨field, hfield, decide_eq_true hname⟩

/-- A record that is written in order has all its fields. -/
theorem bind_fields?_record {α : Type} (fields : List (String × Json)) {short : Bool}
    (hnodup : (fields.map Prod.fst).Nodup) (read : List (Option Json) → Option α) :
    ((record fields).fields? (fields.map Prod.fst) short).bind read =
      read (fields.map fun field => some field.2) := by
  have hrecord : record fields =
      .object (written (fields.map fun field => (field.1, some field.2))) := by
    rw [record, written, List.filterMap_map, ← List.filterMap_eq_map]
    rfl
  have hread := bind_fields?_of_writes
    (writes_written (fields.map fun field => (field.1, some field.2)))
    (by rwa [List.map_map]) short read
  rw [List.map_map, List.map_map] at hread
  rw [hrecord]
  exact hread

@[simp] theorem isLegal_record_iff {fields : List (String × Json)} :
    (record fields).IsLegal ↔ ∀ field ∈ fields, field.2.IsLegal := by
  rw [record, isLegal_object_iff, List.forall_mem_map]

end Json

end TaskFleet
