import TaskFleet.Json.Basic
import TaskFleet.Proofs.Json.Token

/-!
# Documents are read back as they were written

Reading takes one token at a time and looks at nothing that comes later, so what is proved by
induction on the document is a statement about every position: wherever a value may stand, the
tokens of a document bring the reader to where it stands after that document, whatever tokens
follow (`feed_tokens`).  The items of an array and the members of an object have a statement of
the same kind, in which what was read before them is part of the position.

A document is legal if its numbers could be written in the first place.  Every legal document
is read back from its text (`parse?_toText`); strings need no such care, and a string that is
half of a surrogate pair is written as that half.
-/

namespace TaskFleet.Json

/-! ## Legal documents -/

/-- Every number of the document has a fraction and an exponent, or none of them, after its
whole part. -/
def IsLegal (j : Json) : Prop :=
  ∀ t ∈ j.tokens, t.IsLegal

theorem legal_itemTokens_iff {items : List Json} :
    (∀ t ∈ itemTokens items, t.IsLegal) ↔ ∀ item ∈ items, item.IsLegal := by
  induction items with
  | nil => simp [itemTokens]
  | cons item items ih =>
    cases items with
    | nil => simp [itemTokens, IsLegal]
    | cons next items =>
      rw [itemTokens, List.forall_mem_append, List.forall_mem_cons, ih, List.forall_mem_cons]
      · simp [IsLegal, Token.IsLegal]
      · simp

theorem legal_memberTokens_iff {members : List (Option String × Json)} :
    (∀ t ∈ memberTokens members, t.IsLegal) ↔ ∀ m ∈ members, m.2.IsLegal := by
  induction members with
  | nil => simp [memberTokens]
  | cons member members ih =>
    obtain ⟨name, value⟩ := member
    cases members with
    | nil => simp [memberTokens, IsLegal, Token.IsLegal]
    | cons next members =>
      rw [memberTokens, List.forall_mem_cons, List.forall_mem_cons, List.forall_mem_append,
        List.forall_mem_cons, ih, List.forall_mem_cons]
      · simp [IsLegal, Token.IsLegal]
      · simp

@[simp] theorem isLegal_array_iff {items : List Json} :
    (Json.array items).IsLegal ↔ ∀ item ∈ items, item.IsLegal := by
  rw [← legal_itemTokens_iff]
  simp [IsLegal, tokens, Token.IsLegal, or_imp, forall_and]

@[simp] theorem isLegal_object_iff {members : List (Option String × Json)} :
    (Json.object members).IsLegal ↔ ∀ m ∈ members, m.2.IsLegal := by
  rw [← legal_memberTokens_iff]
  simp [IsLegal, tokens, Token.IsLegal, or_imp, forall_and]

/-! ## No number stands next to another -/

/-- A token that is no number may stand before anything. -/
theorem isChain_mark {ts : List Token} {mark : Token} (hmark : mark.isNumber = false)
    (hts : ts.IsChain Token.Apart) : (mark :: ts).IsChain Token.Apart := by
  refine hts.cons fun t _ => ?_
  simp [Token.Apart, hmark]

/-- A token that is no number keeps what is before it apart from what is after it. -/
theorem isChain_append_mark {ts us : List Token} {mark : Token} (hmark : mark.isNumber = false)
    (hts : ts.IsChain Token.Apart) (hus : us.IsChain Token.Apart) :
    (ts ++ mark :: us).IsChain Token.Apart := by
  refine hts.append (isChain_mark hmark hus) fun t _ u hu => ?_
  obtain rfl : mark = u := by simpa using hu
  simp [Token.Apart, hmark]

mutual

theorem apart_tokens : ∀ j : Json, j.tokens.IsChain Token.Apart
  | .null => .singleton _
  | .bool _ => .singleton _
  | .number _ _ _ => .singleton _
  | .string _ => .singleton _
  | .array items =>
    isChain_mark rfl (isChain_append_mark rfl (apart_itemTokens items) .nil)
  | .object members =>
    isChain_mark rfl (isChain_append_mark rfl (apart_memberTokens members) .nil)

theorem apart_itemTokens : ∀ items : List Json, (itemTokens items).IsChain Token.Apart
  | [] => .nil
  | [item] => apart_tokens item
  | item :: next :: items =>
    isChain_append_mark rfl (apart_tokens item) (apart_itemTokens (next :: items))

theorem apart_memberTokens : ∀ members : List (Option String × Json),
    (memberTokens members).IsChain Token.Apart
  | [] => .nil
  | [(_, value)] =>
    isChain_mark rfl (isChain_mark rfl (apart_tokens value))
  | (_, value) :: next :: members =>
    isChain_mark rfl (isChain_mark rfl
      (isChain_append_mark rfl (apart_tokens value) (apart_memberTokens (next :: members))))

end

/-- The text of a legal document is cut into the document's tokens. -/
theorem tokens?_render {j : Json} (h : j.IsLegal) : tokens? j.render = some j.tokens :=
  tokens?_text h (apart_tokens j)

/-! ## Reading the tokens of a document -/

theorem feed_cons (r : Reader) (t : Token) (ts : List Token) :
    r.feed (t :: ts) = (r.step t).bind fun r => r.feed ts := rfl

/-- The first item of an array is read like any later one, for no item begins with the bracket
that would close the array. -/
theorem feed_inArray (item : Json) (items : List Json) (outer : List Frame) (ts : List Token) :
    (Reader.inArray outer).feed (itemTokens (item :: items) ++ ts) =
      (Reader.value (.items [] :: outer)).feed (itemTokens (item :: items) ++ ts) := by
  cases items <;> cases item <;> rfl

/-- The first member of an object is read like any later one. -/
theorem feed_inObject (member : Option String × Json) (members : List (Option String × Json))
    (outer : List Frame) (ts : List Token) :
    (Reader.inObject outer).feed (memberTokens (member :: members) ++ ts) =
      (Reader.key [] outer).feed (memberTokens (member :: members) ++ ts) := by
  cases members <;> rfl

mutual

/-- The tokens of a document bring a reader to where it stands after the document. -/
theorem feed_tokens : ∀ (j : Json) (outer : List Frame) (ts : List Token),
    (Reader.value outer).feed (j.tokens ++ ts) = (Reader.deliver j outer).feed ts
  | .null, _, _ => rfl
  | .bool _, _, _ => rfl
  | .number _ _ _, _, _ => rfl
  | .string _, _, _ => rfl
  | .array [], _, _ => rfl
  | .array (item :: items), outer, ts => by
    have hitems := feed_itemTokens (item :: items) [] outer ts (List.cons_ne_nil _ _)
    rw [tokens, List.cons_append, List.append_assoc, List.singleton_append, feed_cons]
    show (Reader.inArray outer).feed _ = _
    rw [feed_inArray, hitems]
    rfl
  | .object [], _, _ => rfl
  | .object (member :: members), outer, ts => by
    have hmembers := feed_memberTokens (member :: members) [] outer ts (List.cons_ne_nil _ _)
    rw [tokens, List.cons_append, List.append_assoc, List.singleton_append, feed_cons]
    show (Reader.inObject outer).feed _ = _
    rw [feed_inObject, hmembers]
    rfl

theorem feed_itemTokens : ∀ (items done : List Json) (outer : List Frame) (ts : List Token),
    items ≠ [] →
    (Reader.value (.items done :: outer)).feed (itemTokens items ++ .closeBracket :: ts) =
      (Reader.deliver (.array (done.reverse ++ items)) outer).feed ts
  | [], _, _, _, h => absurd rfl h
  | [item], done, outer, ts, _ => by
    rw [itemTokens, feed_tokens item, Reader.deliver, feed_cons, Reader.step, Option.bind_some,
      List.reverse_cons]
  | item :: next :: items, done, outer, ts, _ => by
    have hrest := feed_itemTokens (next :: items) (item :: done) outer ts (List.cons_ne_nil _ _)
    rw [itemTokens, List.append_assoc, List.cons_append, feed_tokens item, Reader.deliver,
      feed_cons, Reader.step, Option.bind_some, hrest, List.reverse_cons, List.append_assoc,
      List.singleton_append]
    exact List.cons_ne_nil _ _

theorem feed_memberTokens : ∀ (members done : List (Option String × Json))
    (outer : List Frame) (ts : List Token), members ≠ [] →
    (Reader.key done outer).feed (memberTokens members ++ .closeBrace :: ts) =
      (Reader.deliver (.object (done.reverse ++ members)) outer).feed ts
  | [], _, _, _, h => absurd rfl h
  | [(name, value)], done, outer, ts, _ => by
    show (Reader.value (.member done name :: outer)).feed
      (value.tokens ++ .closeBrace :: ts) = _
    rw [feed_tokens value, Reader.deliver, feed_cons, Reader.step, Option.bind_some,
      List.reverse_cons]
  | (name, value) :: next :: members, done, outer, ts, _ => by
    have hrest := feed_memberTokens (next :: members) ((name, value) :: done) outer ts
      (List.cons_ne_nil _ _)
    show (Reader.value (.member done name :: outer)).feed
      ((value.tokens ++ .comma :: memberTokens (next :: members)) ++ .closeBrace :: ts) = _
    rw [List.append_assoc, List.cons_append, feed_tokens value, Reader.deliver, feed_cons,
      Reader.step, Option.bind_some, hrest, List.reverse_cons, List.append_assoc,
      List.singleton_append]

end

/-- A list of tokens spells the document whose tokens they are. -/
theorem ofTokens?_tokens (j : Json) : ofTokens? j.tokens = some j := by
  have h := feed_tokens j [] []
  rw [List.append_nil] at h
  rw [ofTokens?, h]
  rfl

/-- A legal document is read back from its text. -/
theorem parse?_toText {j : Json} (h : j.IsLegal) : parse? j.toText = some j := by
  rw [parse?, toText, String.toList_ofList, tokens?_render h, Option.bind_some, ofTokens?_tokens]

end TaskFleet.Json
