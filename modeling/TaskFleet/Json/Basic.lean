import TaskFleet.Json.Token

/-!
# JSON documents

A document is a tree.  `Json.tokens` lists its tokens and `Json.parse?` reads a list of
tokens back with an explicit stack of unfinished containers: one step per token, no
look-ahead, so reading a document that is followed by more tokens is reading the
document and going on.

Members of an object keep their order and may repeat; what that means is decided where
a record is read from the object.
-/

namespace TaskFleet

/-- A JSON document.  A string, or a member's key, is `none` when its escapes leave half
of a surrogate pair alone. -/
inductive Json where
  | null
  | bool (b : Bool)
  | number (negative : Bool) (magnitude : Nat) (tail : List Char)
  | string (content : Option String)
  | array (items : List Json)
  | object (members : List (Option String × Json))
deriving Repr, Inhabited

namespace Json

/-! ## Writing -/

mutual

/-- The tokens of a document. -/
def tokens : Json → List Token
  | .null => [.null]
  | .bool b => [.bool b]
  | .number negative magnitude tail => [.number negative magnitude tail]
  | .string content => [.string content]
  | .array items => .openBracket :: (itemTokens items ++ [.closeBracket])
  | .object members => .openBrace :: (memberTokens members ++ [.closeBrace])

/-- The tokens of the items of an array, with commas between. -/
def itemTokens : List Json → List Token
  | [] => []
  | [item] => item.tokens
  | item :: items => item.tokens ++ .comma :: itemTokens items

/-- The tokens of the members of an object, with commas between. -/
def memberTokens : List (Option String × Json) → List Token
  | [] => []
  | [(key, value)] => .string key :: .colon :: value.tokens
  | (key, value) :: members =>
    .string key :: .colon :: (value.tokens ++ .comma :: memberTokens members)

end

/-- The text of a document, without blanks. -/
def render (j : Json) : List Char :=
  j.tokens.flatMap Token.text

/-- The text of a document as a string. -/
def toText (j : Json) : String :=
  String.ofList j.render

/-! ## Reading -/

/-- A container that is read in part: what it holds so far, the latest first. -/
inductive Frame where
  | items (done : List Json)
  | member (done : List (Option String × Json)) (name : Option String)

/-- Where a reader stands: what may come next, inside which unfinished containers. -/
inductive Reader where
  | value (outer : List Frame)
  | inArray (outer : List Frame)
  | inObject (outer : List Frame)
  | key (done : List (Option String × Json)) (outer : List Frame)
  | colon (done : List (Option String × Json)) (name : Option String) (outer : List Frame)
  | afterItem (done : List Json) (outer : List Frame)
  | afterMember (done : List (Option String × Json)) (outer : List Frame)
  | finished (j : Json)

/-- Where a reader stands after a whole document inside `outer`. -/
def Reader.deliver (j : Json) : List Frame → Reader
  | [] => .finished j
  | .items done :: outer => .afterItem (j :: done) outer
  | .member done name :: outer => .afterMember ((name, j) :: done) outer

/-- Where a reader stands after the first token of a document inside `outer`. -/
def Reader.start (outer : List Frame) : Token → Option Reader
  | .null => some (.deliver .null outer)
  | .bool b => some (.deliver (.bool b) outer)
  | .number negative magnitude tail => some (.deliver (.number negative magnitude tail) outer)
  | .string content => some (.deliver (.string content) outer)
  | .openBracket => some (.inArray outer)
  | .openBrace => some (.inObject outer)
  | _ => none

/-- One token further; `none` if the grammar has no place for it. -/
def Reader.step : Reader → Token → Option Reader
  | .value outer, t => start outer t
  | .inArray outer, .closeBracket => some (.deliver (.array []) outer)
  | .inArray outer, t => start (.items [] :: outer) t
  | .inObject outer, .closeBrace => some (.deliver (.object []) outer)
  | .inObject outer, .string name => some (.colon [] name outer)
  | .key done outer, .string name => some (.colon done name outer)
  | .colon done name outer, .colon => some (.value (.member done name :: outer))
  | .afterItem done outer, .comma => some (.value (.items done :: outer))
  | .afterItem done outer, .closeBracket => some (.deliver (.array done.reverse) outer)
  | .afterMember done outer, .comma => some (.key done outer)
  | .afterMember done outer, .closeBrace => some (.deliver (.object done.reverse) outer)
  | _, _ => none

/-- A reader fed with a list of tokens. -/
def Reader.feed : Reader → List Token → Option Reader
  | r, [] => some r
  | r, t :: ts => (r.step t).bind fun r => r.feed ts

/-- The document that a list of tokens spells. -/
def ofTokens? (ts : List Token) : Option Json :=
  match (Reader.value []).feed ts with
  | some (.finished j) => some j
  | _ => none

/-- The document that a text spells; blanks may stand between its tokens. -/
def parse? (s : String) : Option Json :=
  (tokens? s.toList).bind ofTokens?

end Json

end TaskFleet
