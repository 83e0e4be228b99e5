import TaskFleet.Instant
import TaskFleet.Json.Basic
import TaskFleet.SortedMap

/-!
# Values as JSON documents

A `Codec` writes a value as a document and reads it back.  The rules shared by all
values are these.

* A whole number is written in decimal and read only from a number without fraction
  and exponent that fits the type; minus zero is not a whole number.
* A record is an object with its fields in the order of declaration.  It is read from
  an object in any order, unknown members are skipped and a known member must not be
  repeated; or from an array that lists the fields in order.
* An optional field may be missing or `null`; any other field must be there, unless the
  record has defaults.  Only a record with defaults may be cut short as an array.
* A case without content is its name; an object that gives the name to `null` is read
  as the same case.
-/

namespace TaskFleet

/-- Values that can be written as a JSON document and read back. -/
class Codec (α : Type) where
  encode : α → Json
  decode? : Json → Option α

export Codec (encode decode?)

/-- The JSON text of a value. -/
def toJsonText {α : Type} [Codec α] (a : α) : String :=
  (encode a).toText

/-- The value that a JSON text spells. -/
def ofJsonText? (α : Type) [Codec α] (s : String) : Option α :=
  (Json.parse? s).bind decode?

/-! ## Words -/

namespace Json

/-- The document of a natural number. -/
def ofNat (n : Nat) : Json := .number false n []

/-- The document of a string. -/
def ofString (s : String) : Json := .string (some s)

/-- The natural number that a document is. -/
def natural? : Json → Option Nat
  | .number false n [] => some n
  | _ => none

/-- The natural number below `bound` that a document is. -/
def below? (bound : Nat) (j : Json) : Option Nat :=
  j.natural?.bind fun n => if n < bound then some n else none

/-- The integer that a document is. -/
def integer? : Json → Option Int
  | .number false n [] => some n
  | .number true (n + 1) [] => some (Int.negSucc n)
  | _ => none

/-- The document of an integer. -/
def ofInt : Int → Json
  | .ofNat n => .number false n []
  | .negSucc n => .number true (n + 1) []

end Json

instance : Codec Bool where
  encode := .bool
  decode? := fun
    | .bool b => some b
    | _ => none

instance : Codec String where
  encode := .ofString
  decode? := fun
    | .string content => content
    | _ => none

instance : Codec UInt16 where
  encode w := .ofNat w.toNat
  decode? j := (j.below? UInt16.size).map UInt16.ofNat

instance : Codec UInt32 where
  encode w := .ofNat w.toNat
  decode? j := (j.below? UInt32.size).map UInt32.ofNat

instance : Codec UInt64 where
  encode w := .ofNat w.toNat
  decode? j := (j.below? UInt64.size).map UInt64.ofNat

instance : Codec Int32 where
  encode w := .ofInt w.toInt
  decode? j := j.integer?.bind fun n =>
    if Int32.minValue.toInt ≤ n ∧ n ≤ Int32.maxValue.toInt then some (Int32.ofInt n) else none

instance : Codec Instant where
  encode t := .ofNat t.ms
  decode? j := j.natural?.bind Instant.ofNat?

/-! ## Options, lists and maps -/

/-- The values of all elements, if each can be read. -/
def readAll {α β : Type} (f : α → Option β) : List α → Option (List β)
  | [] => some []
  | a :: as =>
    match f a, readAll f as with
    | some b, some bs => some (b :: bs)
    | _, _ => none

instance {α : Type} [Codec α] : Codec (Option α) where
  encode := fun
    | some a => encode a
    | none => .null
  decode? := fun
    | .null => some none
    | j => (decode? j).map some

instance {α : Type} [Codec α] : Codec (List α) where
  encode as := .array (as.map encode)
  decode? := fun
    | .array items => readAll decode? items
    | _ => none

instance {ν : Type} [Codec ν] : Codec (SortedMap String ν) where
  encode m := .object (m.rows.map fun row => (some row.1, encode row.2))
  decode? := fun
    | .object members =>
      (readAll (fun m : Option String × Json =>
        match m.1, decode? (α := ν) m.2 with
        | some k, some v => some (k, v)
        | _, _ => none) members).map SortedMap.ofList
    | _ => none

/-! ## Records -/

namespace Json

/-- The member called `name`, if there is one. -/
def member? (name : String) : List (Option String × Json) → Option Json
  | [] => none
  | (key, value) :: members => if key = some name then some value else member? name members

/-- Some member is called `name` and no later one is. -/
def isRepeated (name : String) (members : List (Option String × Json)) : Bool :=
  decide (1 < (members.filter fun m => decide (m.1 = some name)).length)

/-- The fields of a record, in the order of `names`.  A field that is not written is
`none`; only if `short` may an array be cut short. -/
def fields? (names : List String) (short : Bool) : Json → Option (List (Option Json))
  | .object members =>
    if members.all (fun m => m.1.isSome) && names.all (fun name => !isRepeated name members) then
      some (names.map fun name => member? name members)
    else none
  | .array items =>
    if items.length = names.length ∨ (short = true ∧ items.length < names.length) then
      some (items.map some ++ List.replicate (names.length - items.length) none)
    else none
  | _ => none

/-- The document of a record. -/
def record (members : List (String × Json)) : Json :=
  .object (members.map fun m => (some m.1, m.2))

end Json

/-- A field that must be written. -/
def required? {α : Type} [Codec α] (slot : Option Json) : Option α :=
  slot.bind decode?

/-- A field that may be missing. -/
def optional? {α : Type} [Codec α] : Option Json → Option (Option α)
  | none => some none
  | some j => decode? j

/-- A field that stands at `default` unless it is written. -/
def defaulted? {α : Type} [Codec α] (default : α) : Option Json → Option α
  | none => some default
  | some j => decode? j

/-! ## Cases without content -/

/-- The case name that a document gives: a string, or an object that gives the name to
`null`. -/
def Json.caseName? : Json → Option String
  | .string content => content
  | .object [(name, .null)] => name
  | _ => none

/-- The case of `all` whose name a document gives. -/
def Json.caseOf? {α : Type} (all : List α) (name : α → String) (j : Json) : Option α :=
  j.caseName?.bind fun text => all.find? fun a => decide (name a = text)

end TaskFleet
