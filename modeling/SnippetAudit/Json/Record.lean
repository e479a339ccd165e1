import SnippetAudit.Json.Value

/-!
Values of the library as JSON.

A record is written as an object. It is read from an object, whose other members are ignored, or
from an array that holds its fields in order. An optional field may be missing from an object, and
a field with a default from both.
-/

namespace SnippetAudit.Json

/-- Types whose values are written as JSON and read back. -/
class Coded (α : Type) where
  encode : α → Json
  /-- The value that some JSON stands for, or `none` if it does not fit. -/
  decode : Json → Option α

export Coded (encode decode)

instance : Coded Json where
  encode j := j
  decode j := some j

instance : Coded Bool where
  encode b := .bool b
  decode
    | .bool b => some b
    | _ => none

instance : Coded String where
  encode s := .string s
  decode
    | .string s => some s
    | _ => none

instance : Coded Nat where
  encode n := .int n
  decode
    | .int n => n.toNat?
    | _ => none

instance : Coded UInt32 where
  encode n := .int n.toNat
  decode
    | .int n => if 0 ≤ n ∧ n < 0x100000000 then some n.toNat.toUInt32 else none
    | _ => none

/-- A number that is not finite is written as `null`, and an integer is read as the nearest
number. -/
instance : Coded Float where
  encode x := if x.isFinite then .float x else .null
  decode
    | .float x => some x
    | .int n => some (Float.ofInt n)
    | _ => none

instance {α : Type} [Coded α] : Coded (Option α) where
  encode
    | some a => encode a
    | none => .null
  decode
    | .null => some none
    | j => (decode j).map some

/-- Read every item. -/
def decodeAll {α : Type} [Coded α] : List Json → Option (List α)
  | [] => some []
  | j :: rest => do some ((← decode j) :: (← decodeAll rest))

instance {α : Type} [Coded α] : Coded (List α) where
  encode as := .array (as.map encode)
  decode
    | .array items => decodeAll items
    | _ => none

/-- The fields that were found for a record. -/
structure Row where
  cells : List (String × Json)
  /-- Whether they were found by their order. -/
  ordered : Bool

/-- The fields of a record with the given names. A name that occurs twice in an object, and an
array with more items than names, do not fit. -/
def row? (names : List String) : Json → Option Row
  | .object members =>
    if names.any fun n => 1 < members.countP (·.1 == n) then none else some ⟨members, false⟩
  | .array items => if items.length ≤ names.length then some ⟨names.zip items, true⟩ else none
  | _ => none

namespace Row

/-- A field that has to be there. -/
def required {α : Type} [Coded α] (r : Row) (name : String) : Option α :=
  (r.cells.lookup name).bind decode

/-- A field that an object may lack. -/
def optional {α : Type} [Coded α] (r : Row) (name : String) : Option (Option α) :=
  match r.cells.lookup name with
  | none => if r.ordered then none else some none
  | some j => decode j

/-- A field with a default. -/
def withDefault {α : Type} [Coded α] (r : Row) (name : String) (default : α) : Option α :=
  match r.cells.lookup name with
  | none => some default
  | some j => decode j

end Row

/-- The word that a value stands for: a string, or an object whose only member has that name and
no value. -/
def word? : Json → Option String
  | .string s => some s
  | .object [(s, .null)] => some s
  | _ => none

/-- The first of some values whose word is the given one. -/
def ofWord {α : Type} (word : α → String) (values : List α) (j : Json) : Option α := do
  let w ← word? j
  values.find? (word · == w)

end SnippetAudit.Json
