import SnippetAudit.Json.Printer
import SnippetAudit.Json.Reader
import SnippetAudit.Style.Patterns
import SnippetAudit.Text.Moment

/-!
A user's style: for each trait the value that was observed first, and how often any was observed.
-/

namespace SnippetAudit.Style

/-- The traits that a profile keeps. -/
inductive Trait where
  | naming
  | indentation
  | quotes
  | lineLength
  | comments
  | imports
  deriving DecidableEq, Repr

namespace Trait

/-- The traits in the order of their declaration. -/
def all : List Trait := [naming, indentation, quotes, lineLength, comments, imports]

/-- The word for a trait. -/
def name : Trait → String
  | naming => "naming"
  | indentation => "indentation"
  | quotes => "quotes"
  | lineLength => "line_length"
  | comments => "comments"
  | imports => "imports"

instance : Json.Coded Trait where
  encode t := .string t.name
  decode := Json.ofWord name all

end Trait

/-- The value of a trait. -/
inductive Value where
  | indentation (i : Indentation)
  | text (s : String)
  | number (n : Nat)
  deriving DecidableEq, Repr

namespace Value

/-- A value in words. -/
def display : Value → String
  | indentation i => i.display
  | text s => s
  | number n => toString n

instance : Json.Coded Value where
  encode
    | indentation i => Json.encode i
    | text s => Json.encode s
    | number n => Json.encode n
  decode j :=
    ((Json.decode j).map indentation).or (((Json.decode j).map text).or ((Json.decode j).map number))

end Value

/-- The value of a trait in a snippet. -/
def Patterns.value (p : Patterns) : Trait → Value
  | .naming => .text p.naming.name
  | .indentation => .indentation p.indentation
  | .quotes => .text p.quotes.name
  | .lineLength => .number p.lineLength
  | .comments => .text p.comments.name
  | .imports => .text p.imports.name

/-- What a profile keeps of one trait. -/
structure Entry where
  value : Value
  /-- The number of snippets since the entry was made. -/
  frequency : UInt32
  confidence : Float
  deriving DecidableEq

namespace Entry

instance : Json.Coded Entry where
  encode e := .object [
    ("pattern_value", Json.encode e.value), ("frequency", Json.encode e.frequency),
    ("confidence", Json.encode e.confidence)]
  decode j := do
    let r ← Json.row? ["pattern_value", "frequency", "confidence"] j
    some {
      value := ← r.required "pattern_value"
      frequency := ← r.required "frequency"
      confidence := ← r.required "confidence" }

/-- The confidence after a number of observations: it is full from ten on. -/
def confidenceAfter (frequency : UInt32) : Float :=
  if frequency < 10 then Float.ofNat frequency.toNat / 10 else 1

/-- The entry for a value that is observed for the first time. -/
def first (value : Value) : Entry := ⟨value, 1, confidenceAfter 1⟩

/-- The entry after one more observation. The value stays, and so does the greatest frequency. -/
def again (e : Entry) : Entry :=
  let frequency := if e.frequency = 0xFFFFFFFF then e.frequency else e.frequency + 1
  ⟨e.value, frequency, confidenceAfter frequency⟩

end Entry

/-- A user's style. -/
structure Profile where
  version : UInt32
  user : String
  entries : Trait → Option Entry

namespace Profile

/-- The version of profiles that this library writes. -/
def currentVersion : UInt32 := 1

/-- The profile of a user of whom nothing was observed. -/
def new (user : String) : Profile := ⟨currentVersion, user, fun _ => none⟩

/-- The traits that have an entry, with their entries. -/
def toList (p : Profile) : List (Trait × Entry) :=
  Trait.all.filterMap fun t => (p.entries t).map (t, ·)

/-- Whether nothing was observed. -/
def isEmpty (p : Profile) : Bool := p.toList.isEmpty

/-- Add the observation of one snippet. -/
def merge (p : Profile) (patterns : Patterns) : Profile :=
  { p with
    entries := fun t =>
      match p.entries t with
      | some e => some e.again
      | none => some (.first (patterns.value t)) }

/-- The mean confidence of the entries, or zero. -/
def overallConfidence (p : Profile) : Float :=
  let entries := p.toList
  if entries.isEmpty then 0
  else (entries.map (·.2.confidence)).foldl (· + ·) (-0.0) / Float.ofNat entries.length

/-! ### Files -/

/-- The entries of a profile as members of an object. -/
def encodeEntries (p : Profile) : List (String × Json) :=
  p.toList.map fun (t, e) => (t.name, Json.encode e)

/-- Read the entries of a profile; of several for one trait the last is kept. -/
def decodeEntries : List (String × Json) → Option (Trait → Option Entry)
  | [] => some fun _ => none
  | (name, j) :: rest => do
    let t ← Trait.all.find? (·.name == name)
    let e : Entry ← Json.decode j
    let later ← decodeEntries rest
    some fun t' => (later t').or (if t' = t then some e else none)

/-- The text of a profile's file, given the time of writing. -/
def file (p : Profile) (updated : String) : String :=
  Json.pretty (.object [
    ("version", Json.encode p.version), ("user_id", Json.encode p.user),
    ("entries", .object p.encodeEntries), ("updated_at", .string updated)])

/-- The profile in some JSON, of whatever version. -/
def decode? (j : Json) : Option Profile := do
  let r ← Json.row? ["version", "user_id", "entries", "updated_at"] j
  let version ← r.required "version"
  let user ← r.required "user_id"
  let entries ← match ← r.cells.lookup "entries" with
    | .object members => decodeEntries members
    | _ => none
  let updated : String ← r.required "updated_at"
  if Text.isMoment updated then some ⟨version, user, entries⟩ else none

/-- The profile in a file, if it can be read and has the current version. -/
def ofFile? (text : String) : Option Profile := do
  let p ← decode? (← Json.parse? text)
  if p.version = currentVersion then some p else none

end Profile

end SnippetAudit.Style
