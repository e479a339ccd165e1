import SnippetAudit.Json.Record
import SnippetAudit.Text.Lines

/-!
Fixes: edits that are proposed for a snippet. A fix replaces a range of lines by a text.
-/

namespace SnippetAudit

/-- What a fix is for. -/
inductive Fix.Kind where
  | simple
  | refactor
  | performance
  | security
  | style
  deriving DecidableEq, Repr

namespace Fix.Kind

/-- The kinds in the order of their declaration. -/
def all : List Kind := [simple, refactor, performance, security, style]

/-- The word for a kind. -/
def name : Kind → String
  | simple => "simple"
  | refactor => "refactor"
  | performance => "performance"
  | security => "security"
  | style => "style"

instance : Json.Coded Kind where
  encode k := .string k.name
  decode := Json.ofWord name all

end Fix.Kind

/-- A proposed edit. -/
structure Fix where
  id : String
  kind : Fix.Kind
  title : String
  description : String
  /-- The first line of the range, counted from one. -/
  first : Nat
  /-- The last line of the range. -/
  last : Nat
  before : String
  /-- The text that takes the place of the range; empty to delete a line. -/
  after : String
  diff : String
  confidence : Float
  /-- Whether the fix may be applied without being asked for. -/
  automatic : Bool
  deriving DecidableEq

namespace Fix

instance : Json.Coded Fix where
  encode f := .object [
    ("fix_id", Json.encode f.id), ("fix_type", Json.encode f.kind),
    ("title", Json.encode f.title), ("description", Json.encode f.description),
    ("line_start", Json.encode f.first), ("line_end", Json.encode f.last),
    ("before_code", Json.encode f.before), ("after_code", Json.encode f.after),
    ("diff", Json.encode f.diff), ("confidence", Json.encode f.confidence),
    ("auto_applicable", Json.encode f.automatic)]
  decode j := do
    let r ← Json.row? ["fix_id", "fix_type", "title", "description", "line_start", "line_end",
      "before_code", "after_code", "diff", "confidence", "auto_applicable"] j
    some {
      id := ← r.required "fix_id"
      kind := ← r.required "fix_type"
      title := ← r.required "title"
      description := ← r.required "description"
      first := ← r.required "line_start"
      last := ← r.required "line_end"
      before := ← r.required "before_code"
      after := ← r.required "after_code"
      diff := ← r.required "diff"
      confidence := ← r.required "confidence"
      automatic := ← r.required "auto_applicable" }

/-- Whether the range is one line. -/
def singleLine (f : Fix) : Bool := f.first = f.last

/-- Whether nothing takes the place of the range. -/
def deletion (f : Fix) : Bool := f.after.isEmpty

/-! ### Diffs -/

/-- A text with a mark and a space in front of each line. -/
def marked (mark text : String) : String :=
  Text.unlines ((Text.lines text).map fun line => mark ++ " " ++ line)

/-- What a fix removes and what it puts in its place. -/
def renderDiff (before after : String) : String :=
  if after.isEmpty then marked "-" before
  else if before = after then marked " " before
  else marked "-" before ++ "\n" ++ marked "+" after

end Fix

/-! ### Proposals -/

/-- A fix that has no number yet. -/
structure Proposal where
  kind : Fix.Kind
  title : String
  description : String
  first : Nat
  last : Nat
  before : String
  after : String
  confidence : Float
  automatic : Bool
  deriving DecidableEq

namespace Proposal

/-- The identifier with a given number. -/
def idOf (n : Nat) : String := "fix_" ++ toString n

/-- The fix with a given number. -/
def toFix (p : Proposal) (n : Nat) : Fix :=
  { id := idOf n
    kind := p.kind
    title := p.title
    description := p.description
    first := p.first
    last := p.last
    before := p.before
    after := p.after
    diff := Fix.renderDiff p.before p.after
    confidence := p.confidence
    automatic := p.automatic }

/-- Fixes with consecutive numbers, the first of which follows `counter`. -/
def numbered (counter : Nat) : List Proposal → List Fix
  | [] => []
  | p :: rest => p.toFix (counter + 1) :: numbered (counter + 1) rest

end Proposal

end SnippetAudit
