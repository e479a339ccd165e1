import SnippetAudit.Fix.Basic
import SnippetAudit.Language
import SnippetAudit.Python.Grammar

/-!
Applying fixes to a text, and checking what comes out.
-/

namespace SnippetAudit.Fix

open Text

/-- Why a fix cannot be applied. -/
inductive EditError where
  | invalidRange (first last : Nat)
  /-- The range goes beyond the last line of the text. -/
  | lineOutOfRange (line total : Nat)
  deriving DecidableEq, Repr

/-- The wording of the error. -/
def EditError.message : EditError → String
  | invalidRange first last => "Invalid fix range " ++ toString first ++ "-" ++ toString last
  | lineOutOfRange line total =>
    "Fix targets line " ++ toString line ++ " but the code has " ++ toString total ++ " lines"

/-- Lines with those from `first` to `last` replaced by other lines. -/
def splice (ls : List String) (first last : Nat) (replacement : List String) : List String :=
  ls.take (first - 1) ++ replacement ++ ls.drop last

/-- Apply a fix. One line is deleted if nothing takes its place; of several lines an empty one
stays. -/
def apply (code : String) (f : Fix) : Except EditError String :=
  let ls := lines code
  if f.first = 0 || f.last < f.first then .error (.invalidRange f.first f.last)
  else if ls.length < f.last then .error (.lineOutOfRange f.last ls.length)
  else
    let replacement := if f.singleLine then (if f.deletion then [] else [f.after]) else lines f.after
    .ok (unlines (splice ls f.first f.last replacement))

/-! ### Validation -/

section Validation

variable (read : Python.Reader)

/-- Whether a text is well formed, as far as its language has a parser; Python is read by `read`. -/
def validateBy (code : String) : Language → Except Python.SyntaxError Unit
  | .python => read.check code
  | _ => .ok ()

/-- Whether a text is well formed, as far as its language has a parser; Python is read by `read`. -/
def isValidBy (code : String) (language : Language) : Bool := (validateBy read code language).isOk

end Validation

/-- Whether a text is well formed, as far as its language has a parser. -/
def validate : String → Language → Except Python.SyntaxError Unit := validateBy Python.readTree

/-- Whether a text is well formed, as far as its language has a parser. -/
def isValid : String → Language → Bool := isValidBy Python.readTree

/-- Why a fix is refused. -/
inductive ApplyError where
  | edit (e : EditError)
  | invalid (id : String) (e : Python.SyntaxError)
  deriving DecidableEq, Repr

/-- The wording of the error. -/
def ApplyError.message : ApplyError → String
  | edit e => e.message
  | invalid id e => "Fix " ++ id ++ " produced invalid code: " ++ e.message

/-- Apply a fix, and refuse a result that is not well formed. -/
def applyValidated (code : String) (language : Language) (f : Fix) : Except ApplyError String :=
  match apply code f with
  | .error e => .error (.edit e)
  | .ok fixed =>
    match validate fixed language with
    | .error e => .error (.invalid f.id e)
    | .ok () => .ok fixed

end SnippetAudit.Fix
