import SnippetAudit.Json.Printer
import SnippetAudit.Submission
import SnippetAudit.Text.Lower

/-!
Reports on files and on the fixes for a file, and their JSON.
-/

namespace SnippetAudit.Report

/-! ### Formats -/

/-- How a report is written. -/
inductive Format where
  | text
  | json
  deriving DecidableEq, Repr

/-- A name that is no format's. -/
structure UnknownFormat where
  name : String
  deriving DecidableEq, Repr

/-- The wording of the error. -/
def UnknownFormat.message (e : UnknownFormat) : String :=
  "Unknown format '" ++ e.name ++ "'. Valid formats: text, json"

namespace Format

/-- The formats in the order of their declaration. -/
def all : List Format := [text, json]

/-- The name of a format. -/
def name : Format → String
  | text => "text"
  | json => "json"

/-- The format that a name stands for, whatever its case. -/
def ofName (name : String) : Except UnknownFormat Format :=
  let lowered := Text.lower name
  if ["text", "txt", "terminal"].contains lowered then .ok text
  else if lowered = "json" then .ok json
  else .error ⟨name⟩

end Format

/-! ### What is reported -/

/-- What came of analyzing a file. -/
structure File where
  path : String
  submission : Option Submission
  /-- Why there is no submission. -/
  error : Option String

/-- A file that was analyzed. -/
def File.ofSubmission (path : String) (s : Submission) : File := ⟨path, some s, none⟩

/-- A file that could not be analyzed. -/
def File.ofError (path reason : String) : File := ⟨path, none, some reason⟩

/-- The fixes for a file. -/
structure FixList where
  path : String
  fixes : List Fix

/-! ### JSON -/

/-- A report on a file as JSON: what is known about the file stands beside its path. -/
def File.json (f : File) : Json :=
  .object (("path", .string f.path) :: ((f.submission.map (·.members)).getD [] ++
    (f.error.toList.map fun e => ("error", .string e))))

/-- Fixes for a file as JSON. -/
def FixList.json (l : FixList) : Json :=
  .object [("path", .string l.path), ("fixes", Json.encode l.fixes)]

end SnippetAudit.Report
