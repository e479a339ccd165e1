import SnippetAudit.Linter.Analyzer

/-!
Which analyzer serves which language.
-/

namespace SnippetAudit.Linter

/-- Analyzers by language. -/
structure Registry where
  serving : Language → Option Analyzer

/-- Why there is no analyzer for a language. -/
inductive Unserved where
  | noAnalyzers
  | language (l : Language)
  deriving DecidableEq, Repr

/-- The wording of the error. -/
def Unserved.message : Unserved → String
  | noAnalyzers => "No analyzers registered"
  | language l => "Unsupported language: " ++ l.name

namespace Registry

/-- No analyzers. -/
def empty : Registry := ⟨fun _ => none⟩

/-- Let an analyzer serve a language from now on. -/
def register (r : Registry) (l : Language) (a : Analyzer) : Registry :=
  ⟨fun other => if other = l then some a else r.serving other⟩

/-- Whether no language is served. -/
def isEmpty (r : Registry) : Bool := Language.all.all fun l => (r.serving l).isNone

/-- The analyzer for a language. -/
def get (r : Registry) (l : Language) : Except Unserved Analyzer :=
  if r.isEmpty then .error .noAnalyzers
  else match r.serving l with
    | some a => .ok a
    | none => .error (.language l)

/-- Pylint for Python, and ESLint for JavaScript and TypeScript. -/
def standard (pylint eslint : List String) (timeout : Nat) : Registry :=
  ((empty.register .python ⟨.pylint, pylint, timeout⟩).register .javascript
    ⟨.eslint, eslint, timeout⟩).register .typescript ⟨.eslint, eslint, timeout⟩

end Registry

end SnippetAudit.Linter
