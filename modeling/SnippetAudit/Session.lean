import SnippetAudit.Service

/-!
Sessions: calls on one service, one after the other.

All calls share the fixer and the embedding slot of the service. What a call answers may depend on
the earlier ones, so a session gives all answers, and the service as the last call leaves it. The
answers tell how many fixes were generated.
-/

namespace SnippetAudit.Service

/-- What a caller may ask of a service. Times are in milliseconds. -/
inductive Call where
  | submit (now : Nat) (code : String) (hint : Option String)
  | generate (code : String) (language : Language)
  /-- Apply fixes until none is left, with numbers of the service. -/
  | auto (code : String) (language : Language)
  | similarity (now : Nat) (a b : String)
  | cleanup (now : Nat)

/-- What comes of a call. -/
inductive Answer where
  | submission (s : Submission)
  | refused (e : Refusal)
  | fixes (fs : List Fix)
  | fixed (o : Fix.AutoOutcome)
  | failed (e : Fix.EditError)
  | similarity (x : Option Float32)
  | done

namespace Answer

/-- The lists of fixes in an answer. -/
def fixLists : Answer → List (List Fix)
  | submission s => [s.fixes]
  | fixes fs => [fs]
  | fixed o => [o.applied, o.rejected]
  | refused _ | failed _ | similarity _ | done => []

/-- The fixes in an answer. -/
def allFixes (a : Answer) : List Fix := a.fixLists.flatten

/-- How many fixes were generated for a call. A refused snippet gets none. Fixes that are applied
automatically are generated again and again; a run that starts with the number zero counts them. Python
is read by `read`. -/
def generated (read : Python.Reader) : Call → Answer → Nat
  | .submit _ _ _, submission s => s.fixes.length
  | .generate _ _, fixes fs => fs.length
  | .auto code language, fixed _ =>
    match Fix.autoBy read 0 code language with
    | .ok o => o.counter
    | .error _ => 0
  | _, _ => 0

end Answer

/-- The service that a configuration describes, with a reader and a registry of its own. -/
def fresh (read : Python.Reader) (c : Config) (registry : Linter.Registry) (lint : Bool) : Service :=
  { new c with registry, lint, read }

/-- Answer one call. -/
def answer (host : Linter.Host) (s : Service) : Call → Answer × Service
  | .submit now code hint =>
    match s.submit host now code hint with
    | .ok (submission, s) => (.submission submission, s)
    | .error e => (.refused e, s)
  | .generate code language =>
    let (fixes, s) := s.generate code language
    (.fixes fixes, s)
  | .auto code language =>
    match Fix.autoBy s.read s.counter code language with
    | .ok o => (.fixed o, { s with counter := o.counter })
    | .error e => (.failed e, s)
  | .similarity now a b =>
    let (x, s) := s.similarity now a b
    (.similarity x, s)
  | .cleanup now => (.done, s.cleanup now)

/-- Answer calls one after the other. -/
def session (host : Linter.Host) : Service → List Call → List Answer × Service
  | s, [] => ([], s)
  | s, c :: rest =>
    let (first, s) := s.answer host c
    let (others, s) := session host s rest
    (first :: others, s)

/-- How many fixes were generated for some calls, where Python is read by `read`. -/
def generated (read : Python.Reader) : List Call → List Answer → Nat
  | c :: calls, a :: answers => Answer.generated read c a + generated read calls answers
  | _, _ => 0

end SnippetAudit.Service
