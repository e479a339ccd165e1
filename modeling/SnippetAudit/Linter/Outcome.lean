import SnippetAudit.Text.Lines
import SnippetAudit.Json.Reader

/-!
What comes of running a linter: the output of a program that ended, or the reason why there is none.
-/

namespace SnippetAudit.Linter

/-- The output of a program that ended. -/
structure Output where
  stdout : String
  stderr : String
  /-- The exit status; none if the program was ended by a signal. -/
  status : Option Int
  deriving DecidableEq, Repr

/-- Why a linter gave no answer. -/
inductive Failure where
  | timedOut
  /-- The program is missing; `hint` says how to install it. -/
  | missing (hint : String)
  | unreadable (tool : String)
  | notStarted (tool : String) (reason : String)
  deriving DecidableEq, Repr

/-- The wording of a failure. -/
def Failure.message : Failure → String
  | timedOut => "Analysis timed out"
  | missing hint => hint
  | unreadable tool => "Failed to parse " ++ tool ++ " output"
  | notStarted tool reason => "Failed to run " ++ tool ++ ": " ++ reason

/-- The reason why an empty command is not started. -/
def emptyCommand : String := "Empty command"

/-- The reason why a directory is not started. -/
def notExecutable : String := "Permission denied (os error 13)"

/-- The JSON that a program wrote, or none if it wrote nothing but blanks. -/
def Output.json (tool : String) (o : Output) : Except Failure (Option Json) :=
  let text := Text.trim o.stdout
  if text.isEmpty then .ok none
  else match Json.parse? text with
    | some j => .ok (some j.settled)
    | none => .error (.unreadable tool)

end SnippetAudit.Linter
