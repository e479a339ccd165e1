import SnippetAudit.Command.Grammar
import SnippetAudit.Report.Basic

/-!
The commands of the program and their command lines.
-/

namespace SnippetAudit.Command

/-- What the program is asked to do. -/
inductive Action where
  /-- Print the language of a file. -/
  | detect (path : String) (language : Option String)
  /-- Report on some files. -/
  | analyze (paths : List String) (language : Option String) (format : Report.Format) (lint : Bool)
      (output : Option String)
  /-- List the fixes for a file, or apply them. -/
  | fix (path : String) (language : Option String) (apply : Bool) (format : Report.Format)
  /-- Compare the style of a file with a profile, and perhaps add it. -/
  | style (path : String) (language : Option String) (profile : Option String) (user : String)
      (update : Bool) (format : Report.Format)
  /-- Write a configuration. -/
  | init (force : Bool)

/-- A command line that was understood. -/
structure Invocation where
  /-- The file with the configuration. -/
  config : Option String
  action : Action

/-! ### Options -/

namespace Choice

def help : Choice := { long := "help", short := 'h', effect := .stop .help }

def version : Choice := { long := "version", short := 'V', effect := .stop .version }

def logLevel : Choice :=
  { long := "log-level", effect := .value (.oneOf ["error", "warn", "info", "debug", "trace"]) }

def configFile : Choice := { long := "config", effect := .value .path }

def language : Choice := { long := "language", short := 'l', effect := .value .text }

def format : Choice :=
  { long := "format", short := 'f', effect := .value (.oneOf (Report.Format.all.map (·.name))) }

def noLint : Choice := { long := "no-lint", effect := .flag }

def output : Choice := { long := "output", short := 'o', effect := .value .path }

def apply : Choice := { long := "apply", effect := .flag }

def profile : Choice := { long := "profile", effect := .value .path }

def user : Choice := { long := "user", effect := .value .text }

def update : Choice := { long := "update", effect := .flag }

def force : Choice := { long := "force", effect := .flag }

end Choice

namespace Invocation

open Choice

/-! ### Grammars -/

/-- What may stand in front of a command. -/
def front : Grammar := { choices := [logLevel, configFile, help, version] }

/-- What may stand behind a command: options of its own and those for every command. -/
def behind (arity : Arity) (own : List Choice) : Grammar :=
  { choices := own ++ [logLevel, configFile, help], arity }

/-- The names of the commands. -/
def commands : List String := ["detect", "analyze", "fix", "style", "init"]

/-- The name of the command that explains the others. -/
def helpCommand : String := "help"

/-! ### Meaning -/

/-- The format that was asked for. -/
def formatOf (r : Reading) : Report.Format :=
  match (r.value? "format").map Report.Format.ofName with
  | some (.ok f) => f
  | _ => .text

/-- Read the arguments of a command, and what they ask for. -/
def actionOf (command : String) (arguments : List String) : Except UsageError (Reading × Action) := do
  let path (r : Reading) : String := r.paths.headD ""
  match command with
  | "detect" => do
    let r ← readAll (behind .one [language]) arguments
    .ok (r, .detect (path r) (r.value? "language"))
  | "analyze" => do
    let r ← readAll (behind .oneOrMore [language, format, noLint, output]) arguments
    .ok (r, .analyze r.paths (r.value? "language") (formatOf r) (!r.has "no-lint") (r.value? "output"))
  | "fix" => do
    let r ← readAll (behind .one [language, apply, format]) arguments
    .ok (r, .fix (path r) (r.value? "language") (r.has "apply") (formatOf r))
  | "style" => do
    let r ← readAll (behind .one [language, profile, user, update, format]) arguments
    .ok (r, .style (path r) (r.value? "language") (r.value? "profile")
      ((r.value? "user").getD "default") (r.has "update") (formatOf r))
  | "init" => do
    let r ← readAll (behind .none [force]) arguments
    .ok (r, .init (r.has "force"))
  | _ => .error .unknownCommand

/-- What the command that explains others does with its arguments. -/
def explain : List String → UsageError
  | [] => .help
  | [c] => if (helpCommand :: commands).contains c then .help else .unknownCommand
  | _ => .unknownCommand

/-- Read a command line. An option behind the command counts more than one in front of it. -/
def ofArguments (arguments : List String) : Except UsageError Invocation := do
  let head ← readHead front (helpCommand :: commands) false {} arguments
  match head.command with
  | none => do
    let r ← head.reading.settle
    .error (if r.settled.isEmpty then .nothing else .missingCommand)
  | some (command, rest) => do
    if command = helpCommand then .error (explain rest)
    else
      let (own, action) ← actionOf command rest
      let r ← head.reading.settle
      .ok { config := (own.value? "config").or (r.value? "config"), action }

end Invocation

end SnippetAudit.Command
