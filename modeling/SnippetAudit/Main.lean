import Std.Time
import SnippetAudit.Command.Run
import SnippetAudit.Shell.Run
import SnippetAudit.Text.Moment
import SnippetAudit.Text.Utf8

/-!
The program: commands on the files of the machine that it runs on.

Linters are the commands that the shell of this library knows; any other one counts as missing.
-/

namespace SnippetAudit.Program

/-- The cause of an error of the machine. -/
def fileErrorOf : IO.Error → Command.FileError
  | .noFileOrDirectory .. | .noSuchThing .. => .notFound
  | .permissionDenied .. => .denied
  | .alreadyExists .. => .alreadyExists
  | .inappropriateType _ code _ => if code = 21 then .isDirectory else .notDirectory
  | e => .other (toString e)

/-- Carry out an action that may fail. -/
def attempt {α : Type} (action : IO α) : IO (Except Command.FileError α) := do
  try
    return .ok (← action)
  catch e => return .error (fileErrorOf e)

/-- The text of a file. -/
def readText (path : String) : IO (Except Command.FileError String) := do
  match ← attempt (IO.FS.readBinFile path) with
  | .error e => return .error e
  | .ok bytes =>
    match Text.ofBytes? (bytes.toList.map (·.toNat)) with
    | some text => return .ok text
    | none => return .error .notText

/-- Whether there is a file or a directory. -/
def isPresent (path : String) : IO Bool := do
  match ← readText path with
  | .error .notFound | .error .notDirectory => return false
  | _ => return true

/-- The machine that the program runs on. -/
def machine : IO (Command.Machine IO) := do
  let values ← Command.variableNames.mapM fun name => do return (name, ← IO.getEnv name)
  return {
    readText
    writeText := fun path text => attempt (IO.FS.writeFile path text)
    makeDirectory := fun path => attempt (IO.FS.createDirAll path)
    present := isPresent
    environment := fun name => (values.lookup name).join
    linter := Shell.host
    time := do
      let now ← Std.Time.Timestamp.now
      return Text.momentOf now.toNanosecondsSinceUnixEpoch.toInt.toNat }

/-- How the program is used. -/
def usage : String :=
  "Usage: codevibe [--log-level <level>] [--config <file>] <command>

Commands:
  detect <file>    Print the detected language
  analyze <files>  Full analysis of one or more files
  fix <file>       List fix suggestions, or apply the automatic ones
  style <file>     Compare a file with a style profile
  init             Write a codevibe.toml with the default settings
"

/-- What is said about a command line that asks for no command. -/
def usageMessage : Command.UsageError → String
  | .help => usage
  | .version => "codevibe 0.2.0\n"
  | .missingArgument => "error: a required argument is missing\n\n" ++ usage
  | .invalidValue => "error: an option has no valid value\n\n" ++ usage
  | .unknownArgument => "error: unexpected argument\n\n" ++ usage
  | .unknownCommand => "error: unrecognized subcommand\n\n" ++ usage
  | .conflict => "error: an option cannot be used multiple times\n\n" ++ usage
  | .unneededValue => "error: a flag takes no value\n\n" ++ usage
  | .missingCommand | .nothing => usage

/-- Run the command that the arguments name, and tell the exit status. -/
def run (arguments : List String) : IO UInt32 := do
  match Command.Invocation.ofArguments arguments with
  | .error e =>
    if e = .help || e = .version then
      IO.print (usageMessage e)
      return 0
    else
      IO.eprint (usageMessage e)
      return 2
  | .ok i =>
    let ending ← Command.run (← machine) i
    IO.print ending.stdout
    IO.eprint ending.stderr
    match ending.failure with
    | none => return 0
    | some e =>
      IO.eprintln ("Error: " ++ e.message)
      return 1

end SnippetAudit.Program

/-- The entry point. -/
def main (arguments : List String) : IO UInt32 := SnippetAudit.Program.run arguments
