import SnippetAudit.Config.Environment
import SnippetAudit.Linter.Analyzer
import SnippetAudit.Text.Search

/-!
What a command needs from the machine that it runs on: files, environment variables, linters and the
time.

Paths are texts with slashes, as they are given on a command line.
-/

namespace SnippetAudit.Command

/-! ### Files -/

/-- Why a file cannot be read or written. -/
inductive FileError where
  | notFound
  | denied
  | alreadyExists
  | notDirectory
  | isDirectory
  | nameTooLong
  | nameWithNul
  | notText
  | other (reason : String)
  deriving DecidableEq, Repr

/-- The wording of the error. -/
def FileError.message : FileError → String
  | notFound => "No such file or directory (os error 2)"
  | denied => "Permission denied (os error 13)"
  | alreadyExists => "File exists (os error 17)"
  | notDirectory => "Not a directory (os error 20)"
  | isDirectory => "Is a directory (os error 21)"
  | nameTooLong => "File name too long (os error 36)"
  | nameWithNul => "file name contained an unexpected NUL byte"
  | notText => "stream did not contain valid UTF-8"
  | other reason => reason

/-- What a command may do to the machine. -/
structure Machine (m : Type → Type) where
  readText : String → m (Except FileError String)
  writeText : String → String → m (Except FileError Unit)
  /-- Make a directory and those that it lies in, unless they exist. -/
  makeDirectory : String → m (Except FileError Unit)
  /-- Whether there is a file or a directory. -/
  present : String → m Bool
  environment : Config.Environment
  linter : Linter.Host
  /-- The time, as it is written into files. -/
  time : m String

/-! ### Paths -/

/-- A path in a directory; an absolute path stays as it is. -/
def joinPath (directory path : String) : String :=
  if directory.isEmpty || path.toList.head? = some '/' then path
  else if directory.toList.getLast? = some '/' then directory ++ path
  else directory ++ "/" ++ path

/-- The parts of a path between slashes. -/
def pathParts (path : String) : List String :=
  ((Text.splitAt '/' path.toList).filter fun part => !part.isEmpty).map String.ofList

/-- The directory that a path lies in, if the path names one. -/
def parentPath? (path : String) : Option String :=
  let parts := pathParts path
  let start := if path.toList.head? = some '/' then "/" else ""
  let parent := start ++ String.intercalate "/" parts.dropLast
  if parts.isEmpty || parent.isEmpty then none else some parent

/-- What follows the last dot of a file's name, unless the dot starts the name. -/
def extension? (path : String) : Option String := do
  let name ← (pathParts path).getLast?
  let reversed := name.toList.reverse
  let extension := reversed.takeWhile (· ≠ '.')
  if name = ".." || reversed.length ≤ extension.length + 1 then none
  else some (String.ofList extension.reverse)

/-! ### Environment variables -/

/-- The variables that commands look at. -/
def variableNames : List String := [
  "HOME", "XDG_CONFIG_HOME", "XDG_DATA_HOME", "CODEVIBE_ANALYSIS_TIMEOUT",
  "CODEVIBE_MAX_CODE_LENGTH", "CODEVIBE_ML_ENABLED", "CODEVIBE_ML_IDLE_TIMEOUT",
  "CODEVIBE_ML_MAX_CODE_LENGTH"]

/-! ### Places for files of the user -/

/-- A directory of the user: the one that a variable names with an absolute path, or else one in the
home directory. -/
def userDirectory? (env : Config.Environment) (name fallback : String) : Option String :=
  match env name with
  | some d => if d.toList.head? = some '/' then some d else inHome
  | none => inHome
where
  inHome : Option String := do
    let home ← env "HOME"
    if home.isEmpty then none else some (joinPath home fallback)

/-- The file with the user's configuration. -/
def userConfigPath? (env : Config.Environment) : Option String :=
  (userDirectory? env "XDG_CONFIG_HOME" ".config").map fun d => joinPath d "codevibe/config.toml"

/-- The file with a user's profile. -/
def profilePath (env : Config.Environment) (user : String) : String :=
  let data := (userDirectory? env "XDG_DATA_HOME" ".local/share").getD ".codevibe"
  joinPath (joinPath data "codevibe/profiles") (user ++ ".json")

end SnippetAudit.Command
