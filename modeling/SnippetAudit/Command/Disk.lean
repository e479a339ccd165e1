import SnippetAudit.Command.Machine

/-!
Files that are kept in memory, and the machine that they make.

A path is walked part by part, so every part but the last has to be a directory.
-/

namespace SnippetAudit.Command

/-- A tree of files. Every directory that holds something is listed. -/
structure Disk where
  /-- The path of the working directory, for absolute paths. -/
  root : String
  directories : List (List String) := []
  /-- The files with their texts; none for one that holds no text. -/
  files : List (List String × Option String) := []

namespace Disk

/-- The longest name of a file, in bytes. -/
def nameLimit : Nat := 255

/-- Whether a place is a directory. -/
def isDirectory (d : Disk) (place : List String) : Bool := place.isEmpty || d.directories.contains place

/-- Whether a place is a file. -/
def isFile (d : Disk) (place : List String) : Bool := d.files.any (·.1 == place)

/-- Go from a directory along the parts of a path. -/
def walk (d : Disk) : List String → List String → Except FileError (List String)
  | place, [] => .ok place
  | place, part :: rest =>
    if d.isFile place then .error .notDirectory
    else if !d.isDirectory place then .error .notFound
    else if part = "." then walk d place rest
    else if part = ".." then if place.isEmpty then .error .notFound else walk d place.dropLast rest
    else if nameLimit < part.utf8ByteSize then .error .nameTooLong
    else walk d (place ++ [part]) rest

/-- A path from the working directory on, unless it leads elsewhere. -/
def relative? (d : Disk) (path : String) : Option (List Char) :=
  let cs := path.toList
  if path = d.root then some []
  else if (d.root.toList ++ ['/']).isPrefixOf cs then some (cs.drop d.root.length)
  else if cs.head? = some '/' then none
  else some cs

/-- The place that a path leads to. A path that ends with a slash leads to no file. -/
def place (d : Disk) (path : String) : Except FileError (List String) :=
  if path.isEmpty then .error .notFound
  else if path.toList.contains '\x00' then .error .nameWithNul
  else match d.relative? path with
    | none => .error .notFound
    | some cs => do
      let place ← d.walk [] (pathParts (String.ofList cs))
      if cs.getLast? = some '/' && d.isFile place then .error .notDirectory else .ok place

/-- The text of a file. -/
def read (d : Disk) (path : String) : Except FileError String := do
  let place ← d.place path
  if d.isDirectory place then .error .isDirectory
  else match d.files.lookup place with
    | some (some text) => .ok text
    | some none => .error .notText
    | none => .error .notFound

/-- Write a file. -/
def write (d : Disk) (path text : String) : Except FileError Disk := do
  let place ← d.place path
  if d.isDirectory place then .error .isDirectory
  else if path.toList.getLast? = some '/' then .error .isDirectory
  else .ok { d with files := d.files.filter (·.1 != place) ++ [(place, some text)] }

/-- Make the directories along a path, each in the one before it. -/
def makeAlong (d : Disk) (place : List String) : List String → Except FileError Disk
  | [] => .ok d
  | part :: rest =>
    let next := place ++ [part]
    if d.isFile next then .error (if rest.isEmpty then .alreadyExists else .notDirectory)
    else if d.isDirectory next then makeAlong d next rest
    else if nameLimit < part.utf8ByteSize then .error .nameTooLong
    else makeAlong { d with directories := d.directories ++ [next] } next rest

/-- Make a directory and those that it lies in, unless they exist. -/
def make (d : Disk) (path : String) : Except FileError Disk :=
  match d.relative? path with
  | none => .error .denied
  | some cs => d.makeAlong [] ((pathParts (String.ofList cs)).filter (· ≠ "."))

/-- Add a file with the directories that it lies in. -/
def add (d : Disk) (path : String) (text : Option String) : Disk :=
  let parts := pathParts path
  let d := match d.makeAlong [] parts.dropLast with
    | .ok d => d
    | .error _ => d
  { d with files := d.files.filter (·.1 != parts) ++ [(parts, text)] }

/-- The paths and texts of the files that another disk does not have like that. -/
def newSince (d earlier : Disk) : List (String × String) :=
  d.files.filterMap fun (place, text) =>
    match text with
    | some t =>
      if earlier.files.lookup place = some (some t) then none
      else some (String.intercalate "/" place, t)
    | none => none

/-- Change the disk, if that does not fail. -/
def changed (change : Disk → Except FileError Disk) : StateM Disk (Except FileError Unit) := do
  match change (← get) with
  | .ok d =>
    set d
    return .ok ()
  | .error e => return .error e

/-- The machine with the files of a disk. -/
def machine (environment : Config.Environment) (linter : Linter.Host) (time : String) :
    Machine (StateM Disk) :=
  { readText := fun path => return (← get).read path
    writeText := fun path text => changed (·.write path text)
    makeDirectory := fun path => changed (·.make path)
    present := fun path => do
      let d ← get
      return match d.place path with
        | .ok place => d.isFile place || d.isDirectory place
        | .error _ => false
    environment
    linter
    time := return time }

end Disk

end SnippetAudit.Command
