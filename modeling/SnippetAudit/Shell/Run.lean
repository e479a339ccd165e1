import SnippetAudit.Linter.Analyzer
import SnippetAudit.Shell.Program
import SnippetAudit.Shell.Script
import SnippetAudit.Text.Utf8

/-!
Running commands: the programs of this library, and scripts of them behind `sh -c`.

Time is counted, not spent. A script that takes too many steps takes longer than any limit.
-/

namespace SnippetAudit.Shell

/-! ### States -/

/-- Where output goes. -/
inductive Sink where
  | out
  | err
  | pipe
  | nowhere
  deriving DecidableEq, Repr

/-- Why a script ends before its last command. -/
inductive Stop where
  | exit
  /-- A signal ended it. -/
  | killed
  /-- It took too many steps. -/
  | endless
  deriving DecidableEq, Repr

/-- The state of a script. Output is kept as chunks, the latest first. -/
structure State where
  /-- The values of variables, the latest first. -/
  bindings : List (String × String) := []
  arguments : List String := []
  directory : String := "/"
  status : Nat := 0
  input : Bytes := []
  outChunks : List Bytes := []
  errChunks : List Bytes := []
  pipeChunks : List Bytes := []
  /-- Where the output and the error output go. -/
  sinks : Sink × Sink := (.out, .err)
  elapsed : Nat := 0
  stop : Option Stop := none

namespace State

/-- Send bytes to a place. -/
def send (s : State) (place : Sink) (bs : Bytes) : State :=
  if bs.isEmpty then s
  else match place with
    | .out => { s with outChunks := bs :: s.outChunks }
    | .err => { s with errChunks := bs :: s.errChunks }
    | .pipe => { s with pipeChunks := bs :: s.pipeChunks }
    | .nowhere => s

/-- Take over what a program produced. -/
def absorb (s : State) (p : Produced) : State :=
  let s := (s.send s.sinks.1 p.out).send s.sinks.2 p.err
  { s with status := p.status, elapsed := s.elapsed + p.elapsed }

/-- Send the output of a channel to a place. -/
def redirect (s : State) (source : Nat) (place : String) : State :=
  let target := if place = "&1" then s.sinks.1 else if place = "&2" then s.sinks.2 else .nowhere
  { s with sinks := if source = 2 then (s.sinks.1, target) else (target, s.sinks.2) }

/-- Set a variable. -/
def assign (s : State) (name value : String) : State :=
  { s with bindings := (name, value) :: s.bindings.filter (·.1 != name) }

/-- The number of the process that runs a script. -/
def process : String := "1"

/-- The value of a variable. -/
def value (s : State) (name : String) : String :=
  if name = "?" then toString s.status
  else if name = "$" then process
  else if name = "#" then toString (s.arguments.length - 1)
  else if name = "@" || name = "*" then String.intercalate " " s.arguments.tail
  else match name.toNat? with
    | some n => s.arguments.getD n ""
    | none => (s.bindings.lookup name).getD ""

end State

/-! ### Words -/

/-- The text of a part. -/
def Part.expand (s : State) : Part → String
  | .text cs _ => String.ofList cs
  | .variable name _ => s.value name
  | .arithmetic e _ => ((Arithmetic.value? s.value e).map toString).getD ""

/-- The text of a word that is not split. -/
def textOf (s : State) (w : Word) : String := String.join (w.map (·.expand s))

/-- The characters of a word; `none` stands for a place where it is split. -/
def marked (s : State) : Part → List (Option Char)
  | .text cs _ => cs.map some
  | .variable name false => (s.value name).toList.map fun c => if Text.isBlank c then none else some c
  | part => (part.expand s).toList.map some

/-- Cut at the marks; empty pieces are dropped. -/
def cut : List Char → List (Option Char) → List String
  | [], [] => []
  | piece, [] => [String.ofList piece.reverse]
  | [], none :: rest => cut [] rest
  | piece, none :: rest => String.ofList piece.reverse :: cut [] rest
  | piece, some c :: rest => cut (c :: piece) rest

/-- Whether a part is quoted. -/
def Part.isQuoted : Part → Bool
  | .text _ quoted | .variable _ quoted | .arithmetic _ quoted => quoted

/-- The texts that a word stands for. A word with a quoted part is never nothing. -/
def fieldsOf (s : State) (w : Word) : List String :=
  match cut [] (w.flatMap (marked s)) with
  | [] => if w.any Part.isQuoted then [""] else []
  | fields => fields

/-! ### Commands of the shell -/

/-- Whether the arguments of `kill` name the script itself, with a signal that ends it. -/
def killsItself : List String → Bool
  | [p] => p = State.process
  | ["-s", _, p] => p = State.process
  | [signal, p] => p = State.process && signal ≠ "-0"
  | _ => false

/-- Run a command inside a script. -/
def runCommand (s : State) (words : List String) : State :=
  match words with
  | [] => { s with status := 0 }
  | ":" :: _ => { s with status := 0 }
  | "exit" :: rest =>
    let status := match rest with
      | n :: _ => (n.toNat?.getD 2) % 256
      | [] => s.status
    { s with status, stop := some .exit }
  | "kill" :: rest =>
    if killsItself rest then { s with stop := some .killed } else { s with status := 1 }
  | ["exec"] => s
  | "exec" :: rest => { runCommand s rest with stop := some .exit }
  | "pwd" :: _ => s.absorb { out := bytesOf (s.directory ++ "\n") }
  | "export" :: _ => { s with status := 0 }
  | "echo" :: rest => s.absorb (echo true rest s.input)
  | name :: rest =>
    match programs.lookup name with
    | some p => s.absorb (p rest s.input)
    | none => s.absorb { err := bytesOf ("sh: 1: " ++ name ++ ": not found\n"), status := 127 }

/-! ### Scripts -/

/-- The state behind a part of a script that has its own variables. -/
def leave (outer inner : State) : State :=
  { inner with
    bindings := outer.bindings
    input := outer.input
    sinks := outer.sinks
    stop := if inner.stop = some .exit then none else inner.stop }

/-- Run a script. The first argument bounds the number of steps that depend on each other. -/
def runScript : Nat → Script → State → State
  | 0, _, s => { s with stop := some .endless }
  | fuel + 1, script, s =>
    if s.stop.isSome then s
    else match script with
      | .nothing => s
      | .command assignments words =>
        let fields := words.flatMap (fieldsOf s)
        if fields.isEmpty then
          { assignments.foldl (fun s a => s.assign a.1 (textOf s a.2)) s with status := 0 }
        else runCommand s fields
      | .redirected inside source place =>
        { runScript fuel inside (s.redirect source (textOf s place)) with sinks := s.sinks }
      | .pipe first second =>
        let t := runScript fuel first { s with sinks := (.pipe, s.sinks.2), pipeChunks := [] }
        let t := { leave s t with pipeChunks := s.pipeChunks, input := t.pipeChunks.reverse.flatten }
        leave s (runScript fuel second t)
      | .next first second => runScript fuel second (runScript fuel first s)
      | .both first second =>
        let t := runScript fuel first s
        if t.status = 0 then runScript fuel second t else t
      | .orElse first second =>
        let t := runScript fuel first s
        if t.status = 0 then t else runScript fuel second t
      | .negated inside =>
        let t := runScript fuel inside s
        { t with status := if t.status = 0 then 1 else 0 }
      | .loop succeeds test body =>
        let t := runScript fuel test s
        if t.stop.isSome then t
        else if (t.status = 0) = succeeds then runScript fuel (.loop succeeds test body) (runScript fuel body t)
        else { t with status := 0 }
      | .each name items body =>
        (items.flatMap (fieldsOf s)).foldl (fun t item => runScript fuel body (t.assign name item)) s
      | .branch test yes no =>
        let t := runScript fuel test s
        if t.status = 0 then runScript fuel yes t else runScript fuel no { t with status := 0 }
      | .inner inside => leave s (runScript fuel inside s)

/-- The most steps of a script. -/
def stepLimit : Nat := 1000000

/-! ### Commands of the machine -/

/-- The directories that are known. -/
def knownDirectories : List String := ["/", "/tmp", "/bin", "/usr", "/usr/bin", "/etc", "/dev", "/root", "/var"]

/-- The name of a program, without the directory that it is in. -/
def programName (path : String) : String :=
  if ["/bin/", "/usr/bin/"].any fun d => d.toList.isPrefixOf path.toList then
    String.ofList ((path.toList.reverse.takeWhile (· ≠ '/')).reverse)
  else path

/-- The text of chunks. -/
def textOfChunks (chunks : List Bytes) : String := Text.ofBytesLossy chunks.reverse.flatten

/-- A command that a machine is asked to run. -/
structure Request where
  command : List String
  /-- The name of the tool in messages. -/
  title : String
  /-- How to install it. -/
  hint : String
  /-- In milliseconds; zero for no limit. -/
  timeout : Nat := 0
  directory : String := "/"

/-- What a finished script says, unless it took too long. -/
def finish (r : Request) (s : State) : Linter.Outcome :=
  if s.stop = some .endless || (r.timeout ≠ 0 && r.timeout < s.elapsed) then .error .timedOut
  else .ok {
    stdout := textOfChunks s.outChunks
    stderr := textOfChunks s.errChunks
    status := if s.stop = some .killed then none else some s.status }

/-- Run a command. -/
def run (r : Request) : Linter.Outcome :=
  match r.command with
  | [] => .error (.notStarted r.title Linter.emptyCommand)
  | path :: arguments =>
    let start : State := { directory := r.directory }
    if !knownDirectories.contains r.directory then .error (.missing r.hint)
    else if knownDirectories.contains path then .error (.notStarted r.title Linter.notExecutable)
    else match programName path, arguments with
      | "sh", "-c" :: text :: rest =>
        match Script.parse? text with
        | some script =>
          let arguments := if rest.isEmpty then ["sh"] else rest
          finish r (runScript stepLimit script { start with arguments })
        | none => finish r (start.absorb { err := bytesOf "sh: 1: Syntax error\n", status := 2 })
      | "sh", _ => finish r start
      | "pwd", _ => finish r (start.absorb { out := bytesOf (r.directory ++ "\n") })
      | name, _ =>
        match programs.lookup name with
        | some p => finish r (start.absorb (p arguments []))
        | none => .error (.missing r.hint)

/-- Run a linter on a snippet. -/
def host : Linter.Host := fun job =>
  run {
    command := job.arguments .none ("/tmp/codevibe-snippet." ++ job.extension)
    title := job.kind.title
    hint := job.kind.hint
    timeout := job.timeout }

end SnippetAudit.Shell
