import SnippetAudit.Text.Character

/-!
Reading command lines.

A command line names one command, with options in front of it and behind it. An option is written
with two dashes and its name, or with one dash and its letter; its value follows as the next
argument, behind an equals sign, or right behind the letter. Behind `--` nothing is an option.

An option is settled only when something follows it: another option, an argument that is not its
value, or the end. So of two mistakes in one command line the one that is settled first counts.
-/

namespace SnippetAudit.Command

/-- What is wrong with a command line, or what it asks for instead of a command. -/
inductive UsageError where
  | missingArgument
  | missingCommand
  | invalidValue
  | unknownArgument
  | unknownCommand
  /-- An option occurs twice. -/
  | conflict
  /-- A flag is given a value. -/
  | unneededValue
  | help
  | version
  /-- Nothing is given at all. -/
  | nothing
  deriving DecidableEq, Repr

/-! ### Options -/

/-- Which texts an option takes as its value. -/
inductive ValueKind where
  | text
  /-- Any text but the empty one. -/
  | path
  | oneOf (words : List String)

/-- Whether a text is a value. -/
def ValueKind.accepts : ValueKind → String → Bool
  | text, _ => true
  | path, s => !s.isEmpty
  | oneOf words, s => words.contains s

/-- What an option does. -/
inductive Effect where
  | flag
  | value (kind : ValueKind)
  /-- End the reading with an answer of its own. -/
  | stop (e : UsageError)

/-- An option. -/
structure Choice where
  long : String
  short : Option Char := none
  effect : Effect

/-- How many plain arguments a command takes. Each is a path. -/
inductive Arity where
  | none
  | one
  | oneOrMore
  deriving DecidableEq, Repr

/-- What a command line may hold, up to the name of a command or behind it. -/
structure Grammar where
  choices : List Choice
  arity : Arity := .none

/-! ### Reading -/

/-- An option or plain arguments that are not settled yet. -/
inductive Pending where
  | none
  | choice (c : Choice) (value : Option String)
  | plain (paths : List String)

/-- What was read so far. -/
structure Reading where
  /-- The options by name, with their values; a flag has the empty text. -/
  settled : List (String × String) := []
  paths : List String := []
  pending : Pending := .none

namespace Reading

/-- Whether an option was settled. -/
def has (r : Reading) (long : String) : Bool := r.settled.any (·.1 == long)

/-- The value of an option. -/
def value? (r : Reading) (long : String) : Option String := r.settled.lookup long

/-- Add an option, which may not be there yet. -/
def add (r : Reading) (long value : String) : Except UsageError Reading :=
  if r.has long then .error .conflict
  else .ok { r with settled := r.settled ++ [(long, value)] }

/-- Add an option with its value. -/
def addValue (r : Reading) (c : Choice) (value : String) : Except UsageError Reading := do
  let next ← r.add c.long value
  match c.effect with
  | .value kind => if kind.accepts value then .ok next else .error .invalidValue
  | _ => .ok next

/-- Settle what is pending. -/
def settle (r : Reading) : Except UsageError Reading :=
  match r.pending with
  | .none => .ok r
  | .choice _ none => .error .invalidValue
  | .choice c (some value) => { r with pending := .none }.addValue c value
  | .plain paths =>
    if paths.all ValueKind.path.accepts then
      .ok { r with pending := .none, paths := r.paths ++ paths }
    else .error .invalidValue

/-- Whether an option waits for its value. -/
def waits (r : Reading) : Bool :=
  match r.pending with
  | .choice _ none => true
  | _ => false

/-- Read an option, with the value that is attached to it. -/
def take (r : Reading) (c : Choice) (attached : Option String) : Except UsageError Reading := do
  match c.effect, attached with
  | .value _, some value => (← r.settle).addValue c value
  | .value _, none => .ok { (← r.settle) with pending := .choice c none }
  | _, some _ => .error .unneededValue
  | .flag, none => (← r.settle).add c.long ""
  | .stop e, none =>
    let _ ← r.settle
    .error e

/-- Read the letters behind a dash. A letter whose option takes a value takes what follows it. -/
def takeLetters (g : Grammar) (r : Reading) : List Char → Except UsageError Reading
  | [] => .ok r
  | c :: rest =>
    match g.choices.find? (·.short == some c) with
    | none => .error .unknownArgument
    | some choice =>
      match choice.effect with
      | .value _ =>
        r.take choice (match rest with
          | [] => none
          | '=' :: value => some (String.ofList value)
          | value => some (String.ofList value))
      | _ => do takeLetters g (← r.take choice none) rest

/-- Read what follows two dashes. -/
def takeLong (g : Grammar) (r : Reading) (body : List Char) : Except UsageError Reading :=
  let name := body.takeWhile (· ≠ '=')
  match g.choices.find? (·.long.toList == name) with
  | none => .error .unknownArgument
  | some choice => r.take choice ((body.dropWhile (· ≠ '=')).tail?.map String.ofList)

/-- Read a plain argument, if the grammar has room for it. -/
def takePlain (g : Grammar) (r : Reading) (argument : String) : Except UsageError (Option Reading) :=
  match g.arity, r.pending with
  | .none, _ => .ok none
  | .one, .plain _ => .ok none
  | .one, _ => do
    if r.paths.isEmpty then .ok (some { (← r.settle) with pending := .plain [argument] }) else .ok none
  | .oneOrMore, .plain paths => .ok (some { r with pending := .plain (paths ++ [argument]) })
  | .oneOrMore, _ => do .ok (some { (← r.settle) with pending := .plain [argument] })

end Reading

/-- What was read, and the command that it ended with, with the arguments behind it. -/
structure Head where
  reading : Reading
  command : Option (String × List String) := none

/-- The mistake of an argument for which there is no room. -/
def misplaced (commands : List String) (trailing : Bool) (argument : String) : UsageError :=
  if commands.isEmpty || (trailing && commands.contains argument) then .unknownArgument
  else .unknownCommand

/-- Read arguments up to the name of one of some commands. `trailing` says that `--` was read. -/
def readHead (g : Grammar) (commands : List String) :
    Bool → Reading → List String → Except UsageError Head
  | _, r, [] => .ok { reading := r }
  | trailing, r, argument :: rest => do
    let plain : Except UsageError Reading := do
      match ← r.takePlain g argument with
      | some r => .ok r
      | none => .error (misplaced commands trailing argument)
    if trailing then readHead g commands true (← plain) rest
    else if !r.waits && commands.contains argument then .ok ⟨r, some (argument, rest)⟩
    else match argument.toList with
      | ['-', '-'] => readHead g commands true r rest
      | '-' :: '-' :: body => readHead g commands false (← r.takeLong g body) rest
      | '-' :: c :: letters => readHead g commands false (← r.takeLetters g (c :: letters)) rest
      | _ =>
        match r.pending with
        | .choice c none =>
          readHead g commands false { r with pending := .choice c (some argument) } rest
        | _ => readHead g commands false (← plain) rest

/-- Read the arguments of a command that has no commands of its own. -/
def readAll (g : Grammar) (arguments : List String) : Except UsageError Reading := do
  let head ← readHead g [] false {} arguments
  let r ← head.reading.settle
  if g.arity ≠ .none && r.paths.isEmpty then .error .missingArgument else .ok r

end SnippetAudit.Command
