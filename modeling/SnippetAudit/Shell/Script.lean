import SnippetAudit.Shell.Token

/-!
Shell scripts: commands joined by separators, pipes, conditions and loops.

Keywords count only where a command may start.
-/

namespace SnippetAudit.Shell

/-- A script. -/
inductive Script where
  | nothing
  | command (assignments : List (String × Word)) (words : List Word)
  /-- A script whose output on a channel goes to a place. -/
  | redirected (s : Script) (source : Nat) (place : Word)
  | pipe (first second : Script)
  | next (first second : Script)
  | both (first second : Script)
  | orElse (first second : Script)
  | negated (s : Script)
  /-- Repeat the body as long as the test succeeds, or as long as it fails. -/
  | loop (succeeds : Bool) (test body : Script)
  | each (name : String) (items : List Word) (body : Script)
  | branch (test yes no : Script)
  /-- A script whose variables are its own. -/
  | inner (s : Script)
  deriving Inhabited

namespace Script

/-! ### Pieces -/

/-- The text of a word that has no quoted part and no expansion. -/
def plain? : Word → Option String
  | [.text cs false] => some (String.ofList cs)
  | _ => none

/-- Whether a token is a given keyword. -/
def isKeyword (keyword : String) : Token → Bool
  | .word w => plain? w = some keyword
  | _ => false

/-- The keywords that end a list of commands. -/
def closers : List String := ["do", "done", "then", "elif", "else", "fi", "\x7d"]

/-- Whether a list of commands ends in front of some tokens. -/
def closes : List Token → Bool
  | [] => true
  | t :: _ => t = .operator ")" || closers.any (isKeyword · t)

/-- Tokens without a keyword that they have to start with. -/
def drop? (keyword : String) : List Token → Option (List Token)
  | t :: rest => if isKeyword keyword t then some rest else none
  | [] => none

/-- The assignment that a word makes, if it is one. -/
def assignment? : Word → Option (String × Word)
  | .text cs false :: rest =>
    let name := cs.takeWhile isNameChar
    match cs.drop name.length with
    | '=' :: value =>
      if name.isEmpty || Text.isAsciiDigit (name.headD '0') then none
      else some (String.ofList name, if value.isEmpty then rest else .text value false :: rest)
    | _ => none
  | _ => none

/-- The redirections at the start of some tokens, around a script. The first one is outermost. -/
def withRedirects (s : Script) : List Token → Script × List Token
  | .redirect source :: .word place :: rest =>
    let (inside, rest) := withRedirects s rest
    (.redirected inside source place, rest)
  | rest => (s, rest)

/-- The words up to the next operator. -/
def takeWords : List Token → List Word × List Token
  | .word w :: rest => let (ws, r) := takeWords rest; (w :: ws, r)
  | rest => ([], rest)

/-- A command without keywords: assignments, words and redirections. -/
def simple (assignments : List (String × Word)) (words : List Word) : List Token → Script × List Token
  | .word w :: rest =>
    match words, assignment? w with
    | [], some a => simple (assignments ++ [a]) [] rest
    | _, _ => simple assignments (words ++ [w]) rest
  | .redirect source :: .word place :: rest =>
    let (inside, rest) := simple assignments words rest
    (.redirected inside source place, rest)
  | rest => (.command assignments words, rest)

/-! ### Parsing -/

mutual

/-- Commands one after the other. The first argument of each parser bounds its depth. -/
def parseList : Nat → List Token → Option (Script × List Token)
  | 0, _ => none
  | fuel + 1, .operator ";" :: rest => parseList fuel rest
  | fuel + 1, ts =>
    if closes ts then some (.nothing, ts)
    else do
      let (first, rest) ← parseChain fuel ts
      match rest with
      | .operator ";" :: rest => do
        let (second, rest) ← parseList fuel rest
        some (.next first second, rest)
      | rest => if closes rest then some (first, rest) else none

/-- Pipelines joined by conditions. -/
def parseChain : Nat → List Token → Option (Script × List Token)
  | 0, _ => none
  | fuel + 1, ts => do
    let (first, rest) ← parsePipeline fuel ts
    parseLinks fuel first rest

/-- Further pipelines behind a condition. -/
def parseLinks : Nat → Script → List Token → Option (Script × List Token)
  | 0, _, _ => none
  | fuel + 1, first, .operator "&&" :: rest => do
    let (second, rest) ← parsePipeline fuel rest
    parseLinks fuel (.both first second) rest
  | fuel + 1, first, .operator "||" :: rest => do
    let (second, rest) ← parsePipeline fuel rest
    parseLinks fuel (.orElse first second) rest
  | _ + 1, first, rest => some (first, rest)

/-- Commands joined by pipes. -/
def parsePipeline : Nat → List Token → Option (Script × List Token)
  | 0, _ => none
  | fuel + 1, ts =>
    match drop? "!" ts with
    | some rest => (parsePipeline fuel rest).map fun (s, r) => (.negated s, r)
    | none => do
      let (first, rest) ← parseCommand fuel ts
      match rest with
      | .operator "|" :: rest => do
        let (second, rest) ← parsePipeline fuel rest
        some (.pipe first second, rest)
      | rest => some (first, rest)

/-- One command. -/
def parseCommand : Nat → List Token → Option (Script × List Token)
  | 0, _ => none
  | _ + 1, [] => none
  | fuel + 1, t :: rest =>
    if isKeyword "while" t || isKeyword "until" t then do
      let (test, rest) ← parseList fuel rest
      let (body, rest) ← parseList fuel (← drop? "do" rest)
      some (withRedirects (.loop (isKeyword "while" t) test body) (← drop? "done" rest))
    else if isKeyword "if" t then do
      let (s, rest) ← parseBranch fuel rest
      some (withRedirects s rest)
    else if isKeyword "for" t then do
      match rest with
      | .word name :: rest => do
        let name ← plain? name
        let (items, rest) := takeWords (← drop? "in" rest)
        let rest := match rest with
          | .operator ";" :: rest => rest
          | rest => rest
        let (body, rest) ← parseList fuel (← drop? "do" rest)
        some (withRedirects (.each name items body) (← drop? "done" rest))
      | _ => none
    else if isKeyword "\x7b" t then do
      let (s, rest) ← parseList fuel rest
      some (withRedirects s (← drop? "\x7d" rest))
    else if t = .operator "(" then do
      let (s, rest) ← parseList fuel rest
      match rest with
      | .operator ")" :: rest => some (withRedirects (.inner s) rest)
      | _ => none
    else
      match t with
      | .operator _ => none
      | _ => some (simple [] [] (t :: rest))

/-- What follows `if` or `elif`. -/
def parseBranch : Nat → List Token → Option (Script × List Token)
  | 0, _ => none
  | fuel + 1, ts => do
    let (test, rest) ← parseList fuel ts
    let (yes, rest) ← parseList fuel (← drop? "then" rest)
    match drop? "elif" rest, drop? "else" rest with
    | some rest, _ => do
      let (no, rest) ← parseBranch fuel rest
      some (.branch test yes no, rest)
    | none, some rest => do
      let (no, rest) ← parseList fuel rest
      some (.branch test yes no, ← drop? "fi" rest)
    | none, none => some (.branch test yes .nothing, ← drop? "fi" rest)

end

/-- The script that a text stands for. -/
def parse? (text : String) : Option Script := do
  let ts ← tokensOf text
  match ← parseList (8 * ts.length + 8) ts with
  | (s, []) => some s
  | _ => none

end Script

end SnippetAudit.Shell
