import SnippetAudit.Text.Character

/-!
The tokens of shell scripts: words, operators and redirections.

A word is made of parts. A quoted part is never split at blanks and never taken for a keyword.
-/

namespace SnippetAudit.Shell

/-- A part of a word. -/
inductive Part where
  | text (cs : List Char) (quoted : Bool)
  /-- The value of a variable. -/
  | variable (name : String) (quoted : Bool)
  /-- The value of an arithmetic expression. -/
  | arithmetic (expression : List Char) (quoted : Bool)
  deriving DecidableEq, Repr

/-- A word. -/
abbrev Word := List Part

/-- Tokens. -/
inductive Token where
  | word (w : Word)
  | operator (text : String)
  /-- Output that goes elsewhere; the place is the next word. -/
  | redirect (source : Nat)
  deriving DecidableEq, Repr

/-! ### Expansions -/

/-- The characters of names. -/
def isNameChar (c : Char) : Bool := Text.isAsciiLetter c || Text.isAsciiDigit c || c = '_'

/-- The text up to the two parentheses that close an arithmetic expression, and the text behind
them. `depth` counts the parentheses that are open inside. -/
def takeArithmetic (depth : Nat) : List Char → Option (List Char × List Char)
  | [] => none
  | ')' :: rest =>
    match depth, rest with
    | 0, ')' :: rest => some ([], rest)
    | 0, _ => none
    | depth + 1, rest => (takeArithmetic depth rest).map fun (e, r) => (')' :: e, r)
  | '(' :: rest => (takeArithmetic (depth + 1) rest).map fun (e, r) => ('(' :: e, r)
  | c :: rest => (takeArithmetic depth rest).map fun (e, r) => (c :: e, r)

/-- The part that a dollar sign starts, and the text behind it. -/
def takeExpansion (quoted : Bool) (s : List Char) : Option (Part × List Char) :=
  match s with
  | '(' :: '(' :: rest => (takeArithmetic 0 rest).map fun (e, r) => (.arithmetic e quoted, r)
  | '(' :: _ => none
  | '{' :: rest =>
    match rest.dropWhile isNameChar with
    | '}' :: r => some (.variable (String.ofList (rest.takeWhile isNameChar)) quoted, r)
    | _ => none
  | c :: rest =>
    if Text.isAsciiDigit c || c = '$' || c = '?' || c = '#' || c = '@' || c = '*' then
      some (.variable c.toString quoted, rest)
    else if isNameChar c then
      some (.variable (String.ofList (s.takeWhile isNameChar)) quoted, s.dropWhile isNameChar)
    else some (.text ['$'] quoted, s)
  | [] => some (.text ['$'] quoted, [])

/-! ### Words -/

/-- Whether a character ends a word. -/
def endsWord (c : Char) : Bool :=
  c = ' ' || c = '\t' || c = '\n' || c = ';' || c = '&' || c = '|' || c = '<' || c = '>' || c = '(' || c = ')'

/-- The parts up to a closing quotation mark, and the text behind it. `fuel` bounds the number of
parts. -/
def takeQuoted : Nat → List Char → Option (Word × List Char)
  | 0, _ => none
  | _, [] => none
  | _ + 1, '"' :: rest => some ([], rest)
  | fuel + 1, '\\' :: c :: rest =>
    let kept := if c = '"' || c = '\\' || c = '$' || c = '\x60' then [c] else ['\\', c]
    (takeQuoted fuel rest).map fun (w, r) => (.text kept true :: w, r)
  | fuel + 1, '$' :: rest => do
    let (part, rest) ← takeExpansion true rest
    let (w, r) ← takeQuoted fuel rest
    some (part :: w, r)
  | fuel + 1, c :: rest => (takeQuoted fuel rest).map fun (w, r) => (.text [c] true :: w, r)

/-- The parts of a word, and the text behind it. -/
def takeWord : Nat → List Char → Option (Word × List Char)
  | 0, _ => none
  | _, [] => some ([], [])
  | fuel + 1, '\'' :: rest =>
    let inner := rest.takeWhile (· ≠ '\'')
    match rest.drop inner.length with
    | _ :: behind => (takeWord fuel behind).map fun (w, r) => (.text inner true :: w, r)
    | [] => none
  | fuel + 1, '"' :: rest => do
    let (inner, rest) ← takeQuoted fuel rest
    let (w, r) ← takeWord fuel rest
    some (.text [] true :: inner ++ w, r)
  | fuel + 1, '\\' :: c :: rest =>
    (takeWord fuel rest).map fun (w, r) => (if c = '\n' then w else .text [c] true :: w, r)
  | fuel + 1, '$' :: rest => do
    let (part, rest) ← takeExpansion false rest
    let (w, r) ← takeWord fuel rest
    some (part :: w, r)
  | fuel + 1, c :: rest =>
    if endsWord c then some ([], c :: rest)
    else (takeWord fuel rest).map fun (w, r) => (.text [c] false :: w, r)

/-- A word whose neighbouring unquoted texts are one. -/
def joined : Word → Word
  | [] => []
  | .text cs false :: rest =>
    match joined rest with
    | .text ds false :: more => .text (cs ++ ds) false :: more
    | more => .text cs false :: more
  | part :: rest => part :: joined rest

/-! ### Scripts -/

/-- The operators, longer ones first. -/
def operators : List String := ["&&", "||", ";", "|", "&", "(", ")", "<"]

/-- The tokens of a script, unless a quotation mark or a parenthesis stays open. -/
def tokens : Nat → List Char → Option (List Token)
  | 0, _ => none
  | _, [] => some []
  | fuel + 1, c :: rest =>
    if c = ' ' || c = '\t' then tokens fuel rest
    else if c = '\n' then (tokens fuel rest).map (.operator ";" :: ·)
    else if c = '#' then tokens fuel (rest.dropWhile (· ≠ '\n'))
    else if c = '>' then (tokens fuel rest).map (.redirect 1 :: ·)
    else if (c = '1' || c = '2') && rest.head? = some '>' then
      (tokens fuel rest.tail).map (.redirect (c.toNat - '0'.toNat) :: ·)
    else match operators.find? fun o => o.toList.isPrefixOf (c :: rest) with
      | some "&" =>
        match rest with
        | d :: more =>
          if Text.isAsciiDigit d then (tokens fuel more).map (.word [.text ['&', d] false] :: ·)
          else (tokens fuel rest).map (.operator "&" :: ·)
        | [] => some [.operator "&"]
      | some o => (tokens fuel ((c :: rest).drop o.length)).map (.operator o :: ·)
      | none => do
        let (w, behind) ← takeWord (rest.length + 2) (c :: rest)
        (tokens fuel behind).map (.word (joined w) :: ·)

/-- The tokens of a script. -/
def tokensOf (script : String) : Option (List Token) :=
  let cs := script.toList
  tokens (cs.length + 1) cs

end SnippetAudit.Shell
