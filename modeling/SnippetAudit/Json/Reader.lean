import SnippetAudit.Json.Value
import SnippetAudit.Decimal.Scaled

/-!
Reading JSON text.

The reader is strict: one value, white space around it, and nothing else. It refuses arrays and
objects nested more than 127 deep, numbers that are too great, control characters in strings, and
halves of surrogate pairs.
-/

namespace SnippetAudit.Json

/-- The white space of JSON. -/
def isSpace (c : Char) : Bool := c = ' ' || c = '\n' || c = '\t' || c = '\r'

/-- A text without leading white space. -/
def skipSpace (s : List Char) : List Char := s.dropWhile isSpace

/-! ### Strings -/

/-- The value of a hexadecimal digit. -/
def hexValue (c : Char) : Option Nat :=
  if '0' ≤ c && c ≤ '9' then some (c.toNat - '0'.toNat)
  else if 'a' ≤ c && c ≤ 'f' then some (c.toNat - 'a'.toNat + 10)
  else if 'A' ≤ c && c ≤ 'F' then some (c.toNat - 'A'.toNat + 10)
  else none

/-- The number written by four hexadecimal digits. -/
def codeUnit (a b c d : Char) : Option Nat := do
  some ((((← hexValue a) * 16 + (← hexValue b)) * 16 + (← hexValue c)) * 16 + (← hexValue d))

/-- The character that a letter behind a backslash stands for. -/
def escaped : Char → Option Char
  | '"' => some '"'
  | '\\' => some '\\'
  | '/' => some '/'
  | 'b' => some '\x08'
  | 'f' => some '\x0C'
  | 'n' => some '\n'
  | 'r' => some '\r'
  | 't' => some '\t'
  | _ => none

/-- Put a character in front of a string that was read. -/
def prepend (c : Char) : Option (List Char × List Char) → Option (List Char × List Char) :=
  Option.map fun (text, rest) => (c :: text, rest)

/-- Read a string behind its opening mark: its characters and the text behind it. `high` is the
first half of a surrogate pair of which the second half has to follow. -/
def stringBody (high : Option Nat) : List Char → Option (List Char × List Char)
  | '\\' :: 'u' :: a :: b :: c :: d :: rest =>
    match codeUnit a b c d, high with
    | none, _ => none
    | some n, none =>
      if 0xD800 ≤ n && n < 0xDC00 then stringBody (some n) rest
      else if 0xDC00 ≤ n && n < 0xE000 then none
      else prepend (Char.ofNat n) (stringBody none rest)
    | some n, some h =>
      if 0xDC00 ≤ n && n < 0xE000 then
        prepend (Char.ofNat (0x10000 + (h - 0xD800) * 0x400 + (n - 0xDC00))) (stringBody none rest)
      else none
  | '\\' :: c :: rest =>
    match high, escaped c with
    | none, some c => prepend c (stringBody none rest)
    | _, _ => none
  | c :: rest =>
    if high.isSome then none
    else if c = '"' then some ([], rest)
    else if c.toNat < 0x20 || c = '\\' then none
    else prepend c (stringBody none rest)
  | [] => none

/-! ### Numbers -/

/-- Digits with their value, up to the point where 64 bits do not hold it any more, how many of
them were read, and the text behind all digits. -/
def wordDigits : Nat → Nat → Bool → List Char → Nat × Nat × Nat × List Char
  | value, kept, _, [] => (value, kept, 0, [])
  | value, kept, full, c :: rest =>
    if '0' ≤ c && c ≤ '9' then
      let next := value * 10 + (c.toNat - '0'.toNat)
      if full || 0x10000000000000000 ≤ next then
        let (value, kept, dropped, rest) := wordDigits value kept true rest
        (value, kept, dropped + 1, rest)
      else wordDigits next (kept + 1) false rest
    else (value, kept, 0, c :: rest)

/-- Whether a digit comes next. -/
def atDigit : List Char → Bool
  | c :: _ => '0' ≤ c && c ≤ '9'
  | [] => false

/-- The exponent that starts here, if any, and the text behind it. -/
def exponentPart : List Char → Option (Option Int × List Char)
  | c :: rest =>
    if c = 'e' || c = 'E' then
      let (negative, ds) := match rest with
        | '-' :: more => (true, more)
        | '+' :: more => (false, more)
        | more => (false, more)
      if atDigit ds then
        let value := (ds.takeWhile (fun c => '0' ≤ c && c ≤ '9')).foldl
          (fun n c => min (n * 10 + (c.toNat - '0'.toNat)) 1000000) 0
        let rest := ds.dropWhile (fun c => '0' ≤ c && c ≤ '9')
        some (some (if negative then -(value : Int) else value), rest)
      else none
    else some (none, c :: rest)
  | [] => some (none, [])

/-- The number with the given sign and parts. Without fraction and exponent it is an integer if it
fits; minus zero does not. -/
def numberOf (negative whole : Bool) (significand : Nat) (exponent : Int) : Option Json :=
  if whole && !negative && significand < 0x10000000000000000 then some (.int significand)
  else if whole && negative && 0 < significand && significand ≤ 0x8000000000000000 then some (.int (-significand))
  else (Decimal.scaled significand exponent).map fun x => .float (if negative then -x else x)

/-- Read the number that starts here. -/
def number (s : List Char) : Option (Json × List Char) := do
  let (negative, s) := match s with
    | '-' :: rest => (true, rest)
    | rest => (false, rest)
  let leading ← match s with
    | '0' :: rest => if atDigit rest then none else some (0, 1, 0, rest)
    | rest => if atDigit rest then some (wordDigits 0 0 false rest) else none
  let (value, _, dropped, s) := leading
  let (value, places, hasFraction, s) ← match s with
    | '.' :: rest =>
      if atDigit rest then
        let (value, places, _, rest) := wordDigits value 0 (0 < dropped) rest
        some (value, places, true, rest)
      else none
    | rest => some (value, 0, false, rest)
  let (power, behind) ← exponentPart s
  let whole := !hasFraction && power.isNone && dropped == 0
  let n ← numberOf negative whole value ((dropped : Int) - places + power.getD 0)
  some (n, behind)

/-! ### Values -/

/-- Items of an array parted by commas, and the closing bracket; `value` reads one item. The number
bounds how many there are. -/
def items (value : List Char → Option (Json × List Char)) :
    Nat → List Char → Option (List Json × List Char)
  | 0, _ => none
  | fuel + 1, s => do
    let (first, s) ← value s
    match skipSpace s with
    | ']' :: rest => some ([first], rest)
    | ',' :: rest =>
      let (others, rest) ← items value fuel rest
      some (first :: others, rest)
    | _ => none

/-- Members of an object parted by commas, and the closing brace. The number bounds how many there
are. -/
def members (value : List Char → Option (Json × List Char)) :
    Nat → List Char → Option (List (String × Json) × List Char)
  | 0, _ => none
  | fuel + 1, s =>
    match skipSpace s with
    | '"' :: s => do
      let (name, s) ← stringBody none s
      match skipSpace s with
      | ':' :: s =>
        let (v, s) ← value s
        match skipSpace s with
        | '}' :: rest => some ([(String.ofList name, v)], rest)
        | ',' :: rest =>
          let (others, rest) ← members value fuel rest
          some ((String.ofList name, v) :: others, rest)
        | _ => none
      | _ => none
    | _ => none

/-- Behind a fixed word. -/
def behindWord (w : String) (j : Json) (s : List Char) : Option (Json × List Char) :=
  if w.toList.isPrefixOf s then some (j, s.drop w.toList.length) else none

/-- Read the value that comes next, with at most `depth` arrays and objects around each other, none
of which has more than `bound` parts. -/
def value (bound : Nat) : Nat → List Char → Option (Json × List Char)
  | depth, s =>
    match skipSpace s with
    | '"' :: rest => (stringBody none rest).map fun (text, rest) => (.string (String.ofList text), rest)
    | '[' :: rest =>
      match depth with
      | 0 => none
      | depth + 1 =>
        match skipSpace rest with
        | ']' :: rest => some (.array [], rest)
        | _ => (items (value bound depth) bound rest).map fun (vs, rest) => (.array vs, rest)
    | '{' :: rest =>
      match depth with
      | 0 => none
      | depth + 1 =>
        match skipSpace rest with
        | '}' :: rest => some (.object [], rest)
        | _ => (members (value bound depth) bound rest).map fun (ms, rest) => (.object ms, rest)
    | 'n' :: rest => behindWord "ull" .null rest
    | 't' :: rest => behindWord "rue" (.bool true) rest
    | 'f' :: rest => behindWord "alse" (.bool false) rest
    | rest => number rest

/-- The greatest depth to which arrays and objects may be nested. -/
def depthLimit : Nat := 127

/-- The value that a text stands for, with all members of its objects. -/
def parse? (text : String) : Option Json := do
  let s := text.toList
  let (v, rest) ← value s.length depthLimit s
  if (skipSpace rest).isEmpty then some v else none

end SnippetAudit.Json
