import SnippetAudit.Json.Value

/-!
The scalar values of TOML documents: strings, numbers, truth values and dates.

Each reader takes the text from the first character of the value on and answers the value with the
text behind it, or `none` if there is no such value.
-/

namespace SnippetAudit.Toml

/-- Blanks within a line. -/
def isSpace (c : Char) : Bool := c = ' ' || c = '\t'

/-- A text without leading blanks. -/
def skipSpace (s : List Char) : List Char := s.dropWhile isSpace

/-- Whether a character may stand in a comment or in a string on one line. -/
def isPrintable (c : Char) : Bool := c = '\t' || (0x20 ≤ c.toNat && c.toNat ≠ 0x7F)

/-- Behind a line end. -/
def afterNewline? : List Char → Option (List Char)
  | '\n' :: rest => some rest
  | '\r' :: '\n' :: rest => some rest
  | _ => none

/-- Digits of a base up to sixteen. -/
def digitValue? (base : Nat) (c : Char) : Option Nat :=
  let n :=
    if '0' ≤ c && c ≤ '9' then c.toNat - '0'.toNat
    else if 'a' ≤ c && c ≤ 'f' then c.toNat - 'a'.toNat + 10
    else if 'A' ≤ c && c ≤ 'F' then c.toNat - 'A'.toNat + 10
    else base
  if n < base then some n else none

/-- Whether a decimal digit comes next. -/
def atDigit : List Char → Bool
  | c :: _ => (digitValue? 10 c).isSome
  | [] => false

/-! ### Strings -/

/-- The value of exactly `count` hexadecimal digits. -/
def hexadecimal : Nat → Nat → List Char → Option (Nat × List Char)
  | 0, value, s => some (value, s)
  | _ + 1, _, [] => none
  | count + 1, value, c :: rest => do
    let d ← digitValue? 16 c
    hexadecimal count (value * 16 + d) rest

/-- The character with a given number, if there is one. -/
def scalar? (n : Nat) : Option Char := if h : n.isValidChar then some (Char.ofNatAux n h) else none

/-- The character that an escape behind its backslash stands for. -/
def escape : List Char → Option (Char × List Char)
  | 'b' :: rest => some ('\x08', rest)
  | 't' :: rest => some ('\t', rest)
  | 'n' :: rest => some ('\n', rest)
  | 'f' :: rest => some ('\x0C', rest)
  | 'r' :: rest => some ('\r', rest)
  | '"' :: rest => some ('"', rest)
  | '\\' :: rest => some ('\\', rest)
  | 'u' :: rest => do
    let (n, rest) ← hexadecimal 4 0 rest
    some (← scalar? n, rest)
  | 'U' :: rest => do
    let (n, rest) ← hexadecimal 8 0 rest
    some (← scalar? n, rest)
  | _ => none

/-- Put a character in front of a string that was read. -/
def prepend (c : Char) : Option (List Char × List Char) → Option (List Char × List Char) :=
  Option.map fun (text, rest) => (c :: text, rest)

/-- The rest of a string on one line that ends at `mark`; `escapes` tells whether a backslash starts
an escape. -/
def lineString (mark : Char) (escapes : Bool) : Nat → List Char → Option (List Char × List Char)
  | 0, _ => none
  | _ + 1, [] => none
  | fuel + 1, c :: rest =>
    if c = mark then some ([], rest)
    else if escapes && c = '\\' then do
      let (c, rest) ← escape rest
      prepend c (lineString mark escapes fuel rest)
    else if isPrintable c then prepend c (lineString mark escapes fuel rest)
    else none

/-- Behind blanks and line ends. -/
def skipLines (s : List Char) : List Char :=
  s.dropWhile fun c => isSpace c || c = '\n' || c = '\r'

/-- Behind the blanks and line ends that a backslash in front of a line end removes. -/
def continuation? (s : List Char) : Option (List Char) :=
  (afterNewline? (skipSpace s)).map skipLines

/-- The rest of a string over several lines that ends at three marks, which may have up to two marks
of the text in front of them. -/
def blockString (mark : Char) (escapes : Bool) : Nat → List Char → Option (List Char × List Char)
  | 0, _ => none
  | _ + 1, [] => none
  | fuel + 1, c :: rest =>
    if c = mark then
      let run := (c :: rest).takeWhile (· = mark)
      if run.length < 3 then prepend c (blockString mark escapes fuel rest)
      else
        let kept := min (run.length - 3) 2
        some (List.replicate kept mark, (c :: rest).drop (kept + 3))
    else if escapes && c = '\\' then
      match continuation? rest with
      | some rest => blockString mark escapes fuel rest
      | none => do
        let (c, rest) ← escape rest
        prepend c (blockString mark escapes fuel rest)
    else match afterNewline? (c :: rest) with
      | some rest => prepend '\n' (blockString mark escapes fuel rest)
      | none => if isPrintable c then prepend c (blockString mark escapes fuel rest) else none

/-- A string on one line. -/
def lineText : List Char → Option (String × List Char)
  | '"' :: rest => (lineString '"' true (rest.length + 1) rest).map fun (t, r) => (String.ofList t, r)
  | '\'' :: rest =>
    (lineString '\'' false (rest.length + 1) rest).map fun (t, r) => (String.ofList t, r)
  | _ => none

/-- A string. -/
def text (s : List Char) : Option (String × List Char) :=
  let block (mark : Char) (escapes : Bool) (body : List Char) : Option (String × List Char) :=
    let body := (afterNewline? body).getD body
    (blockString mark escapes (body.length + 1) body).map fun (t, r) => (String.ofList t, r)
  match s with
  | '"' :: '"' :: '"' :: body => block '"' true body
  | '\'' :: '\'' :: '\'' :: body => block '\'' false body
  | _ => lineText s

/-! ### Numbers -/

/-- Digits that single underscores may part, as their values; `inside` tells whether a digit came
directly before. -/
def digitRun (base : Nat) (inside : Bool) : List Char → List Nat × List Char
  | [] => ([], [])
  | c :: rest =>
    if inside && c = '_' && (rest.head?.bind (digitValue? base)).isSome then
      digitRun base false rest
    else match digitValue? base c with
      | none => ([], c :: rest)
      | some d =>
        let (ds, behind) := digitRun base true rest
        (d :: ds, behind)

/-- Digits that single underscores may part, as their values. -/
def digits (base : Nat) (s : List Char) : List Nat × List Char := digitRun base false s

/-- The number that digits of a base stand for. -/
def valueOf (base : Nat) (ds : List Nat) : Nat := ds.foldl (fun n d => n * base + d) 0

/-- A sign, which may be missing, and whether it is a minus. -/
def sign : List Char → Bool × List Char
  | '-' :: rest => (true, rest)
  | '+' :: rest => (false, rest)
  | rest => (false, rest)

/-- The digits of a decimal integer: a zero alone, or digits of which the first is not zero. -/
def wholeDigits : List Char → Option (List Nat × List Char)
  | '0' :: rest => some ([0], rest)
  | rest => if atDigit rest then some (digits 10 rest) else none

/-- Digits that may start with zeros. -/
def anyDigits (s : List Char) : Option (List Nat × List Char) := if atDigit s then some (digits 10 s) else none

/-- An integer in a base other than ten, behind its sign of base. -/
def basedInteger (base : Nat) (s : List Char) : Option (Json × List Char) :=
  let (ds, rest) := digits base s
  let n := valueOf base ds
  if ds.isEmpty || 0x8000000000000000 ≤ n then none else some (.int n, rest)

/-- An integer. It has to fit in 64 bits with a sign. -/
def integer : List Char → Option (Json × List Char)
  | '0' :: 'x' :: rest => basedInteger 16 rest
  | '0' :: 'o' :: rest => basedInteger 8 rest
  | '0' :: 'b' :: rest => basedInteger 2 rest
  | s => do
    let (negative, s) := sign s
    let (ds, rest) ← wholeDigits s
    let n := valueOf 10 ds
    if negative then (if n ≤ 0x8000000000000000 then some (.int (-n), rest) else none)
    else if n < 0x8000000000000000 then some (.int n, rest) else none

/-- The exponent that starts here. -/
def exponent : List Char → Option (Int × List Char)
  | c :: rest =>
    if c = 'e' || c = 'E' then do
      let (negative, rest) := sign rest
      let (ds, rest) ← anyDigits rest
      let n : Nat := ds.foldl (fun n d => min (n * 10 + d) 1000000) 0
      some (if negative then -(n : Int) else n, rest)
    else none
  | [] => none

/-- The number nearest to a decimal. -/
def nearest (significand : Nat) (power : Int) : Float :=
  if 0 ≤ power then Float.ofScientific significand false power.toNat
  else Float.ofScientific significand true (-power).toNat

/-- A number with a fraction or an exponent. One that is too great is refused, unless it is
negative. -/
def decimal (s : List Char) : Option (Json × List Char) := do
  let (negative, s) := sign s
  let (whole, s) ← wholeDigits s
  let (fraction, power, rest) ← match s with
    | '.' :: s => do
      let (fraction, s) ← anyDigits s
      match s with
      | c :: _ =>
        if c = 'e' || c = 'E' then
          let (power, s) ← exponent s
          some (fraction, power, s)
        else some (fraction, 0, s)
      | [] => some (fraction, 0, s)
    | _ => do
      let (power, s) ← exponent s
      some ([], power, s)
  let x := nearest (valueOf 10 (whole ++ fraction)) (power - fraction.length)
  if negative then some (.float (-x), rest)
  else if x.isInf then none
  else some (.float x, rest)

/-- Behind a fixed word. -/
def afterWord? (w : String) (s : List Char) : Option (List Char) :=
  if w.toList.isPrefixOf s then some (s.drop w.toList.length) else none

/-- An infinite or undefined number. -/
def special (s : List Char) : Option (Json × List Char) :=
  let (negative, s) := sign s
  match afterWord? "inf" s with
  | some rest => some (.float (if negative then -(1 / 0) else 1 / 0), rest)
  | none => (afterWord? "nan" s).map fun rest => (.float (0 / 0), rest)

/-! ### Dates -/

/-- A number of exactly `count` decimal digits between two bounds. -/
def fixedNumber (count least greatest : Nat) (s : List Char) : Option (Nat × List Char) :=
  let ds := (s.take count).filterMap (digitValue? 10)
  let n := valueOf 10 ds
  if ds.length = count && least ≤ n && n ≤ greatest then some (n, s.drop count) else none

/-- Number of days in a month. -/
def daysIn (year month : Nat) : Nat :=
  if month = 2 then
    (if year % 4 = 0 && (year % 100 ≠ 0 || year % 400 = 0) then 29 else 28)
  else if month = 4 || month = 6 || month = 9 || month = 11 then 30
  else 31

/-- Behind a fixed character. -/
def afterChar? (c : Char) : List Char → Option (List Char)
  | d :: rest => if c = d then some rest else none
  | [] => none

/-- Behind a date. -/
def afterDate? (s : List Char) : Option (List Char) := do
  let (year, s) ← fixedNumber 4 0 9999 s
  let s ← afterChar? '-' s
  let (month, s) ← fixedNumber 2 1 12 s
  let s ← afterChar? '-' s
  let (_, s) ← fixedNumber 2 1 (daysIn year month) s
  some s

/-- Behind a time of day. -/
def afterTime? (s : List Char) : Option (List Char) := do
  let (_, s) ← fixedNumber 2 0 23 s
  let s ← afterChar? ':' s
  let (_, s) ← fixedNumber 2 0 59 s
  let s ← afterChar? ':' s
  let (_, s) ← fixedNumber 2 0 60 s
  match s with
  | '.' :: rest => if atDigit rest then some (rest.dropWhile fun c => (digitValue? 10 c).isSome) else some s
  | _ => some s

/-- Behind an offset from universal time, if there is one. -/
def afterOffset (s : List Char) : List Char :=
  match s with
  | 'Z' :: rest | 'z' :: rest => rest
  | '+' :: rest | '-' :: rest =>
    (do
      let (_, rest) ← fixedNumber 2 0 23 rest
      let rest ← afterChar? ':' rest
      let (_, rest) ← fixedNumber 2 0 59 rest
      some rest).getD s
  | _ => s

/-- Behind a date, a time of day, or both with an optional offset. -/
def afterMoment? (s : List Char) : Option (List Char) :=
  match afterDate? s with
  | some behind =>
    match behind with
    | c :: rest =>
      if c = 'T' || c = 't' || c = ' ' then
        match afterTime? rest with
        | some rest => some (afterOffset rest)
        | none => some behind
      else some behind
    | [] => some []
  | none => afterTime? s

/-- A date or a time. No part of it is ever asked for, so it counts as a record without known
fields. -/
def moment (s : List Char) : Option (Json × List Char) := (afterMoment? s).map fun rest => (.object [("moment", .null)], rest)

/-- A value that holds no other values. -/
def scalar (s : List Char) : Option (Json × List Char) :=
  match s with
  | '"' :: _ | '\'' :: _ => (text s).map fun (t, rest) => (.string t, rest)
  | 't' :: _ => (afterWord? "true" s).map fun rest => (.bool true, rest)
  | 'f' :: _ => (afterWord? "false" s).map fun rest => (.bool false, rest)
  | _ => (moment s).or ((decimal s).or ((special s).or (integer s)))

end SnippetAudit.Toml
