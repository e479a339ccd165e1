import SnippetAudit.Text.Lines

/-!
Points in time, as they are written in a profile: a date, a time of day and an offset from universal
time. Blanks may stand between the parts.
-/

namespace SnippetAudit.Text

/-- A number of at least one and at most `most` digits, with the text behind it. -/
def shortNumber (most : Nat) (s : List Char) : Option (Nat × List Char) :=
  let ds := (s.take most).takeWhile isAsciiDigit
  if ds.isEmpty then none
  else some (ds.foldl (fun n d => n * 10 + (d.toNat - '0'.toNat)) 0, s.drop ds.length)

/-- A number between two bounds, with blanks in front of it. -/
def numberBetween (most least greatest : Nat) (s : List Char) : Option (Nat × List Char) := do
  let (n, s) ← shortNumber most (dropBlanks s)
  if least ≤ n && n ≤ greatest then some (n, s) else none

/-- Behind a character with blanks in front of it. -/
def behindChar (c : Char) (s : List Char) : Option (List Char) :=
  match dropBlanks s with
  | d :: rest => if c = d then some rest else none
  | [] => none

/-- A year, which may have a sign and then any number of digits. -/
def year (s : List Char) : Option (Int × List Char) := do
  let (y, rest) ← match dropBlanks s with
    | '-' :: rest => (shortNumber rest.length rest).map fun (n, rest) => (-(n : Int), rest)
    | '+' :: rest => (shortNumber rest.length rest).map fun (n, rest) => ((n : Int), rest)
    | rest => (shortNumber 4 rest).map fun (n, rest) => ((n : Int), rest)
  if -262143 ≤ y && y ≤ 262142 then some (y, rest) else none

/-- Number of days of a month. -/
def daysOfMonth (year : Int) (month : Nat) : Nat :=
  if month = 2 then (if year % 4 = 0 && (year % 100 ≠ 0 || year % 400 = 0) then 29 else 28)
  else if [4, 6, 9, 11].contains month then 30
  else 31

/-- Behind a date. -/
def behindDate (s : List Char) : Option (List Char) := do
  let (y, s) ← year s
  let (month, s) ← numberBetween 2 1 12 (← behindChar '-' s)
  let (_, s) ← numberBetween 2 1 (daysOfMonth y month) (← behindChar '-' s)
  some s

/-- Behind a time of day. -/
def behindTime (s : List Char) : Option (List Char) := do
  let (_, s) ← numberBetween 2 0 23 s
  let (_, s) ← numberBetween 2 0 59 (← behindChar ':' s)
  let (_, s) ← numberBetween 2 0 60 (← behindChar ':' s)
  match s with
  | '.' :: rest =>
    match rest with
    | d :: _ => if isAsciiDigit d then some (rest.dropWhile isAsciiDigit) else none
    | [] => none
  | _ => some s

/-- Behind an offset from universal time. -/
def behindOffset (s : List Char) : Option (List Char) :=
  match s with
  | [] => none
  | c :: rest =>
    if c = 'Z' || c = 'z' then some rest
    else if (s.take 3).map Char.toUpper = ['U', 'T', 'C'] then some (s.drop 3)
    else if c = '+' || c = '-' || c = '\u2212' then
      match rest with
      | h₁ :: h₂ :: rest =>
        match rest.dropWhile (fun c => c = ':' || isBlank c) with
        | m₁ :: m₂ :: rest =>
          let hours := (h₁.toNat - '0'.toNat) * 10 + (h₂.toNat - '0'.toNat)
          if [h₁, h₂, m₁, m₂].all isAsciiDigit && hours < 24 && m₁.toNat ≤ '5'.toNat then some rest
          else none
        | _ => none
      | _ => none
    else none

/-- Whether a text is a point in time. -/
def isMoment (text : String) : Bool :=
  let behind := do
    let s ← behindDate text.toList
    let s ← match s with
      | c :: rest => if c = 'T' || c = 't' || c = ' ' then some rest else none
      | [] => none
    behindOffset (dropBlanks (← behindTime s))
  match behind with
  | some rest => (dropBlanks rest).isEmpty
  | none => false

/-! ### Writing -/

/-- The digits of a number, with zeros in front up to a width. -/
def paddedDigits (width n : Nat) : String :=
  let ds := Nat.toDigits 10 n
  String.ofList (List.replicate (width - ds.length) '0' ++ ds)

/-- The year, month and day that lie a number of days behind the first of January 1970. Years are
counted from March on, so that a leap day ends its year, and repeat after four hundred. -/
def dateOfDays (days : Nat) : Nat × Nat × Nat :=
  let shifted := days + 719468
  let inCycle := shifted % 146097
  let year := (inCycle - inCycle / 1460 + inCycle / 36524 - inCycle / 146096) / 365
  let inYear := inCycle - (365 * year + year / 4 - year / 100)
  let month := (5 * inYear + 2) / 153
  let day := inYear - (153 * month + 2) / 5 + 1
  let early := 10 ≤ month
  (400 * (shifted / 146097) + year + (if early then 1 else 0), if early then month - 9 else month + 3, day)

/-- The point in time that lies some nanoseconds behind the beginning of the year 1970. -/
def momentOf (nanoseconds : Nat) : String :=
  let seconds := nanoseconds / 1000000000
  let (year, month, day) := dateOfDays (seconds / 86400)
  let time := seconds % 86400
  paddedDigits 4 year ++ "-" ++ paddedDigits 2 month ++ "-" ++ paddedDigits 2 day ++ "T"
    ++ paddedDigits 2 (time / 3600) ++ ":" ++ paddedDigits 2 (time / 60 % 60) ++ ":"
    ++ paddedDigits 2 (time % 60) ++ "." ++ paddedDigits 9 (nanoseconds % 1000000000) ++ "Z"

end SnippetAudit.Text
