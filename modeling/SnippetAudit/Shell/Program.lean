import SnippetAudit.Shell.Arithmetic
import SnippetAudit.Text.Lines

/-!
The programs that scripts can use. A program maps its arguments and its input to what it writes.

Input and output are bytes.
-/

namespace SnippetAudit.Shell

/-- Bytes. -/
abbrev Bytes := List Nat

/-- The bytes of a text. -/
def bytesOf (text : String) : Bytes := text.toUTF8.toList.map (·.toNat)

/-- What a program does. -/
structure Produced where
  out : Bytes := []
  err : Bytes := []
  status : Nat := 0
  /-- The time it takes, in milliseconds. -/
  elapsed : Nat := 0

/-- Programs by name. -/
abbrev Program := List String → Bytes → Produced

/-! ### Escapes -/

/-- The value of digits. -/
def valueOf (base : Nat) (ds : List Char) : Nat :=
  ds.foldl (fun n d =>
    base * n + (if Text.isAsciiDigit d then d.toNat - '0'.toNat else d.toLower.toNat - 'a'.toNat + 10)) 0

/-- The control character for a letter behind a backslash. -/
def controlOf (c : Char) : Option Nat :=
  [('a', 7), ('b', 8), ('f', 12), ('n', 10), ('r', 13), ('t', 9), ('v', 11), ('\\', 92)].lookup c

/-- Octal digits. -/
def isOctal (c : Char) : Bool := '0' ≤ c && c ≤ '7'

/-- The byte that an escape stands for, and the text behind it. A backslash that starts no escape
stays. `zero` says that octal digits follow a zero. -/
def takeEscape (zero : Bool) (s : List Char) : Bytes × List Char :=
  match s with
  | [] => ([92], [])
  | c :: rest =>
    match controlOf c with
    | some b => ([b], rest)
    | none =>
      let digits := if zero then (if c = '0' then rest else []) else s
      let octal := (digits.take 3).takeWhile isOctal
      if zero && c = '0' || !octal.isEmpty then
        ([valueOf 8 octal % 256], digits.drop octal.length)
      else ([92], s)

/-- A text with its escapes replaced; nothing follows `\c`. The number bounds the characters. -/
def unescaped : Nat → List Char → Bytes
  | 0, _ => []
  | _, [] => []
  | _ + 1, '\\' :: 'c' :: _ => []
  | fuel + 1, '\\' :: rest =>
    let (bs, rest) := takeEscape true rest
    bs ++ unescaped fuel rest
  | fuel + 1, c :: rest => bytesOf c.toString ++ unescaped fuel rest

/-! ### Printing -/

/-- Print arguments with blanks between them. `escapes` says that escapes are replaced. -/
def echo (escapes : Bool) : Program := fun arguments _ =>
  let (newline, words) := match arguments with
    | "-n" :: rest => (false, rest)
    | words => (true, words)
  let text := String.intercalate " " words
  let shown := if escapes then unescaped (text.length + 1) text.toList else bytesOf text
  let stopped := escapes && (Text.splitAt '\\' text.toList).any (·.head? = some 'c')
  { out := shown ++ if newline && !stopped then [10] else [] }

/-- Fill up to a width, on the left or on the right. -/
def filled (flags : List Char) (width : Nat) (bs : Bytes) (numeric : Bool) : Bytes :=
  let missing := width - bs.length
  if flags.contains '-' then bs ++ List.replicate missing 32
  else if flags.contains '0' && numeric then
    match bs with
    | 45 :: ds => 45 :: List.replicate missing 48 ++ ds
    | ds => List.replicate missing 48 ++ ds
  else List.replicate missing 32 ++ bs

/-- An argument as a conversion writes it, or none if there is no such conversion. -/
def converted (conversion : Char) (flags : List Char) (width : Nat) (precision : Option Nat)
    (argument : String) : Option Bytes :=
  let number := Arithmetic.numberOf argument
  let based (base : Nat) : Bytes :=
    (Nat.toDigits base (number % 0x10000000000000000).toNat).map (·.toNat)
  match conversion with
  | 's' =>
    let bs := bytesOf argument
    some (filled flags width ((precision.map bs.take).getD bs) false)
  | 'b' => some (filled flags width (unescaped (argument.length + 1) argument.toList) false)
  | 'c' => some (filled flags width ((bytesOf argument).take 1) false)
  | 'd' | 'i' => some (filled flags width (bytesOf (toString number)) true)
  | 'u' => some (filled flags width (based 10) true)
  | 'o' => some (filled flags width (based 8) true)
  | 'x' => some (filled flags width (based 16) true)
  | _ => none

/-- A format with the arguments that it takes, and the arguments behind them. The number bounds the
characters of the format. -/
def formatted : Nat → List Char → List String → Bytes × List String
  | 0, _, arguments => ([], arguments)
  | _, [], arguments => ([], arguments)
  | fuel + 1, '\\' :: '"' :: rest, arguments =>
    let (bs, left) := formatted fuel rest arguments
    (34 :: bs, left)
  | fuel + 1, '\\' :: rest, arguments =>
    let (shown, rest) := takeEscape false rest
    let (bs, left) := formatted fuel rest arguments
    (shown ++ bs, left)
  | fuel + 1, '%' :: '%' :: rest, arguments =>
    let (bs, left) := formatted fuel rest arguments
    (37 :: bs, left)
  | fuel + 1, '%' :: rest, arguments =>
    let isFlag (c : Char) : Bool := c = '-' || c = '0' || c = ' ' || c = '+' || c = '#'
    let flags := rest.takeWhile isFlag
    let rest := rest.dropWhile isFlag
    let width := valueOf 10 (rest.takeWhile Text.isAsciiDigit)
    let rest := rest.dropWhile Text.isAsciiDigit
    let (precision, rest) := match rest with
      | '.' :: rest =>
        (some (valueOf 10 (rest.takeWhile Text.isAsciiDigit)), rest.dropWhile Text.isAsciiDigit)
      | rest => (none, rest)
    match rest with
    | [] => ([], arguments)
    | c :: rest =>
      let (bs, left) := formatted fuel rest arguments.tail
      ((converted c flags width precision (arguments.headD "")).getD [] ++ bs, left)
  | fuel + 1, c :: rest, arguments =>
    let (bs, left) := formatted fuel rest arguments
    (bytesOf c.toString ++ bs, left)

/-- A format, again and again as long as it takes arguments. -/
def formattedAll (format : List Char) : Nat → List String → Bytes
  | 0, _ => []
  | fuel + 1, arguments =>
    let (bs, left) := formatted (format.length + 1) format arguments
    if left.isEmpty || left.length = arguments.length then bs else bs ++ formattedAll format fuel left

/-- Print arguments as a format says. -/
def printf : Program := fun arguments _ =>
  match arguments with
  | [] =>
    { err := bytesOf "printf: missing operand\nTry 'printf --help' for more information.\n"
      status := 1 }
  | "--" :: format :: rest => { out := formattedAll format.toList (rest.length + 1) rest }
  | format :: rest => { out := formattedAll format.toList (rest.length + 1) rest }

/-! ### Tests -/

/-- The comparisons of numbers. -/
def comparisons : List (String × (Int → Int → Bool)) := [
  ("-eq", fun a b => a = b), ("-ne", fun a b => a ≠ b), ("-lt", fun a b => a < b),
  ("-le", fun a b => a ≤ b), ("-gt", fun a b => b < a), ("-ge", fun a b => b ≤ a)]

/-- Whether a condition holds. -/
def holds : List String → Bool
  | [] => false
  | [a] => !a.isEmpty
  | "!" :: rest => !holds rest
  | ["-n", a] => !a.isEmpty
  | ["-z", a] => a.isEmpty
  | [a, "=", b] => a = b
  | [a, "==", b] => a = b
  | [a, "!=", b] => a ≠ b
  | [a, o, b] =>
    match comparisons.lookup o with
    | some f => f (Arithmetic.numberOf a) (Arithmetic.numberOf b)
    | none => false
  | _ => false

/-- Check a condition. -/
def test : Program := fun arguments _ => { status := if holds arguments then 0 else 1 }

/-- Check a condition in brackets. -/
def bracket : Program := fun arguments input =>
  if arguments.getLast? = some "]" then test arguments.dropLast input
  else { err := bytesOf "[: missing ]\n", status := 2 }

/-! ### Other programs -/

/-- What a program says about an option that it does not know. -/
def unknownOption (name option : String) : Produced :=
  { err := bytesOf (name ++ ": unrecognized option '" ++ option ++ "'\nTry '" ++ name
      ++ " --help' for more information.\n")
    status := 1 }

/-- The first argument that is a long option. -/
def longOption? (arguments : List String) : Option String :=
  arguments.find? fun a => ['-', '-'].isPrefixOf a.toList && a ≠ "--"

/-- Copy the input. -/
def cat : Program := fun arguments input =>
  match longOption? arguments, arguments.find? (· ≠ "-") with
  | some o, _ => unknownOption "cat" o
  | none, some path =>
    { err := bytesOf ("cat: " ++ path ++ ": No such file or directory\n"), status := 1 }
  | none, none => { out := input }

/-- Count the bytes, lines or words of the input. -/
def wc : Program := fun arguments input =>
  let line (n : Nat) : Produced := { out := bytesOf (toString n ++ "\n") }
  let words :=
    (input.foldl
      (fun (n, inside) b => let blank := b = 32 || 9 ≤ b && b ≤ 13; (if !blank && !inside then n + 1 else n, !blank))
      (0, false)).1
  match longOption? arguments, arguments with
  | some o, _ => unknownOption "wc" o
  | none, ["-c"] => line input.length
  | none, ["-l"] => line (input.count 10)
  | none, ["-w"] => line words
  | none, ["-m"] => line (input.countP fun b => b < 128 || 192 ≤ b)
  | none, _ =>
    let column (n : Nat) : String :=
      String.ofList (List.replicate (7 - (toString n).length) ' ') ++ toString n
    { out := bytesOf (column (input.count 10) ++ " " ++ column words ++ " " ++ column input.length ++ "\n") }

/-- Count from one number to another. -/
def seq : Program := fun arguments _ =>
  let numbers := arguments.map Arithmetic.numberOf
  let (first, last) := match numbers with
    | [last] => (1, last)
    | first :: rest => (first, rest.getLastD first)
    | [] => (1, 0)
  { out := (List.range (last - first + 1).toNat).flatMap fun (i : Nat) => bytesOf (toString (first + i) ++ "\n") }

/-- Wait for some seconds. -/
def sleep : Program := fun arguments _ =>
  let milliseconds (a : String) : Nat :=
    let whole := a.toList.takeWhile Text.isAsciiDigit
    let places := ((a.toList.drop whole.length).drop 1).takeWhile Text.isAsciiDigit
    1000 * valueOf 10 whole + valueOf 10 ((places ++ ['0', '0', '0']).take 3)
  { elapsed := arguments.foldr (fun a n => milliseconds a + n) 0 }

/-- The programs that stand on their own. -/
def programs : List (String × Program) := [
  ("true", fun _ _ => {}), ("false", fun _ _ => { status := 1 }), ("echo", echo false),
  ("printf", printf), ("test", test), ("[", bracket), ("cat", cat), ("wc", wc), ("seq", seq),
  ("sleep", sleep)]

end SnippetAudit.Shell
