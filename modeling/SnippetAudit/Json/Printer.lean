import SnippetAudit.Json.Value
import SnippetAudit.Decimal.Layout

/-!
Writing JSON, on one line or indented by two spaces for each level.

Only the quotation mark, the backslash and control characters are escaped. A number that is not
finite is written as `null`.
-/

namespace SnippetAudit.Json

/-- A digit of base sixteen. -/
def hexDigit (n : Nat) : Char := Char.ofNat (if n < 10 then '0'.toNat + n else 'a'.toNat + (n - 10))

/-- A character as it is written in a string. -/
def escape (c : Char) : List Char :=
  if c = '"' then ['\\', '"']
  else if c = '\\' then ['\\', '\\']
  else if c = '\n' then ['\\', 'n']
  else if c = '\r' then ['\\', 'r']
  else if c = '\t' then ['\\', 't']
  else if c = '\x08' then ['\\', 'b']
  else if c = '\x0C' then ['\\', 'f']
  else if c.toNat < 0x20 then ['\\', 'u', '0', '0', hexDigit (c.toNat / 16), hexDigit (c.toNat % 16)]
  else [c]

/-- A string with its marks. -/
def quoted (s : String) : List Char := '"' :: s.toList.flatMap escape ++ ['"']

/-- The text of a number that is no integer. -/
def floatText (x : Float) : List Char :=
  if Decimal.finite x then (Decimal.text .data x).toList else ['n', 'u', 'l', 'l']

/-- The text of an integer. -/
def intText (n : Int) : List Char :=
  if n < 0 then '-' :: Nat.toDigits 10 n.natAbs else Nat.toDigits 10 n.toNat

/-- What separates the parts of arrays and objects. -/
structure Spacing where
  /-- Behind an opening bracket or a comma, and in front of a closing bracket, at a given level. -/
  line : Nat → List Char
  /-- Behind a colon. -/
  colon : List Char

/-- Everything on one line. -/
def Spacing.compact : Spacing := ⟨fun _ => [], []⟩

/-- Each part on a line of its own. -/
def Spacing.pretty : Spacing := ⟨fun level => '\n' :: List.replicate (2 * level) ' ', [' ']⟩

mutual

/-- A value at a given level. -/
def written (sp : Spacing) (level : Nat) : Json → List Char
  | null => ['n', 'u', 'l', 'l']
  | bool true => ['t', 'r', 'u', 'e']
  | bool false => ['f', 'a', 'l', 's', 'e']
  | int n => intText n
  | float x => floatText x
  | string s => quoted s
  | array [] => ['[', ']']
  | array (j :: rest) =>
    '[' :: sp.line (level + 1) ++ written sp (level + 1) j ++ writtenItems sp level rest
  | object [] => ['{', '}']
  | object ((n, j) :: rest) =>
    '{' :: sp.line (level + 1) ++ quoted n ++ ':' :: sp.colon ++ written sp (level + 1) j ++
      writtenMembers sp level rest

/-- Further items of an array, and its closing bracket. -/
def writtenItems (sp : Spacing) (level : Nat) : List Json → List Char
  | [] => sp.line level ++ [']']
  | j :: rest => ',' :: sp.line (level + 1) ++ written sp (level + 1) j ++ writtenItems sp level rest

/-- Further members of an object, and its closing brace. -/
def writtenMembers (sp : Spacing) (level : Nat) : List (String × Json) → List Char
  | [] => sp.line level ++ ['}']
  | (n, j) :: rest =>
    ',' :: sp.line (level + 1) ++ quoted n ++ ':' :: sp.colon ++ written sp (level + 1) j ++
      writtenMembers sp level rest

end

/-- A value on one line. -/
def compact (j : Json) : String := String.ofList (written .compact 0 j)

/-- A value with each part on a line of its own. -/
def pretty (j : Json) : String := String.ofList (written .pretty 0 j)

end SnippetAudit.Json
