import SnippetAudit.Text.Character

/-!
The plain tokens of Python source: names, numbers and operators. Each reader answers the text
behind the longest token of its kind, or `none` where none starts.
-/

namespace SnippetAudit.Python

open Text

/-- Words that are never names. -/
def reservedWords : List String :=
  ["False", "None", "True", "and", "as", "assert", "break", "class", "continue", "def", "del",
   "elif", "else", "except", "finally", "for", "from", "global", "if", "import", "in", "is",
   "lambda", "nonlocal", "not", "or", "pass", "raise", "return", "try", "while", "with", "yield"]

/-- The word that starts here, reserved or not, and the text behind it. -/
def word? : List Char → Option (String × List Char)
  | [] => none
  | c :: rest =>
    if isNameStart c then
      some (String.ofList (c :: rest.takeWhile isNameContinue), rest.dropWhile isNameContinue)
    else none

/-- The name that starts here and the text behind it. -/
def name? (s : List Char) : Option (String × List Char) :=
  match word? s with
  | some (w, rest) => if reservedWords.contains w then none else some (w, rest)
  | none => none

/-- The text behind a given word. -/
def afterWord? (w : String) (s : List Char) : Option (List Char) :=
  match word? s with
  | some (found, rest) => if found == w then some rest else none
  | none => none

/-- The text behind a fixed lexeme. -/
def after? : List Char → List Char → Option (List Char)
  | [], s => some s
  | _ :: _, [] => none
  | p :: ps, c :: cs => if p = c then after? ps cs else none

/-- Behind digits of some base that may be parted by single underscores, as in `_?d+` repeated. -/
def afterBased (isDigit : Char → Bool) : List Char → List Char
  | [] => []
  | '_' :: c :: rest => if isDigit c then afterBased isDigit rest else '_' :: c :: rest
  | c :: rest => if isDigit c then afterBased isDigit rest else c :: rest

/-- Behind decimal digits of which each group may end in an underscore. -/
def afterDigits : List Char → List Char
  | [] => []
  | '_' :: rest => '_' :: rest
  | [c] => if isAsciiDigit c then [] else [c]
  | c :: '_' :: rest =>
    if isAsciiDigit c then
      match rest with
      | d :: _ => if isAsciiDigit d then afterDigits rest else rest
      | [] => []
    else c :: '_' :: rest
  | c :: rest => if isAsciiDigit c then afterDigits rest else c :: rest

/-- Drop one character if it is among the given ones. -/
def skipOne (cs : List Char) : List Char → List Char
  | [] => []
  | c :: rest => if c ∈ cs then rest else c :: rest

/-- Behind the exponent that starts here. -/
def afterExponent? (s : List Char) : Option (List Char) :=
  match s with
  | e :: rest =>
    if e = 'e' || e = 'E' then
      let digits := skipOne ['+', '-'] rest
      match digits with
      | d :: _ => if isAsciiDigit d then some (afterDigits digits) else none
      | [] => none
    else none
  | [] => none

/-- Behind an exponent, if one starts here. -/
def afterExponent (s : List Char) : List Char := (afterExponent? s).getD s

/-- Whether a decimal digit comes next. -/
def startsDigit : List Char → Bool
  | c :: _ => isAsciiDigit c
  | [] => false

/-- Behind a number with digits before the point, the point being optional. -/
def afterDecimal (s : List Char) : List Char :=
  let whole := afterDigits s
  match whole with
  | '.' :: fraction =>
    skipOne ['j', 'J'] (afterExponent (if startsDigit fraction then afterDigits fraction else fraction))
  | _ =>
    match afterExponent? whole with
    | some rest => skipOne ['j', 'J'] rest
    | none => skipOne ['l', 'L', 'j', 'J'] whole

/-- Behind digits of a base that follow `0x`, `0o` or `0b`, or `none` without such a digit. -/
def afterBase? (isDigit : Char → Bool) (s : List Char) : Option (List Char) :=
  let rest := afterBased isDigit s
  if rest.length < s.length then some (skipOne ['l', 'L'] rest) else none

/-- Digits of base sixteen. -/
def isHexDigit (c : Char) : Bool :=
  isAsciiDigit c || ('a' ≤ c && c ≤ 'f') || ('A' ≤ c && c ≤ 'F')

/-- Behind the number that starts here. -/
def number? (s : List Char) : Option (List Char) :=
  match s with
  | '0' :: b :: rest =>
    let based :=
      if b = 'x' || b = 'X' then afterBase? isHexDigit rest
      else if b = 'o' || b = 'O' then afterBase? (fun c => '0' ≤ c && c ≤ '7') rest
      else if b = 'b' || b = 'B' then afterBase? (fun c => c = '0' || c = '1') rest
      else none
    some (based.getD (afterDecimal s))
  | '.' :: d :: _ =>
    if isAsciiDigit d then some (skipOne ['j', 'J'] (afterExponent (afterDigits (s.drop 1)))) else none
  | c :: _ => if isAsciiDigit c then some (afterDecimal s) else none
  | [] => none

/-- Operators between two operands, each longer one before its own beginnings. An operator that an
equals sign turns into an assignment is none. -/
def binaryOperators : List (List Char) :=
  ["**".toList, "//".toList, "<<".toList, ">>".toList, "<=".toList, ">=".toList, "==".toList,
   "!=".toList, "<>".toList, "+".toList, "-".toList, "*".toList, "/".toList, "%".toList,
   "@".toList, "|".toList, "&".toList, "^".toList, "<".toList, ">".toList]

/-- Operators that assign the result of an operation. -/
def updateOperators : List (List Char) :=
  ["**=".toList, "//=".toList, ">>=".toList, "<<=".toList, "+=".toList, "-=".toList, "*=".toList,
   "/=".toList, "@=".toList, "%=".toList, "&=".toList, "^=".toList, "|=".toList]

/-- Behind the operator that assigns the result of an operation. -/
def updateOperator? (s : List Char) : Option (List Char) := updateOperators.findSome? (after? · s)

/-- Behind the operator of symbols that starts here. -/
def symbolOperator? (s : List Char) : Option (List Char) :=
  if (updateOperator? s).isSome then none else binaryOperators.findSome? (after? · s)

end SnippetAudit.Python
