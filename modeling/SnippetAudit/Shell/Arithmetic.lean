import SnippetAudit.Shell.Token

/-!
Arithmetic expressions of shell scripts. The value of a name is the number that a variable holds.
-/

namespace SnippetAudit.Shell.Arithmetic

/-- An expression without leading blanks. -/
def trimmed (s : List Char) : List Char := s.dropWhile Text.isBlank

/-- The number that a text stands for, or zero. -/
def numberOf (text : String) : Int :=
  match trimmed text.toList with
  | '-' :: ds => -(value ds : Int)
  | ds => value ds
where
  value (ds : List Char) : Nat :=
    (ds.takeWhile Text.isAsciiDigit).foldl (fun n d => 10 * n + (d.toNat - '0'.toNat)) 0

/-- Truth as a number. -/
def truth (b : Bool) : Int := if b then 1 else 0

/-- Binary operators, from those that bind least to those that bind most. Of two operators of one
level the longer one stands first. -/
def levels : List (List (String × (Int → Int → Option Int))) := [
  [("||", fun a b => some (truth (a ≠ 0 || b ≠ 0)))],
  [("&&", fun a b => some (truth (a ≠ 0 && b ≠ 0)))],
  [("==", fun a b => some (truth (a = b))), ("!=", fun a b => some (truth (a ≠ b)))],
  [("<=", fun a b => some (truth (a ≤ b))), (">=", fun a b => some (truth (b ≤ a))),
    ("<", fun a b => some (truth (a < b))), (">", fun a b => some (truth (b < a)))],
  [("+", fun a b => some (a + b)), ("-", fun a b => some (a - b))],
  [("*", fun a b => some (a * b)), ("/", fun a b => if b = 0 then none else some (a.tdiv b)),
    ("%", fun a b => if b = 0 then none else some (a.tmod b))]]

mutual

/-- The value of an expression whose operators belong to some levels, and the text behind it. The
first argument bounds the depth. -/
def level (lookup : String → String) :
    Nat → List (List (String × (Int → Int → Option Int))) → List Char → Option (Int × List Char)
  | 0, _, _ => none
  | fuel + 1, [], s => operand lookup fuel s
  | fuel + 1, here :: inner, s => do
    let (a, rest) ← level lookup fuel inner s
    further lookup fuel here inner a rest

/-- Further operators of one level. -/
def further (lookup : String → String) :
    Nat → List (String × (Int → Int → Option Int)) → List (List (String × (Int → Int → Option Int))) →
      Int → List Char → Option (Int × List Char)
  | 0, _, _, _, _ => none
  | fuel + 1, here, inner, a, s =>
    let s := trimmed s
    match here.find? fun o => o.1.toList.isPrefixOf s with
    | none => some (a, s)
    | some (o, combine) => do
      let (b, rest) ← level lookup fuel inner (s.drop o.length)
      further lookup fuel here inner (← combine a b) rest

/-- A number, a name, a sign with its operand or an expression in parentheses. -/
def operand (lookup : String → String) : Nat → List Char → Option (Int × List Char)
  | 0, _ => none
  | fuel + 1, s =>
    match trimmed s with
    | '-' :: rest => (operand lookup fuel rest).map fun (a, r) => (-a, r)
    | '+' :: rest => operand lookup fuel rest
    | '!' :: rest => (operand lookup fuel rest).map fun (a, r) => (truth (a = 0), r)
    | '$' :: rest => operand lookup fuel rest
    | '(' :: rest => do
      let (a, rest) ← level lookup fuel levels rest
      match trimmed rest with
      | ')' :: rest => some (a, rest)
      | _ => none
    | s =>
      let word := s.takeWhile isNameChar
      match word with
      | [] => none
      | c :: _ =>
        let text := String.ofList word
        some (numberOf (if Text.isAsciiDigit c then text else lookup text), s.drop word.length)

end

/-- The value of an expression. -/
def value? (lookup : String → String) (s : List Char) : Option Int :=
  match level lookup (16 * s.length + 16) levels s with
  | some (a, rest) => if (trimmed rest).isEmpty then some a else none
  | none => none

end SnippetAudit.Shell.Arithmetic
