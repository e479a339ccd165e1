import SnippetAudit.Python.Literal

/-!
Expressions of Python source.

The parser recognises expressions and answers what the rest of the library asks of them: their
`Form`, which tells whether they can be assigned to and whether they are nothing but string
literals. Binding strength does not change which texts are expressions, so operators are read in
one row. Every parser takes the parsers for what may be nested in it as a value of `Nested`; `nested n`
ties the knot for nesting up to depth `n`, and no text nests deeper than it is long.
-/

namespace SnippetAudit.Python

/-- What may directly follow a complete expression at some place of the grammar. -/
structure Around where
  /-- The end of the line. -/
  newline : Bool
  /-- The bracket that closes what encloses the expression. -/
  close : Bool
  /-- An `if` that makes the expression the first part of a conditional. -/
  ternary : Bool

/-- The layout tokens that the grammar can use behind a complete expression. -/
def Around.behind (around : Around) : Expecting := { newline := around.newline, close := around.close }

/-- Inside brackets, where the bracket may close. -/
def Around.inBrackets : Around := ⟨false, true, true⟩

/-- Where some other token has to follow. -/
def Around.inside : Around := ⟨false, false, true⟩

/-- The kinds of expressions that are told apart. -/
inductive Form where
  | name
  /-- An attribute or a subscription. -/
  | place
  /-- A star in front of a name or a place. -/
  | starred
  /-- Parentheses or square brackets, and whether everything between them can be assigned to. -/
  | bracketed (targets : Bool)
  /-- One or more adjacent string literals and nothing else. -/
  | text
  | other
  deriving DecidableEq

/-- Whether an expression can be assigned to. -/
def Form.isTarget : Form → Bool
  | name | place | starred => true
  | bracketed targets => targets
  | text | other => false

/-- Parsers for what may be nested in an expression. -/
structure Nested where
  expression : Around → Cursor → Except Stuck (Form × Cursor)
  interpolation : Cursor → Except Stuck (Unit × Cursor)

/-- The place of the next token, if it is a plain one. -/
def Cursor.plain? (want : Expecting) (cur : Cursor) : Option Cursor :=
  match cur.next want with
  | (.plain, found) => some found
  | _ => none

/-- The text at the next token. -/
def Cursor.upcoming (want : Expecting) (cur : Cursor) : List Char := (cur.next want).2.rest

/-- Get stuck at the next token. -/
def Cursor.stuck {α : Type} (want : Expecting) (cur : Cursor) : Except Stuck α :=
  .error (cur.upcoming want)

/-- Behind a lexeme, if the next token starts with it. -/
def Cursor.on? (want : Expecting) (lexeme : String) (cur : Cursor) : Option Cursor := do
  let found ← cur.plain? want
  let rest ← after? lexeme.toList found.rest
  some { found with rest }

/-- Behind a word, if it is the next token. -/
def Cursor.onWord? (want : Expecting) (w : String) (cur : Cursor) : Option Cursor := do
  let found ← cur.plain? want
  let rest ← afterWord? w found.rest
  some { found with rest }

/-- Behind a lexeme that has to come next. -/
def Cursor.expect (want : Expecting) (lexeme : String) (cur : Cursor) : Except Stuck Cursor :=
  match cur.on? want lexeme with
  | some cur => .ok cur
  | none => cur.stuck want

/-- Behind a word that has to come next. -/
def Cursor.expectWord (want : Expecting) (w : String) (cur : Cursor) : Except Stuck Cursor :=
  match cur.onWord? want w with
  | some cur => .ok cur
  | none => cur.stuck want

/-- A name that has to come next. -/
def Cursor.expectName (want : Expecting) (cur : Cursor) : Except Stuck (String × Cursor) :=
  match cur.plain? want with
  | some found =>
    match name? found.rest with
    | some (name, rest) => .ok (name, { found with rest })
    | none => .error found.rest
  | none => cur.stuck want

/-- Behind a colon that starts no `:=`. -/
def Cursor.onColon? (want : Expecting) (cur : Cursor) : Option Cursor := do
  let found ← cur.on? want ":"
  if found.rest.head? = some '=' then none else some found

/-- Behind an equals sign that starts no `==`. -/
def Cursor.onEquals? (want : Expecting) (cur : Cursor) : Option Cursor := do
  let found ← cur.on? want "="
  if found.rest.head? = some '=' then none else some found

/-- Behind a comma. -/
def Cursor.onComma? (want : Expecting) (cur : Cursor) : Option Cursor := cur.on? want ","

/-- Whether the clause of a comprehension starts here. -/
def Cursor.atClause (want : Expecting) (cur : Cursor) : Bool :=
  match cur.onWord? want "for" with
  | some _ => true
  | none =>
    match cur.onWord? want "async" with
    | some behind => (behind.onWord? {} "for").isSome
    | none => false

/-! ### Literals and operands -/

/-- String literals next to each other; the opening of the first was just passed. -/
def literals (P : Nested) (around : Around) : Nat → Quote → Cursor → Except Stuck (Form × Cursor)
  | 0, _, cur => .error cur.rest
  | fuel + 1, q, cur => do
    let (_, cur) ← literal P.interpolation q cur
    match cur.next { around.behind with quote := true } with
    | (.quote q body, found) => literals P around fuel q (found.enter q body)
    | _ => .ok (.text, cur)

/-- An annotation: an expression, a starred name, or several of these parted by colons. -/
def annotationWithin (P : Nested) (around : Around) : Nat → Cursor → Except Stuck (Unit × Cursor)
  | 0, cur => .error cur.rest
  | fuel + 1, cur => do
    let cur ← match cur.on? { quote := true } "**" with
      | some cur => do
        let (_, cur) ← cur.expectName {}
        .ok cur
      | none => do
        let (_, cur) ← P.expression around cur
        .ok cur
    match cur.onColon? around.behind with
    | some cur => annotationWithin P around fuel cur
    | none => .ok ((), cur)

/-- An annotation that may itself hold colons. -/
def typing (P : Nested) (around : Around) (cur : Cursor) : Except Stuck (Unit × Cursor) :=
  annotationWithin P around cur.fuel cur

/-- A `yield` behind its keyword: `from` and an expression, or any number of expressions. -/
def yieldWithin (P : Nested) (around : Around) : Nat → Cursor → Except Stuck (Form × Cursor)
  | 0, cur => .error cur.rest
  | fuel + 1, cur =>
    let want : Expecting := { around.behind with quote := true }
    match cur.next want with
    | (.newline, _) => .ok (.other, cur)
    | (.plain, found) =>
      match found.rest with
      | c :: _ =>
        if c = ')' || c = ']' || c = '}' || c = ';' || c = ',' || c = '=' || c = ':' || c = '!' then
          .ok (.other, cur)
        else do
          let (_, cur) ← P.expression around found
          match cur.onComma? around.behind with
          | some cur => yieldWithin P around fuel cur
          | none => .ok (.other, cur)
      | [] => .ok (.other, cur)
    | _ => do
      let (_, cur) ← P.expression around (cur.settle want)
      match cur.onComma? around.behind with
      | some cur => yieldWithin P around fuel cur
      | none => .ok (.other, cur)

/-- A `yield` behind its keyword. -/
def yielding (P : Nested) (around : Around) (cur : Cursor) : Except Stuck (Form × Cursor) :=
  match cur.onWord? { around.behind with quote := true } "from" with
  | some cur => do
    let (_, cur) ← P.expression around cur
    .ok (.other, cur)
  | none => yieldWithin P around cur.fuel cur

/-! ### Brackets -/

/-- Targets of a loop up to the word `in`, given a parser for one target. -/
def targetsWithin (target : Cursor → Except Stuck (Form × Cursor)) : Nat → Cursor → Except Stuck Cursor
  | 0, cur => .error cur.rest
  | fuel + 1, cur => do
    let (form, behind) ← target cur
    if !form.isTarget then cur.stuck {}
    else match behind.onComma? {} with
      | some cur =>
        match cur.onWord? { quote := true } "in" with
        | some cur => .ok cur
        | none => targetsWithin target fuel cur
      | none => behind.expectWord {} "in"

/-- The sources of one `for` clause behind `in`: expressions parted by commas. -/
def sourcesWithin (P : Nested) : Nat → Cursor → Except Stuck Cursor
  | 0, cur => .error cur.rest
  | fuel + 1, cur => do
    let (_, cur) ← P.expression ⟨false, true, false⟩ cur
    match cur.onComma? { close := true } with
    | some behind =>
      let want : Expecting := { quote := true, close := true }
      match behind.plain? want with
      | some found =>
        match found.rest with
        | [] => .error []
        | c :: _ =>
          if c = ')' || c = ']' || c = '}' || behind.atClause want ||
              (behind.onWord? want "if").isSome then .ok behind
          else sourcesWithin P fuel found
      | none => sourcesWithin P fuel (behind.settle want)
    | none => .ok cur

/-- The clauses of a comprehension, the first of which starts here. -/
def clausesWithin (P : Nested) (target : Cursor → Except Stuck (Form × Cursor)) :
    Nat → Cursor → Except Stuck Cursor
  | 0, cur => .error cur.rest
  | fuel + 1, cur => do
    let want : Expecting := { close := true }
    let cur := (cur.onWord? want "async").getD cur
    let cur ← match cur.onWord? want "for" with
      | some cur => do
        let cur ← targetsWithin target cur.fuel cur
        sourcesWithin P cur.fuel cur
      | none =>
        match cur.onWord? want "if" with
        | some cur => do
          let (_, cur) ← P.expression ⟨false, true, false⟩ cur
          .ok cur
        | none => cur.stuck want
    if cur.atClause want || (cur.onWord? want "if").isSome then clausesWithin P target fuel cur
    else .ok cur

/-- The clauses of a comprehension. -/
def clauses (P : Nested) (target : Cursor → Except Stuck (Form × Cursor)) (cur : Cursor) :
    Except Stuck Cursor :=
  clausesWithin P target cur.fuel cur

/-- One element of a bracketed list: an expression, a `yield`, or a star and any expression. -/
def element (P : Nested) (cur : Cursor) : Except Stuck (Form × Cursor) :=
  let want : Expecting := { quote := true, close := true }
  let cur := cur.settle want
  match cur.onWord? want "yield" with
  | some cur => yielding P .inBrackets cur
  | none =>
    match cur.on? want "*" with
    | some starred =>
      match P.expression .inBrackets cur with
      | .ok (form, behind) =>
        match behind.upcoming { close := true } with
        | c :: _ =>
          if c = ',' || c = ')' || c = ']' || c = '}' || behind.atClause { close := true } then
            .ok (form, behind)
          else do
            let (_, cur) ← P.expression .inBrackets starred
            .ok (.other, cur)
        | [] => .error []
      | .error _ => do
        let (_, cur) ← P.expression .inBrackets starred
        .ok (.other, cur)
    | none => P.expression .inBrackets cur

/-- Further elements behind a comma, up to the closing bracket; `targets` tells whether all before
can be assigned to. -/
def elementsWithin (P : Nested) (closer : String) : Nat → Bool → Cursor → Except Stuck (Form × Cursor)
  | 0, _, cur => .error cur.rest
  | fuel + 1, targets, cur =>
    match cur.on? { quote := true, close := true } closer with
    | some cur => .ok (.bracketed targets, cur)
    | none => do
      let (form, cur) ← element P cur
      let targets := targets && form.isTarget
      match cur.onComma? { close := true } with
      | some cur => elementsWithin P closer fuel targets cur
      | none => do
        let cur ← cur.expect { close := true } closer
        .ok (.bracketed targets, cur)

/-- Parentheses or square brackets behind the opening one: nothing, elements, or a comprehension. -/
def enclosed (P : Nested) (target : Cursor → Except Stuck (Form × Cursor)) (closer : String) (cur : Cursor) :
    Except Stuck (Form × Cursor) :=
  match cur.on? { quote := true, close := true } closer with
  | some cur => .ok (.bracketed true, cur)
  | none => do
    let (form, cur) ← element P cur
    if cur.atClause { close := true } then
      let cur ← clauses P target cur
      let cur ← cur.expect { close := true } closer
      .ok (.other, cur)
    else match cur.onComma? { close := true } with
      | some behind => elementsWithin P closer cur.fuel form.isTarget behind
      | none => do
        let cur ← cur.expect { close := true } closer
        .ok (.bracketed form.isTarget, cur)

/-- The entry of a dictionary: two stars and an expression, or a key and its value. -/
def entry (P : Nested) (cur : Cursor) : Except Stuck Cursor :=
  let cur := cur.settle { quote := true, close := true }
  match cur.on? { quote := true, close := true } "**" with
  | some cur => do
    let (_, cur) ← P.expression .inBrackets cur
    .ok cur
  | none => do
    let (_, cur) ← P.expression .inside cur
    let cur ← cur.expect {} ":"
    let (_, cur) ← P.expression .inBrackets cur
    .ok cur

/-- Further entries of a dictionary up to the closing brace; an entry was just passed. -/
def entriesWithin (P : Nested) : Nat → Cursor → Except Stuck (Form × Cursor)
  | 0, cur => .error cur.rest
  | fuel + 1, cur =>
    match cur.onComma? { close := true } with
    | some behind =>
      match behind.on? { quote := true, close := true } "\x7d" with
      | some cur => .ok (.other, cur)
      | none => do
        let cur ← entry P behind
        entriesWithin P fuel cur
    | none => do
      let cur ← cur.expect { close := true } "\x7d"
      .ok (.other, cur)

/-- Braces behind the opening one: a dictionary, a set or a comprehension. -/
def braced (P : Nested) (target : Cursor → Except Stuck (Form × Cursor)) (cur : Cursor) : Except Stuck (Form × Cursor) :=
  let want : Expecting := { quote := true, close := true }
  match cur.on? want "\x7d" with
  | some cur => .ok (.other, cur)
  | none =>
    match cur.onComma? want with
    | some cur => do
      let cur ← cur.expect { close := true } "\x7d"
      .ok (.other, cur)
    | none =>
      if (cur.on? want "**").isSome then do
        let cur ← entry P cur
        entriesWithin P cur.fuel cur
      else do
        let (_, cur) ← element P cur
        match cur.onColon? { close := true } with
        | some cur => do
          let (_, cur) ← P.expression .inBrackets cur
          if cur.atClause { close := true } then
            let cur ← clauses P target cur
            let cur ← cur.expect { close := true } "\x7d"
            .ok (.other, cur)
          else entriesWithin P cur.fuel cur
        | none =>
          if cur.atClause { close := true } then do
            let cur ← clauses P target cur
            let cur ← cur.expect { close := true } "\x7d"
            .ok (.other, cur)
          else
            let closed ← match cur.onComma? { close := true } with
              | some behind => elementsWithin P "\x7d" cur.fuel false behind
              | none => do
                let cur ← cur.expect { close := true } "\x7d"
                .ok (.other, cur)
            .ok (.other, closed.2)

/-! ### Arguments and subscripts -/

/-- One argument of a call, and whether a comprehension clause may follow it. -/
def argument (P : Nested) (cur : Cursor) : Except Stuck (Bool × Cursor) :=
  let want : Expecting := { quote := true, close := true }
  match cur.on? want "**" with
  | some cur => do
    let (_, cur) ← P.expression .inBrackets cur
    .ok (false, cur)
  | none =>
    let keyword? : Option Cursor := do
      let found ← cur.plain? want
      let (_, rest) ← name? found.rest
      Cursor.onEquals? { close := true } { found with rest }
    match keyword? with
    | some cur => do
      let (_, cur) ← P.expression .inBrackets cur
      .ok (false, cur)
    | none => do
      let (_, behind) ← match cur.onWord? want "yield" with
        | some _ => cur.stuck want
        | none => element P cur
      .ok (true, behind)

/-- Arguments up to the closing parenthesis; `only` tells whether none came before. -/
def argumentsWithin (P : Nested) (target : Cursor → Except Stuck (Form × Cursor)) :
    Nat → Bool → Cursor → Except Stuck Cursor
  | 0, _, cur => .error cur.rest
  | fuel + 1, only, cur =>
    match cur.on? { quote := true, close := true } ")" with
    | some cur => .ok cur
    | none => do
      let (generates, cur) ← argument P cur
      if only && generates && cur.atClause { close := true } then
        let cur ← clauses P target cur
        cur.expect { close := true } ")"
      else match cur.onComma? { close := true } with
        | some cur => argumentsWithin P target fuel false cur
        | none => cur.expect { close := true } ")"

/-- The arguments of a call behind the opening parenthesis. A comma alone is allowed. -/
def arguments (P : Nested) (target : Cursor → Except Stuck (Form × Cursor)) (cur : Cursor) :
    Except Stuck Cursor :=
  match cur.onComma? { quote := true, close := true } with
  | some cur => cur.expect { close := true } ")"
  | none => argumentsWithin P target cur.fuel true cur

/-- A bound of a slice, if there is one before the next colon, comma or closing bracket. -/
def bound (P : Nested) (cur : Cursor) : Except Stuck Cursor :=
  match cur.upcoming { quote := true, close := true } with
  | c :: _ =>
    if c = ':' || c = ',' || c = ']' then .ok cur
    else do
      let (_, cur) ← P.expression .inBrackets (cur.settle { quote := true, close := true })
      .ok cur
  | [] => .error []

/-- One subscript: an expression or a slice. -/
def subscript (P : Nested) (cur : Cursor) : Except Stuck Cursor := do
  let want : Expecting := { close := true }
  let (sliced, cur) ← match cur.on? { quote := true } ":" with
    | some cur => .ok (true, cur)
    | none => do
      let (_, cur) ← P.expression .inBrackets cur
      match cur.onColon? want with
      | some cur => .ok (true, cur)
      | none => .ok (false, cur)
  if sliced then
    let cur ← bound P cur
    match cur.on? want ":" with
    | some cur => bound P cur
    | none => .ok cur
  else .ok cur

/-- Subscripts up to the closing bracket. -/
def subscriptsWithin (P : Nested) : Nat → Cursor → Except Stuck Cursor
  | 0, cur => .error cur.rest
  | fuel + 1, cur => do
    let cur ← subscript P cur
    match cur.onComma? { close := true } with
    | some behind =>
      match behind.on? { quote := true, close := true } "]" with
      | some cur => .ok cur
      | none => subscriptsWithin P fuel (behind.settle { quote := true, close := true })
    | none => cur.expect { close := true } "]"

/-! ### Operands -/

/-- Attributes, subscriptions and calls behind an operand of form `form`; `placed` tells whether
there was an attribute or a subscription among those before. -/
def trailersWithin (P : Nested) (target : Cursor → Except Stuck (Form × Cursor)) (around : Around) :
    Nat → Form → Bool → Cursor → Except Stuck ((Form × Bool) × Cursor)
  | 0, _, _, cur => .error cur.rest
  | fuel + 1, form, placed, cur =>
    match cur.plain? around.behind with
    | some found =>
      match found.rest with
      | '.' :: rest => do
        let (_, cur) ← Cursor.expectName {} { found with rest }
        trailersWithin P target around fuel .place true cur
      | '[' :: rest => do
        let cur ← subscriptsWithin P found.fuel { found with rest }
        trailersWithin P target around fuel .place true cur
      | '(' :: rest => do
        let cur ← arguments P target { found with rest }
        trailersWithin P target around fuel .other placed cur
      | _ => .ok ((form, placed), cur)
    | none => .ok ((form, placed), cur)

/-- An operand without attributes, subscriptions and calls. -/
def atom (P : Nested) (target : Cursor → Except Stuck (Form × Cursor)) (around : Around) (want : Expecting)
    (cur : Cursor) : Except Stuck (Form × Cursor) :=
  match cur.next { want with quote := true } with
  | (.quote q body, found) => literals P around found.fuel q (found.enter q body)
  | (.plain, found) =>
    match found.rest with
    | '(' :: rest => enclosed P target ")" { found with rest }
    | '[' :: rest => enclosed P target "]" { found with rest }
    | '{' :: rest => braced P target { found with rest }
    | '.' :: '.' :: '.' :: rest => .ok (.other, { found with rest })
    | s =>
      match number? s with
      | some rest => .ok (.other, { found with rest })
      | none =>
        match word? s with
        | some (w, rest) =>
          if w == "True" || w == "False" || w == "None" then .ok (.other, { found with rest })
          else if reservedWords.contains w then .error s
          else .ok (.name, { found with rest })
        | none => .error s
  | (_, found) => .error found.rest

/-- An operand with its attributes, subscriptions and calls, and whether the first or second of
these are among them or the operand is a name. -/
def placeable (P : Nested) (target : Cursor → Except Stuck (Form × Cursor)) (around : Around) (want : Expecting)
    (cur : Cursor) : Except Stuck ((Form × Bool) × Cursor) := do
  let (form, cur) ← atom P target around want cur
  trailersWithin P target around cur.fuel form (form == .name) cur

/-- A star behind its sign: a name, an attribute or a subscription, which may be used further. -/
def starredOperand (P : Nested) (target : Cursor → Except Stuck (Form × Cursor)) (around : Around) (cur : Cursor) :
    Except Stuck (Form × Cursor) := do
  let ((form, placed), behind) ← placeable P target around {} cur
  if !placed then cur.stuck { quote := true }
  else .ok (if form.isTarget then .starred else form, behind)

/-- Whether an operand can start behind `await`. -/
def startsOperand (s : List Char) : Bool :=
  if (updateOperator? s).isSome then false
  else match s with
    | '*' :: '*' :: _ => false
    | '(' :: _ | '[' :: _ | '{' :: _ | '+' :: _ | '-' :: _ | '~' :: _ | '*' :: _ => true
    | '.' :: '.' :: '.' :: _ => true
    | _ =>
      (number? s).isSome || (name? s).isSome || (afterWord? "True" s).isSome ||
        (afterWord? "False" s).isSome || (afterWord? "None" s).isSome

/-- An operand of an arithmetic operator or a comparison. -/
def operandWithin (P : Nested) (target : Cursor → Except Stuck (Form × Cursor)) (around : Around) :
    Nat → Expecting → Cursor → Except Stuck (Form × Cursor)
  | 0, _, cur => .error cur.rest
  | fuel + 1, want, cur =>
    let tail (cur : Cursor) : Except Stuck (Form × Cursor) := do
      let ((form, _), cur) ← placeable P target around want cur
      .ok (form, cur)
    match cur.plain? { want with quote := true } with
    | some found =>
      match found.rest with
      | '+' :: rest | '-' :: rest | '~' :: rest => do
        let (_, cur) ← operandWithin P target around fuel {} { found with rest }
        .ok (.other, cur)
      | '*' :: rest =>
        if rest.head? = some '*' then .error found.rest
        else starredOperand P target around { found with rest }
      | s =>
        match afterWord? "await" s with
        | some rest =>
          let behind : Cursor := { found with rest }
          let awaits := match behind.next { around.behind with quote := true } with
            | (.quote _ _, _) => true
            | (.plain, next) => startsOperand next.rest
            | _ => false
          if awaits then do
            let (_, cur) ← operandWithin P target around fuel {} behind
            .ok (.other, cur)
          else tail cur
        | none => tail cur
    | none => tail cur

/-- Behind the comparison or arithmetic operator that comes next, if any. A `not` here has to be
followed by `in`. -/
def Cursor.operator? (around : Around) (cur : Cursor) : Except Stuck (Option Cursor) :=
  match cur.plain? around.behind with
  | none => .ok none
  | some found =>
    match symbolOperator? found.rest with
    | some rest => .ok (some { found with rest })
    | none =>
      match word? found.rest with
      | none => .ok none
      | some (w, rest) =>
        let behind : Cursor := { found with rest }
        if w == "in" then .ok (some behind)
        else if w == "is" then .ok (some ((behind.onWord? { quote := true } "not").getD behind))
        else if w == "not" then do
          let cur ← behind.expectWord {} "in"
          .ok (some cur)
        else .ok none

/-- Operands joined by comparisons and arithmetic operators, the first of form `form`. -/
def operandsWithin (P : Nested) (target : Cursor → Except Stuck (Form × Cursor)) (around : Around) :
    Nat → Form → Cursor → Except Stuck (Form × Cursor)
  | 0, _, cur => .error cur.rest
  | fuel + 1, form, cur => do
    match ← cur.operator? around with
    | none => .ok (form, cur)
    | some cur =>
      let (_, cur) ← operandWithin P target around cur.fuel {} cur
      operandsWithin P target around fuel .other cur

/-! ### Parameters -/

/-- One parameter; `typed` tells whether it may be annotated. -/
def parameter (P : Nested) (target : Cursor → Except Stuck (Form × Cursor)) (typed : Bool) (around : Around)
    (cur : Cursor) : Except Stuck Cursor := do
  let want : Expecting := { close := around.close }
  let annotated (cur : Cursor) : Except Stuck Cursor :=
    match if typed then cur.onColon? want else none with
    | some cur => do
      let (_, cur) ← typing P around cur
      .ok cur
    | none => .ok cur
  let starred (cur : Cursor) : Except Stuck Cursor := do
    let (form, behind) ← starredOperand P target around cur
    if form == .starred then annotated behind else cur.stuck {}
  let defaulted (cur : Cursor) : Except Stuck Cursor :=
    match cur.onEquals? want with
    | some cur => do
      let (_, cur) ← P.expression around cur
      .ok cur
    | none => .ok cur
  match cur.plain? want with
  | none => cur.stuck want
  | some found =>
    match found.rest with
    | '*' :: '*' :: rest => starred { found with rest }
    | '*' :: rest =>
      let behind : Cursor := { found with rest }
      match behind.upcoming want with
      | c :: _ => if c = ',' || c = ')' || c = ':' then .ok behind else starred behind
      | [] => .error []
    | '/' :: rest => .ok { found with rest }
    | '(' :: rest => do
      let (form, behind) ← enclosed P target ")" { found with rest }
      if form.isTarget then defaulted behind else .error found.rest
    | s =>
      match name? s with
      | some (_, rest) => do
        let cur ← annotated { found with rest }
        defaulted cur
      | none => .error s

/-- Parameters parted by commas, up to `closer`, which is not passed. -/
def parametersWithin (P : Nested) (target : Cursor → Except Stuck (Form × Cursor)) (typed : Bool) (around : Around)
    (closer : String) : Nat → Cursor → Except Stuck Cursor
  | 0, cur => .error cur.rest
  | fuel + 1, cur => do
    let want : Expecting := { close := around.close }
    let cur ← parameter P target typed around cur
    match cur.onComma? want with
    | some cur =>
      if (cur.on? want closer).isSome then .ok cur
      else parametersWithin P target typed around closer fuel cur
    | none => .ok cur

/-! ### Expressions -/

/-- The part of an expression between two of `and`, `or`, `if`, `else` and `as`. -/
def termWithin (P : Nested) (target : Cursor → Except Stuck (Form × Cursor)) (around : Around) :
    Nat → Cursor → Except Stuck (Form × Cursor)
  | 0, cur => .error cur.rest
  | fuel + 1, cur =>
    let row (cur : Cursor) : Except Stuck (Form × Cursor) := do
      let (form, cur) ← operandWithin P target around cur.fuel {} cur
      operandsWithin P target around cur.fuel form cur
    match cur.plain? { quote := true } with
    | none => row cur
    | some found =>
      match word? found.rest with
      | none => row cur
      | some (w, rest) =>
        let behind : Cursor := { found with rest }
        if w == "not" then do
          let (_, cur) ← termWithin P target around fuel behind
          .ok (.other, cur)
        else if w == "lambda" then do
          let cur ← if (behind.on? {} ":").isSome then .ok behind
            else parametersWithin P target false .inside ":" behind.fuel behind
          let cur ← cur.expect {} ":"
          let (_, cur) ← P.expression around cur
          .ok (.other, cur)
        else if reservedWords.contains w then row cur
        else match behind.on? around.behind ":=" with
          | some cur => do
            let (_, cur) ← P.expression around cur
            .ok (.other, cur)
          | none => row cur

/-- The rest of an expression behind a part of it. -/
def termsWithin (P : Nested) (target : Cursor → Except Stuck (Form × Cursor)) (around : Around) :
    Nat → Form → Cursor → Except Stuck (Form × Cursor)
  | 0, _, cur => .error cur.rest
  | fuel + 1, form, cur =>
    match cur.plain? around.behind with
    | none => .ok (form, cur)
    | some found =>
      match word? found.rest with
      | none => .ok (form, cur)
      | some (w, rest) =>
        let behind : Cursor := { found with rest }
        if w == "and" || w == "or" || w == "as" then do
          let (_, cur) ← termWithin P target around behind.fuel behind
          termsWithin P target around fuel .other cur
        else if w == "if" && around.ternary then do
          let (_, cur) ← P.expression .inside behind
          let cur ← cur.expectWord {} "else"
          let (_, cur) ← termWithin P target around cur.fuel cur
          termsWithin P target around fuel .other cur
        else .ok (form, cur)

/-- A target of a loop: something that can be assigned to, without operators. -/
def loopTarget (P : Nested) : Nat → Cursor → Except Stuck (Form × Cursor)
  | 0, cur => .error cur.rest
  | fuel + 1, cur =>
    match cur.on? { quote := true } "*" with
    | some behind => starredOperand P (loopTarget P fuel) .inside behind
    | none => do
      let ((form, _), cur) ← placeable P (loopTarget P fuel) .inside {} cur
      .ok (form, cur)

/-- An expression, given parsers for what is nested in it. -/
def expressionOver (P : Nested) (around : Around) (cur : Cursor) : Except Stuck (Form × Cursor) := do
  let target := loopTarget P cur.fuel
  let (form, cur) ← termWithin P target around cur.fuel cur
  termsWithin P target around cur.fuel form cur

/-! ### Interpolations -/

/-- A format behind its colon, up to the closing brace. -/
def formatWithin (P : Nested) : Nat → Cursor → Except Stuck Cursor
  | 0, cur => .error cur.rest
  | fuel + 1, cur =>
    match cur.rest with
    | [] => .error []
    | '}' :: rest => .ok { cur with rest }
    | '{' :: rest => do
      let (_, cur) ← P.interpolation { cur with rest }
      formatWithin P fuel cur
    | _ :: rest => formatWithin P fuel { cur with rest }

/-- Expressions parted by commas inside an interpolation. -/
def interpolatedWithin (P : Nested) : Nat → Cursor → Except Stuck Cursor
  | 0, cur => .error cur.rest
  | fuel + 1, cur => do
    let (_, cur) ← P.expression .inBrackets cur
    match cur.onComma? { close := true } with
    | some behind =>
      match behind.upcoming { quote := true, close := true } with
      | c :: _ =>
        if c = '}' || c = ':' || c = '!' || c = '=' then .ok behind
        else interpolatedWithin P fuel (behind.settle { quote := true, close := true })
      | [] => .error []
    | none => .ok cur

/-- An interpolation behind its opening brace: expressions, perhaps an equals sign, a conversion
and a format, and the closing brace. -/
def interpolationOver (P : Nested) (cur : Cursor) : Except Stuck (Unit × Cursor) := do
  let want : Expecting := { close := true }
  let cur ← match cur.onWord? { quote := true } "yield" with
    | some cur => do
      let (_, cur) ← yielding P .inBrackets cur
      .ok cur
    | none => interpolatedWithin P cur.fuel cur
  let cur := (cur.on? want "=").getD cur
  let cur := match cur.on? want "!" with
    | some behind =>
      match behind.rest with
      | c :: rest => if 'a' ≤ c && c ≤ 'z' then { behind with rest } else cur
      | [] => cur
    | none => cur
  match cur.on? want ":" with
  | some cur => do
    let cur ← formatWithin P cur.fuel cur
    .ok ((), cur)
  | none => do
    let cur ← cur.expect want "\x7d"
    .ok ((), cur)

/-- Parsers for nesting up to a given depth. -/
def nested : Nat → Nested
  | 0 => ⟨fun _ cur => .error cur.rest, fun cur => .error cur.rest⟩
  | depth + 1 => ⟨expressionOver (nested depth), interpolationOver (nested depth)⟩

end SnippetAudit.Python
