/-!
Layout: what stands between two tokens of Python source, and which tokens it makes.

Line ends, indentation and the opening of a string literal are recognised before any other token
and only where the grammar can use them, so `Cursor.next` is told what the grammar expects. A line
end that no rule expects is skipped like a blank. A line that is indented less than the open block
closes the block even where the grammar cannot use that, which makes the text malformed; the
exceptions are a place where a bracket may close, the inside of an interpolated string, and a
string literal that starts the line.
-/

namespace SnippetAudit.Python

/-- The tokens made from layout that the grammar can use at one place. -/
structure Expecting where
  newline : Bool := false
  indent : Bool := false
  dedent : Bool := false
  quote : Bool := false
  /-- Whether a bracket that is open here may close. -/
  close : Bool := false

/-- A place in the source. -/
structure Cursor where
  /-- The text from here on. -/
  rest : List Char
  /-- Widths of the open blocks, innermost first. -/
  indents : List Nat
  /-- Whether the string literal entered or left last was an interpolated one that is open. -/
  interpolating : Bool
  /-- The number of characters of the whole text. -/
  bound : Nat

/-- More rounds than any loop over the text from a place on can take. -/
def Cursor.fuel (cur : Cursor) : Nat := cur.bound + 1

/-- How a string literal was opened. -/
structure Quote where
  mark : Char
  triple : Bool := false
  raw : Bool := false
  bytes : Bool := false
  interpolated : Bool := false

/-- The layout from a place on: whether it passes the end of a line or of the text, the width of
the last line's indentation, that of the first comment line, and the text behind it. -/
structure Gap where
  ended : Bool
  width : Nat
  comment : Option Nat
  rest : List Char

/-- Read layout. Comments belong to it where line structure matters (`comments`), but not a comment
behind a token, which answers `none` as does a stray backslash. The second flag says that the text
starts inside a comment. A tab is eight wide, and a carriage return or form feed starts the
indentation anew. -/
def gap (comments : Bool) : Bool → Bool → Nat → Option Nat → List Char → Option Gap
  | _, _, _, comment, [] => some ⟨true, 0, comment, []⟩
  | false, ended, width, comment, '\\' :: '\r' :: '\n' :: rest =>
    gap comments false ended width comment rest
  | false, ended, width, comment, '\\' :: '\n' :: rest => gap comments false ended width comment rest
  | false, _, _, comment, ['\\', '\r'] => some ⟨true, 0, comment, []⟩
  | false, _, _, comment, ['\\'] => some ⟨true, 0, comment, []⟩
  | inComment, ended, width, comment, c :: rest =>
    if inComment then
      if c = '\n' then gap comments false ended 0 comment rest
      else gap comments true ended width comment rest
    else if c = '\n' then gap comments false true 0 comment rest
    else if c = ' ' then gap comments false ended (width + 1) comment rest
    else if c = '\r' || c = '\x0C' then gap comments false ended 0 comment rest
    else if c = '\t' then gap comments false ended (width + 8) comment rest
    else if c = '#' && comments then
      if ended then gap comments true ended width (comment.orElse fun _ => some width) rest else none
    else if c = '\\' then none
    else some ⟨ended, width, comment, c :: rest⟩

/-- The characters that open a string literal when they stand alone. -/
def isQuoteMark (c : Char) : Bool := c = '"' || c = '\'' || c = '\x60'

/-- The opening of a string literal: letters in any number and order, then the mark, which is
tripled where it can be. -/
def openQuote (q : Quote) : List Char → Option (Quote × List Char)
  | [] => none
  | c :: rest =>
    if c = 'f' || c = 'F' || c = 't' || c = 'T' then openQuote { q with interpolated := true } rest
    else if c = 'r' || c = 'R' then openQuote { q with raw := true } rest
    else if c = 'b' || c = 'B' then openQuote { q with bytes := true } rest
    else if c = 'u' || c = 'U' then openQuote q rest
    else if c = '\x60' then some ({ q with mark := c }, rest)
    else if c = '"' || c = '\'' then
      match rest with
      | c₁ :: c₂ :: rest' =>
        if c₁ = c && c₂ = c then some ({ q with mark := c, triple := true }, rest')
        else some ({ q with mark := c }, rest)
      | _ => some ({ q with mark := c }, rest)
    else none

/-- What stands at a place, behind the layout in front of it. -/
inductive Token where
  | indent
  | dedent
  | newline
  /-- The opening of a string literal, and the text behind it. -/
  | quote (q : Quote) (body : List Char)
  /-- Some other token, or the end of the text. -/
  | plain

/-- The token that the layout at a place makes, if any. -/
def Cursor.layout (want : Expecting) (cur : Cursor) : Token × Cursor :=
  match gap (want.newline || want.indent || want.dedent) false false 0 none cur.rest with
  | none => (.plain, cur)
  | some g =>
    let block := cur.indents.headD 0
    let startsQuote := match g.rest with
      | c :: _ => isQuoteMark c
      | [] => false
    if g.ended && want.indent && block < g.width then
      (.indent, { cur with indents := g.width :: cur.indents })
    else if g.ended &&
        (want.dedent || (!want.newline && !(want.quote && startsQuote) && !want.close)) &&
        g.width < block && !cur.interpolating && g.comment.all (· < block) then
      (.dedent, { cur with indents := cur.indents.tail })
    else if g.ended && want.newline then (.newline, cur)
    else if g.comment.isNone && want.quote then
      match openQuote { mark := '"' } g.rest with
      | some (q, body) => (.quote q body, { cur with rest := g.rest })
      | none => (.plain, cur)
    else (.plain, cur)

/-- The characters that are skipped in front of any token. -/
def isSpacing (c : Char) : Bool :=
  c = ' ' || c = '\t' || c = '\r' || c = '\n' || c = '\x0B' || c = '\x0C' || c = '\uFEFF' ||
    c = '\u2060' || c = '\u200B'

/-- The next token, with comments and joined lines skipped, and its place. Tokens made from layout
have no width. Each round but the last skips a character. -/
def Cursor.nextWithin (want : Expecting) : Nat → Cursor → Token × Cursor
  | 0, cur => (.plain, cur)
  | fuel + 1, cur =>
    match cur.layout want with
    | (.plain, _) =>
      match cur.rest.dropWhile isSpacing with
      | '#' :: rest => nextWithin want fuel { cur with rest := rest.dropWhile (· ≠ '\n') }
      | '\\' :: '\n' :: rest => nextWithin want fuel { cur with rest }
      | '\\' :: '\r' :: '\n' :: rest => nextWithin want fuel { cur with rest }
      | rest => (.plain, { cur with rest })
    | found => found

/-- The next token and its place. -/
def Cursor.next (want : Expecting) (cur : Cursor) : Token × Cursor :=
  cur.nextWithin want cur.fuel

/-- The place of the next token, if layout makes none in front of it. -/
def Cursor.settle (want : Expecting) (cur : Cursor) : Cursor :=
  match cur.next want with
  | (.plain, found) | (.quote _ _, found) => found
  | _ => cur

/-- Behind the opening of a string literal. -/
def Cursor.enter (q : Quote) (body : List Char) (cur : Cursor) : Cursor :=
  { cur with rest := body, interpolating := q.interpolated }

/-- The start of a text. -/
def Cursor.start (text : List Char) : Cursor := ⟨text, [0], false, text.length⟩

end SnippetAudit.Python
