import SnippetAudit.Python.Layout
import SnippetAudit.Python.Lexeme

/-!
The inside of string literals.

A literal ends at its mark. A backslash protects what follows it, in raw literals no less than in
others. In an interpolated literal a doubled brace stands for itself and a single opening brace
starts an interpolation, which is read by a parser that the caller hands in. A literal with a
single mark may not run over the end of a line, except where the line end is the first thing in
the literal or directly follows an escape or an interpolation.
-/

namespace SnippetAudit.Python

/-- The text at the token where a rule got stuck. -/
abbrev Stuck := List Char

/-- Behind what the backslash in front of `s` protects, when that could otherwise end the literal,
end the line or open an interpolation. -/
def afterEscape (s : List Char) : List Char :=
  match s with
  | '\r' :: '\n' :: rest => rest
  | '\n' :: rest => rest
  | '"' :: rest => rest
  | '\'' :: rest => rest
  | '\\' :: rest => rest
  | 'N' :: '{' :: rest =>
    match rest.dropWhile (· ≠ '}') with
    | '}' :: behind => if rest.head? = some '}' then s else behind
    | _ => s
  | _ => s

/-- Behind what the backslash in front of `s` protects in a raw literal. -/
def afterRawEscape (mark : Char) (s : List Char) : List Char :=
  match skipOne [mark, '\\'] s with
  | '\r' :: '\n' :: rest => rest
  | '\r' :: rest => rest
  | '\n' :: rest => rest
  | rest => rest

/-- Whether a backslash in a bytes literal is followed by a letter that makes an escape in other
literals only. -/
def startsWideEscape : List Char → Bool
  | c :: _ => c = 'N' || c = 'u' || c = 'U'
  | [] => false

/-- Read a literal up to and with its closing mark. `content` tells whether ordinary characters
came directly before. -/
def literalBody (interpolation : Cursor → Except Stuck (Unit × Cursor)) (q : Quote) :
    Nat → Bool → Cursor → Except Stuck (Unit × Cursor)
  | 0, _, cur => .error cur.rest
  | fuel + 1, content, cur =>
    match cur.rest with
    | [] => .error []
    | c :: rest =>
      if q.interpolated && (c = '{' || c = '}') then
        if rest.head? = some c then
          literalBody interpolation q fuel false { cur with rest := rest.drop 1 }
        else if c = '{' then do
          let (_, cur) ← interpolation { cur with rest }
          literalBody interpolation q fuel false cur
        else .error cur.rest
      else if c = '\\' then
        if q.raw then
          literalBody interpolation q fuel content { cur with rest := afterRawEscape q.mark rest }
        else if q.bytes && startsWideEscape rest then
          literalBody interpolation q fuel true { cur with rest := rest.drop 2 }
        else literalBody interpolation q fuel false { cur with rest := afterEscape rest }
      else if c = q.mark then
        if q.triple then
          match rest with
          | c₁ :: rest₁ =>
            if c₁ = q.mark then
              match rest₁ with
              | c₂ :: rest₂ =>
                if c₂ = q.mark then .ok ((), { cur with rest := rest₂, interpolating := false })
                else literalBody interpolation q fuel false { cur with rest := rest₁ }
              | [] => .error []
            else literalBody interpolation q fuel false { cur with rest }
          | [] => .error []
        else .ok ((), { cur with rest, interpolating := false })
      else if c = '\n' && content && !q.triple then .error cur.rest
      else literalBody interpolation q fuel true { cur with rest }

/-- Read a literal whose opening was just passed. -/
def literal (interpolation : Cursor → Except Stuck (Unit × Cursor)) (q : Quote) (cur : Cursor) : Except Stuck (Unit × Cursor) :=
  literalBody interpolation q cur.fuel false cur

end SnippetAudit.Python
