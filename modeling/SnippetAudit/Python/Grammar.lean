import SnippetAudit.Python.Module
import SnippetAudit.Python.Statement

/-!
A reader for the grammar of the language.

A text that is not read to its end has a tree as well: one node for the fault, in place of all statements.
-/

namespace SnippetAudit.Python

/-- Whether the grammar reads a text. -/
def readable (text : List Char) : Bool := (Source.ofText text).tree.isOk

/-- The characters of the token that starts here. -/
def tokenText (s : List Char) : List Char :=
  match word? s with
  | some (w, _) => w.toList
  | none =>
    match number? s with
    | some rest => s.take (s.length - rest.length)
    | none => s.take 1

/-- The node for a fault. If a closing parenthesis in front of the token makes the text readable, that is
missing. If the text is readable without the token, and the token starts the statement or does not end its
line, the token is skipped, and otherwise the first line of the statement. -/
def Fault.node (source : List Char) (fault : Fault) : Node :=
  let before := frontOf source fault.stuck
  let kept := (before.reverse.dropWhile isSpacing).reverse
  let token := tokenText fault.stuck
  let behind := fault.stuck.drop token.length
  let endsLine := match behind.dropWhile (· = ' ') with
    | c :: _ => c = '\n' || c = '\r'
    | [] => true
  if fault.stuck.head? = some ':' && readable (kept ++ ')' :: fault.stuck) then
    let place := source.drop kept.length
    match tokenOf source ")" place place with
    | .node label children => .node { label with missing := true } children
  else if !token.isEmpty && readable (before ++ behind) &&
      (!endsLine || fault.stuck.length == fault.statement.length) then
    nodeOf source "ERROR" fault.stuck behind []
  else nodeOf source "ERROR" fault.statement (fault.statement.dropWhile (· ≠ '\n')) []

/-- The syntax tree of a text. -/
def readTree : Reader := fun code =>
  let source := code.toList
  .ok (match (Source.ofText source).tree with
    | .ok root => root
    | .error fault => nodeOf source "module" source [] [fault.node source])

/-- Read a module. -/
def parse : String → Except SyntaxError Module := Reader.parse readTree

/-- Whether a text is a module, and if not, why. -/
def check : String → Except SyntaxError Unit := Reader.check readTree

end SnippetAudit.Python
