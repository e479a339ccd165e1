import SnippetAudit.Text.Lines
import SnippetAudit.Python.Tree

/-!
Reading a Python module: whether a text is one, and what it imports and defines.

The syntax tree of a text comes from a parser for the grammar (`Reader`), and what a tree says does not depend
on the parser that made it. The grammar reads more than the language has: it still knows `print` and `exec`
statements, so a tree with such a statement is refused, as is one with a node for what could not be read.
-/

namespace SnippetAudit.Python

/-- A position in a source text; both numbers count from one, the column in bytes. -/
structure Place where
  line : Nat
  column : Nat
  deriving DecidableEq, Repr

/-- What a definition defines. -/
inductive DefinitionKind where
  | function
  | classType
  deriving DecidableEq, Repr

/-- A name bound by an import: the dotted name of a module or the name of a member as written, or
`*`, whatever it is renamed to. -/
structure ImportBinding where
  name : String
  line : Nat
  deriving DecidableEq, Repr

/-- A function or class definition. -/
structure Definition where
  kind : DefinitionKind
  name : String
  /-- The line of `def`, `class` or `async`. -/
  line : Nat
  documented : Bool
  deriving DecidableEq, Repr

/-- What is read from a module. Bindings and definitions are listed level by level of the syntax
tree; the lines of imports ascend. -/
structure Module where
  imports : List ImportBinding := []
  definitions : List Definition := []
  importLines : List Nat := []
  deriving DecidableEq, Repr

/-- The statements that the grammar knows and the language has dropped. -/
inductive LegacyStatement where
  | print
  | exec
  deriving DecidableEq, Repr

namespace LegacyStatement

/-- The word that starts such a statement. -/
def word : LegacyStatement → String
  | print => "print"
  | exec => "exec"

/-- The statement that a kind of nodes stands for. -/
def ofKind? (kind : String) : Option LegacyStatement :=
  [print, exec].find? fun statement => kind == statement.word ++ "_statement"

end LegacyStatement

/-- Why a parser makes no tree of a text. -/
inductive NoTree where
  /-- It does not take the grammar. -/
  | grammar (reason : String)
  | stopped
  deriving DecidableEq, Repr

/-- Why a text is no module. -/
inductive SyntaxCause where
  | noTree (cause : NoTree)
  | legacy (statement : LegacyStatement)
  /-- A token is missing. -/
  | missing (lexeme : String)
  /-- The text that cannot be read. -/
  | near (text : String)
  | unreadable
  deriving DecidableEq, Repr

/-- Where and why a text is no module; without a tree the place is zero. -/
structure SyntaxError where
  place : Place
  cause : SyntaxCause
  deriving DecidableEq, Repr

/-- The wording of a cause. -/
def SyntaxCause.message : SyntaxCause → String
  | noTree (.grammar reason) => "Failed to set Python language: " ++ reason
  | noTree .stopped => "Failed to parse Python source"
  | legacy statement => "invalid syntax: Python 2 " ++ statement.word ++ " statement"
  | missing lexeme => "invalid syntax: missing '" ++ lexeme ++ "'"
  | near text => "invalid syntax near '" ++ text ++ "'"
  | unreadable => "invalid syntax"

/-- The wording of an error, with its position. -/
def SyntaxError.message (e : SyntaxError) : String :=
  e.cause.message ++ " (line " ++ toString e.place.line ++ ", column " ++ toString e.place.column ++ ")"

/-! ### What a tree says -/

namespace Node

/-- Where a node starts. -/
def place (n : Node) : Place := ⟨n.row + 1, n.label.column + 1⟩

/-- Whether a node is an import that binds names. -/
def isImport (n : Node) : Bool := n.kind == "import_statement" || n.kind == "import_from_statement"

/-- Whether a node is a definition. -/
def isDefinition (n : Node) : Bool := n.kind == "function_definition" || n.kind == "class_definition"

/-- The node of the name that is imported, which may be renamed. -/
def imported? (n : Node) : Option Node := if n.kind == "aliased_import" then n.childBy? "name" else some n

/-- The names that an import binds, as they are written. -/
def importedNames (code : String) (n : Node) : List String :=
  (n.childrenBy "name").filterMap (fun name => name.imported?.bind (·.text? code)) ++
    if n.kind == "import_from_statement" && n.children.any (·.kind == "wildcard_import") then ["*"] else []

/-- The first statement of a block; comments are none. -/
def firstStatement? (body : Node) : Option Node := body.namedChildren.find? (·.kind != "comment")

/-- Whether a statement is nothing but a text. -/
def isDocumentation (n : Node) : Bool :=
  n.kind == "expression_statement" &&
    n.namedChildren.head?.any fun value => value.kind == "string" || value.kind == "concatenated_string"

/-- Whether a block begins with documentation. -/
def startsWithDocumentation (body : Node) : Bool := body.firstStatement?.any isDocumentation

/-- What a definition defines, if it has a name. -/
def definition? (code : String) (n : Node) : Option Definition := do
  let name ← (← n.childBy? "name").text? code
  some {
    kind := if n.kind == "class_definition" then .classType else .function
    name
    line := n.row + 1
    documented := (n.childBy? "body").any startsWithDocumentation }

end Node

/-- Insert a number before the first that is not smaller. -/
def insertAscending (n : Nat) : List Nat → List Nat
  | [] => [n]
  | m :: ms => if n ≤ m then n :: m :: ms else m :: insertAscending n ms

/-- The numbers of a list in ascending order. -/
def ascending : List Nat → List Nat
  | [] => []
  | n :: ns => insertAscending n (ascending ns)

/-- The bindings of the imports among some nodes. -/
def importBindings (code : String) (nodes : List Node) : List ImportBinding :=
  (nodes.filter (·.isImport)).flatMap fun n => (n.importedNames code).map (⟨·, n.row + 1⟩)

/-- The definitions among some nodes. -/
def definitionsOf (code : String) (nodes : List Node) : List Definition :=
  (nodes.filter (·.isDefinition)).filterMap (·.definition? code)

/-- The lines of the imports among some nodes. -/
def importLinesOf (nodes : List Node) : List Nat := (nodes.filter (·.isImport)).map (·.row + 1)

namespace Node

/-- What the syntax tree of a text says about the module. -/
def toModule (code : String) (root : Node) : Module :=
  let nodes := root.walk
  ⟨importBindings code nodes, definitionsOf code nodes, ascending (importLinesOf nodes)⟩

/-- The first statement of a tree, in the order of the text, that the language has dropped. -/
def legacy? (root : Node) : Option (LegacyStatement × Place) :=
  root.preorder.findSome? fun n => (LegacyStatement.ofKind? n.kind).map (·, n.place)

/-- What is wrong with a text, at the first node for what could not be read. -/
def syntaxError (code : String) (root : Node) : SyntaxError :=
  let n := (root.preorder.find? isFlawed).getD root
  let shown := Text.trim ((Text.lines ((n.text? code).getD "")).headD "")
  ⟨n.place, if n.label.missing then .missing n.kind else if shown.isEmpty then .unreadable else .near shown⟩

end Node

/-! ### Readers -/

/-- A parser: the syntax tree that it makes of a text. -/
abbrev Reader := String → Except NoTree Node

namespace Reader

variable (read : Reader)

/-- The syntax tree of a text that is a module. -/
def tree (code : String) : Except SyntaxError Node :=
  match read code with
  | .error cause => .error ⟨⟨0, 0⟩, .noTree cause⟩
  | .ok root =>
    if root.hasError then .error (root.syntaxError code)
    else match root.legacy? with
      | some (statement, place) => .error ⟨place, .legacy statement⟩
      | none => .ok root

/-- The module that a text is read as. -/
def parse (code : String) : Except SyntaxError Module := (read.tree code).map (·.toModule code)

/-- Whether a text is read as a module, and if not, why. -/
def check (code : String) : Except SyntaxError Unit := (read.tree code).map fun _ => ()

/-- What is known of a text: nothing if it cannot be read. -/
def outline (code : String) : Module :=
  match read.parse code with
  | .ok m => m
  | .error _ => {}

end Reader

end SnippetAudit.Python
