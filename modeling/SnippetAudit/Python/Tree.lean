import SnippetAudit.Text.Slice

/-!
Syntax trees, as a parser for the grammar of the language hands them over.

A node has a kind, which is a word of the grammar, and a range of the text. Which node it is to its parent is
said by a field of the parent, again a word of the grammar. `Node.walk` lists the nodes of a tree level by
level.
-/

namespace SnippetAudit.Python

/-- What a parser says of a node. Offsets, rows and columns count from zero; offsets and columns count
bytes. -/
structure Label where
  kind : String
  /-- Whether the grammar has a rule for the node; a token that it writes out has none. -/
  named : Bool := true
  /-- The field of the parent that the node fills. -/
  field : Option String := none
  /-- Whether the parser put the node in for one that the text lacks. -/
  missing : Bool := false
  start : Nat
  /-- The offset behind the node. -/
  stop : Nat
  row : Nat
  column : Nat
  deriving DecidableEq, Repr

/-- A node with its children in the order of the text. -/
inductive Node where
  | node (label : Label) (children : List Node)

namespace Node

def label : Node → Label
  | node label _ => label

def children : Node → List Node
  | node _ children => children

def kind (n : Node) : String := n.label.kind

def start (n : Node) : Nat := n.label.start

def row (n : Node) : Nat := n.label.row

/-- The text in the range of a node. -/
def text? (code : String) (n : Node) : Option String :=
  (Text.bytes? n.start n.label.stop code.toList).map String.ofList

/-- The children that fill a field. -/
def childrenBy (field : String) (n : Node) : List Node := n.children.filter (·.label.field = some field)

/-- The first child that fills a field. -/
def childBy? (field : String) (n : Node) : Option Node := (n.childrenBy field).head?

/-- The children that the grammar has a rule for. -/
def namedChildren (n : Node) : List Node := n.children.filter (·.label.named)

/-- Whether a node stands for what could not be read: skipped text or something missing. -/
def isFlawed (n : Node) : Bool := n.kind == "ERROR" || n.label.missing

mutual

/-- Number of nodes of a tree. -/
def size : Node → Nat
  | node _ children => sizes children + 1

/-- Number of nodes of several trees. -/
def sizes : List Node → Nat
  | [] => 0
  | n :: ns => size n + sizes ns

end

/-- Take nodes from the front of a queue, and add the children of each at the back; `fuel` bounds
how many are taken. -/
def visit : Nat → List Node → List Node
  | 0, _ => []
  | _ + 1, [] => []
  | fuel + 1, n :: queue => n :: visit fuel (queue ++ n.children)

/-- The nodes of a tree, level by level and each level from left to right. -/
def walk (root : Node) : List Node := visit root.size [root]

mutual

/-- The nodes of a tree in the order of the text. -/
def preorder : Node → List Node
  | node label children => node label children :: preorders children

/-- The nodes of several trees in the order of the text. -/
def preorders : List Node → List Node
  | [] => []
  | n :: ns => preorder n ++ preorders ns

end

/-- Whether something in a text could not be read. -/
def hasError (root : Node) : Bool := root.preorder.any isFlawed

end Node

end SnippetAudit.Python
