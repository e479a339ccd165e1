import SnippetAudit.Json.Record

/-!
The style of one snippet, as a handful of traits.
-/

namespace SnippetAudit.Style

/-- The prevailing shape of names. -/
inductive Naming where
  | snakeCase
  | camelCase
  | pascalCase
  | mixed
  | unknown
  deriving DecidableEq, Repr

namespace Naming

/-- The values in the order of their declaration. -/
def all : List Naming := [snakeCase, camelCase, pascalCase, mixed, unknown]

/-- The word for a value. -/
def name : Naming → String
  | snakeCase => "snake_case"
  | camelCase => "camelCase"
  | pascalCase => "PascalCase"
  | mixed => "mixed"
  | unknown => "unknown"

instance : Json.Coded Naming where
  encode n := .string n.name
  decode := Json.ofWord name all

end Naming

/-- What lines are indented with. -/
inductive IndentKind where
  | spaces
  | tabs
  deriving DecidableEq, Repr

namespace IndentKind

/-- The values in the order of their declaration. -/
def all : List IndentKind := [spaces, tabs]

/-- The word for a value. -/
def name : IndentKind → String
  | spaces => "spaces"
  | tabs => "tabs"

instance : Json.Coded IndentKind where
  encode k := .string k.name
  decode := Json.ofWord name all

end IndentKind

/-- The unit of indentation. -/
structure Indentation where
  kind : IndentKind := .spaces
  size : Nat := 4
  deriving DecidableEq, Repr

namespace Indentation

/-- An indentation in words. -/
def display (i : Indentation) : String := i.kind.name ++ " (" ++ toString i.size ++ ")"

instance : Json.Coded Indentation where
  encode i := .object [("type", Json.encode i.kind), ("size", Json.encode i.size)]
  decode j := do
    let r ← Json.row? ["type", "size"] j
    some { kind := ← r.required "type", size := ← r.required "size" }

end Indentation

/-- The prevailing quotation marks. -/
inductive Quotes where
  | single
  | double
  | mixed
  deriving DecidableEq, Repr

namespace Quotes

/-- The values in the order of their declaration. -/
def all : List Quotes := [single, double, mixed]

/-- The word for a value. -/
def name : Quotes → String
  | single => "single"
  | double => "double"
  | mixed => "mixed"

instance : Json.Coded Quotes where
  encode q := .string q.name
  decode := Json.ofWord name all

end Quotes

/-- Where comments stand. -/
inductive Comments where
  | above
  | inline
  | docstring
  | mixed
  | unknown
  deriving DecidableEq, Repr

namespace Comments

/-- The values in the order of their declaration. -/
def all : List Comments := [above, inline, docstring, mixed, unknown]

/-- The word for a value. -/
def name : Comments → String
  | above => "above"
  | inline => "inline"
  | docstring => "docstring"
  | mixed => "mixed"
  | unknown => "unknown"

instance : Json.Coded Comments where
  encode c := .string c.name
  decode := Json.ofWord name all

end Comments

/-- How imports are laid out. -/
inductive Imports where
  | none
  | single
  | grouped
  | scattered
  | es6
  | unknown
  deriving DecidableEq, Repr

namespace Imports

/-- The values in the order of their declaration. -/
def all : List Imports := [none, single, grouped, scattered, es6, unknown]

/-- The word for a value. -/
def name : Imports → String
  | none => "none"
  | single => "single"
  | grouped => "grouped"
  | scattered => "scattered"
  | es6 => "es6"
  | unknown => "unknown"

instance : Json.Coded Imports where
  encode i := .string i.name
  decode := Json.ofWord name all

end Imports

/-- The style of a snippet. -/
structure Patterns where
  naming : Naming
  indentation : Indentation
  quotes : Quotes
  /-- The mean number of characters of the lines that are not blank, rounded down. -/
  lineLength : Nat
  comments : Comments
  imports : Imports
  deriving DecidableEq, Repr

instance : Json.Coded Patterns where
  encode p := .object [
    ("naming_convention", Json.encode p.naming), ("indentation", Json.encode p.indentation),
    ("quote_style", Json.encode p.quotes), ("average_line_length", Json.encode p.lineLength),
    ("comment_style", Json.encode p.comments), ("import_style", Json.encode p.imports)]
  decode j := do
    let r ← Json.row? ["naming_convention", "indentation", "quote_style", "average_line_length",
      "comment_style", "import_style"] j
    some {
      naming := ← r.required "naming_convention"
      indentation := ← r.required "indentation"
      quotes := ← r.required "quote_style"
      lineLength := ← r.required "average_line_length"
      comments := ← r.required "comment_style"
      imports := ← r.required "import_style" }

end SnippetAudit.Style
