import SnippetAudit.Text.Lines
import SnippetAudit.Text.Lower
import SnippetAudit.Text.Search
import SnippetAudit.Json.Record

/-!
The languages a snippet can be written in, and guessing the language of a text.

Guessing looks for fragments of text in a fixed order, so the first group of fragments that occurs
decides; a text with none of them counts as Python.
-/

namespace SnippetAudit

/-- Languages of snippets. -/
inductive Language where
  | python
  | javascript
  | typescript
  | java
  | cpp
  deriving DecidableEq, Repr

namespace Language

/-- The languages in the order of their declaration. -/
def all : List Language := [python, javascript, typescript, java, cpp]

/-- The name of a language. -/
def name : Language → String
  | python => "python"
  | javascript => "javascript"
  | typescript => "typescript"
  | java => "java"
  | cpp => "cpp"

/-- Whether a language shares its linter, patterns and fixes with JavaScript. -/
def isScript : Language → Bool
  | javascript | typescript => true
  | _ => false

instance : Json.Coded Language where
  encode l := .string l.name
  decode := Json.ofWord name all

/-- The language that a file extension, written without its dot, stands for. -/
def ofExtension? (extension : String) : Option Language :=
  if ["py", "pyw", "pyi"].contains extension then some python
  else if ["js", "jsx", "mjs", "cjs"].contains extension then some javascript
  else if ["ts", "tsx"].contains extension then some typescript
  else if extension == "java" then some java
  else if ["cpp", "cc", "cxx", "hpp", "hh", "hxx"].contains extension then some cpp
  else none

/-- A name that is no language's, in lower case and without blanks around it. -/
structure UnknownName where
  name : String
  deriving DecidableEq, Repr

/-- The wording of the error. -/
def UnknownName.message (e : UnknownName) : String :=
  "Unknown language '" ++ e.name ++ "'. Valid languages: " ++ String.intercalate ", " (all.map Language.name)

/-- The language with a given name, whatever its case and the blanks around it. -/
def ofName (text : String) : Except UnknownName Language :=
  let lowered := Text.lower (Text.trim text)
  match all.find? (·.name == lowered) with
  | some l => .ok l
  | none => .error ⟨lowered⟩

/-- Guess the language of a text from fragments that occur in it. -/
def guess (code : String) : Language :=
  let has (fragment : String) : Bool := Text.contains fragment code
  if has "def " || has "import " || (has "class " && has ":") then python
  else if has "function " || has "const " || has "let " || has "var " then
    if has "interface " || (has ": " && has "=>") then typescript else javascript
  else if has "public class " || has "private " || has "void main" then java
  else if has "#include" || has "std::" || has "cout" then cpp
  else python

/-- The language of a text: the one that a hint names, or else a guess. -/
def detect (code : String) (hint : Option String) : Language :=
  match hint.map ofName with
  | some (.ok l) => l
  | _ => guess code

end Language

end SnippetAudit
