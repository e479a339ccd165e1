import SnippetAudit.Toml.Lexeme

/-!
TOML documents.

A document becomes an object. Every table may be written in one place only, be it under a header,
as an inline table, or by dotted keys; tables on the way to one that is written do not count.
-/

namespace SnippetAudit.Toml

/-! ### Tables under construction -/

/-- How a table came about. -/
inductive Origin where
  /-- It is on the way to a table with a header. -/
  | passed
  /-- It is on the way to a dotted key. -/
  | dotted
  /-- It was written, and is complete where it stands. -/
  | written
  deriving DecidableEq

/-- What a key stands for. -/
inductive Item where
  | value (j : Json)
  | table (origin : Origin) (entries : List (String × Item))
  /-- Tables with a header of two brackets; the first one is the last written. -/
  | tables (elements : List (List (String × Item)))

/-- The entries of a table. -/
abbrev Entries := List (String × Item)

/-- Set the item of a key. -/
def put (key : String) (item : Item) : Entries → Entries
  | [] => [(key, item)]
  | (k, i) :: rest => if k == key then (key, item) :: rest else (k, i) :: put key item rest

/-- Change the table that a path of keys leads to from `entries`. Tables that are missing on the way
are made with the given origin. Dotted keys do not lead into tables that were written. -/
def modifyAt (origin : Origin) (change : Origin → Entries → Option Entries) :
    List String → Origin → Entries → Option Entries
  | [], own, entries => change own entries
  | key :: path, _, entries =>
    match entries.lookup key with
    | none => do
      let inner ← modifyAt origin change path origin []
      some (put key (.table origin inner) entries)
    | some (.value _) => none
    | some (.table own inner) =>
      if origin == .dotted && own == .written then none
      else do
        let inner ← modifyAt origin change path own inner
        some (put key (.table own inner) entries)
    | some (.tables (last :: others)) => do
      let last ← modifyAt origin change path .written last
      some (put key (.tables (last :: others)) entries)
    | some (.tables []) => none

/-- Enter the value of a dotted key into a table. -/
def assign (path : List String) (key : String) (item : Item) (entries : Entries) : Option Entries :=
  modifyAt .dotted
    (fun own inner =>
      if (own == .dotted) == path.isEmpty || (inner.lookup key).isSome then none
      else some (put key item inner))
    path .written entries

/-- Start the table with a given header. -/
def openTable (path : List String) (key : String) (entries : Entries) : Option Entries :=
  modifyAt .passed
    (fun _ inner =>
      match inner.lookup key with
      | none => some (put key (.table .written []) inner)
      | some (.table .passed kept) => some (put key (.table .written kept) inner)
      | _ => none)
    path .written entries

/-- Start the next table with a given header of two brackets. -/
def openElement (path : List String) (key : String) (entries : Entries) : Option Entries :=
  modifyAt .passed
    (fun _ inner =>
      match inner.lookup key with
      | none => some (put key (.tables [[]]) inner)
      | some (.tables elements) => some (put key (.tables ([] :: elements)) inner)
      | _ => none)
    path .written entries

/-- Change the table that a header leads to. -/
def within (change : Entries → Option Entries) : List String → Entries → Option Entries
  | [], entries => change entries
  | key :: path, entries =>
    match entries.lookup key with
    | some (.table own inner) => do
      let inner ← within change path inner
      some (put key (.table own inner) entries)
    | some (.tables (last :: others)) => do
      let last ← within change path last
      some (put key (.tables (last :: others)) entries)
    | _ => none

mutual

/-- An item as it is in the finished document. -/
def Item.toJson : Item → Json
  | .value j => j
  | .table _ entries => .object (entriesToJson entries)
  | .tables elements => .array (elementsToJson elements).reverse

/-- Entries as they are in the finished document. -/
def entriesToJson : List (String × Item) → List (String × Json)
  | [] => []
  | (key, item) :: rest => (key, item.toJson) :: entriesToJson rest

/-- Tables as they are in the finished document. -/
def elementsToJson : List (List (String × Item)) → List Json
  | [] => []
  | entries :: rest => .object (entriesToJson entries) :: elementsToJson rest

end

/-! ### Keys and values -/

/-- Whether a character may stand in a key without quotation marks. -/
def isKeyChar (c : Char) : Bool :=
  ('a' ≤ c && c ≤ 'z') || ('A' ≤ c && c ≤ 'Z') || ('0' ≤ c && c ≤ '9') || c = '_' || c = '-'

/-- One part of a key. -/
def keyPart (s : List Char) : Option (String × List Char) :=
  match s with
  | '"' :: _ | '\'' :: _ => lineText s
  | _ =>
    let name := s.takeWhile isKeyChar
    if name.isEmpty then none else some (String.ofList name, s.drop name.length)

/-- The most parts of a key, and the most arrays and inline tables around a value. -/
def depthLimit : Nat := 79

/-- A key: parts joined by points, with blanks around each. -/
def keyParts : Nat → List Char → Option (List String × List Char)
  | 0, _ => none
  | fuel + 1, s => do
    let (part, s) ← keyPart (skipSpace s)
    match skipSpace s with
    | '.' :: rest =>
      let (parts, rest) ← keyParts fuel rest
      some (part :: parts, rest)
    | rest => some ([part], rest)

/-- A key, as its path and its last part. -/
def key (s : List Char) : Option ((List String × String) × List Char) := do
  let (parts, rest) ← keyParts depthLimit s
  some ((parts.dropLast, parts.getLastD ""), rest)

/-- Behind blanks, line ends and comments. -/
def skipGaps : Nat → List Char → Option (List Char)
  | 0, s => some s
  | fuel + 1, s =>
    match skipSpace s with
    | '#' :: rest =>
      let behind := rest.dropWhile isPrintable
      match behind with
      | [] => some []
      | _ => (afterNewline? behind).bind (skipGaps fuel)
    | rest =>
      match afterNewline? rest with
      | some rest => skipGaps fuel rest
      | none => some rest

/-- Items of an array behind its opening bracket or a comma, up to the closing bracket. -/
def items (value : List Char → Option (Json × List Char)) : Nat → List Char → Option (List Json × List Char)
  | 0, _ => none
  | fuel + 1, s => do
    match ← skipGaps s.length s with
    | ']' :: rest => some ([], rest)
    | s =>
      let (first, s) ← value s
      match ← skipGaps s.length s with
      | ']' :: rest => some ([first], rest)
      | ',' :: rest =>
        let (others, rest) ← items value fuel rest
        some (first :: others, rest)
      | _ => none

/-- Entries of an inline table behind its opening brace or a comma, up to the closing brace. -/
def inlineEntries (value : List Char → Option (Json × List Char)) :
    Nat → Entries → List Char → Option (Entries × List Char)
  | 0, _, _ => none
  | fuel + 1, entries, s => do
    let ((path, last), s) ← key s
    match s with
    | '=' :: s =>
      let (j, s) ← value (skipSpace s)
      let entries ← assign path last (.value j) entries
      match skipSpace s with
      | '}' :: rest => some (entries, rest)
      | ',' :: rest => inlineEntries value fuel entries rest
      | _ => none
    | _ => none

/-- A value inside of at most `depth` more arrays and inline tables. -/
def value : Nat → List Char → Option (Json × List Char)
  | depth, s =>
    match s with
    | '[' :: rest =>
      match depth with
      | 0 => none
      | depth + 1 => (items (value depth) (rest.length + 1) rest).map fun (js, rest) => (.array js, rest)
    | '{' :: rest =>
      match depth with
      | 0 => none
      | depth + 1 =>
        match skipSpace rest with
        | '}' :: rest => some (.object [], rest)
        | _ => (inlineEntries (value depth) (rest.length + 1) [] rest).map fun (entries, rest) =>
          (.object (entriesToJson entries), rest)
    | _ => scalar s

/-! ### Documents -/

/-- A document in the course of reading: its entries and the header that applies. -/
structure Draft where
  entries : Entries
  header : List String

/-- Behind the end of a line that holds nothing more than a comment. -/
def endLine (s : List Char) : Option (List Char) :=
  let s := match skipSpace s with
    | '#' :: rest => rest.dropWhile isPrintable
    | rest => rest
  match s with
  | [] => some []
  | _ => afterNewline? s

/-- Read one line. -/
def line (draft : Draft) (s : List Char) : Option (Draft × List Char) :=
  match s with
  | '[' :: '[' :: rest => do
    let ((path, last), rest) ← key rest
    match rest with
    | ']' :: ']' :: rest =>
      some (⟨← openElement path last draft.entries, path ++ [last]⟩, ← endLine rest)
    | _ => none
  | '[' :: rest => do
    let ((path, last), rest) ← key rest
    match rest with
    | ']' :: rest => some (⟨← openTable path last draft.entries, path ++ [last]⟩, ← endLine rest)
    | _ => none
  | '#' :: _ | '\n' :: _ | '\r' :: _ => (endLine s).map (draft, ·)
  | _ => do
    let ((path, last), rest) ← key s
    match rest with
    | '=' :: rest =>
      let (j, rest) ← value depthLimit (skipSpace rest)
      let entries ← within (assign path last (.value j)) draft.header draft.entries
      some ({ draft with entries }, ← endLine rest)
    | _ => none

/-- Read lines up to the end. -/
def document : Nat → Draft → List Char → Option Draft
  | 0, _, _ => none
  | fuel + 1, draft, s =>
    match skipSpace s with
    | [] => some draft
    | s => do
      let (draft, s) ← line draft s
      document fuel draft s

/-- The document that a text stands for. -/
def parse? (text : String) : Option Json :=
  let s := match text.toList with
    | '\uFEFF' :: rest => rest
    | s => s
  (document (s.length + 1) ⟨[], []⟩ s).map fun draft => .object (entriesToJson draft.entries)

end SnippetAudit.Toml
