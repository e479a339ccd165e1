import SnippetAudit.Proofs.Python.Walk
import SnippetAudit.Proofs.Text.Lines
import SnippetAudit.Proofs.Text.Search
import SnippetAudit.Proofs.Text.Slice

/-!
Where the nodes of a syntax tree stand in the text.

A node starts at a place of the text if as many bytes are in front of the place as its offset says, and as many
newlines as its row (`Node.Starts`). The row is then the index of the line that the place is on, so a name
without newlines is on the line in the row of its node (`Node.Starts.exists_contains`).

`Reader.Sites` says what is taken of a parser: that it gives nodes such places, that nodes cover their children,
and that the wildcard of an import is written as a star.
-/

namespace SnippetAudit.Python

open Text

/-- A node starts with a rest of the text. -/
def Node.Starts (code : String) (n : Node) (rest : List Char) : Prop :=
  ∃ before, code.toList = before ++ rest ∧ byteLength before = n.start ∧ before.count '\n' = n.row

/-- What a parser keeps to when it gives nodes their places. -/
structure Reader.Sites (read : Reader) : Prop where
  /-- A node starts at a character, and its row counts the newlines in front. -/
  starts : ∀ code root, read.tree code = .ok root → ∀ n ∈ root.walk, ∃ rest, n.Starts code rest
  /-- A node covers its children, so none starts in front of it. -/
  covers : ∀ code root, read.tree code = .ok root → ∀ n ∈ root.walk, ∀ m ∈ n.children, n.start ≤ m.start
  /-- By the rule of the grammar a wildcard is a star. -/
  star : ∀ code root, read.tree code = .ok root → ∀ n ∈ root.walk, n.kind = "wildcard_import" →
    n.text? code = some "*"

section Starts

variable {code : String} {n m : Node} {rest rest' : List Char} {name : String}

theorem Node.Starts.suffix (h : n.Starts code rest) : rest <:+ code.toList := by
  obtain ⟨before, whole, -⟩ := h
  exact ⟨before, whole.symm⟩

/-- A node starts at one place. -/
theorem Node.Starts.unique (h : n.Starts code rest) (h' : n.Starts code rest') : rest = rest' := by
  obtain ⟨before, whole, offset, -⟩ := h
  obtain ⟨before', whole', offset', -⟩ := h'
  exact (append_inj_of_byteLength (whole ▸ whole') (offset.trans offset'.symm)).2

/-- Rows go up towards the end of a text. -/
theorem Node.Starts.row_le (h : n.Starts code rest) (h' : m.Starts code rest') (behind : n.start ≤ m.start) :
    n.row ≤ m.row := by
  obtain ⟨before, whole, offset, row⟩ := h
  obtain ⟨before', whole', offset', row'⟩ := h'
  have inside : before <+: before' := by
    rcases List.prefix_or_prefix_of_prefix ⟨rest, whole.symm⟩ ⟨rest', whole'.symm⟩ with above | below
    · exact above
    · obtain ⟨between, rfl⟩ := below
      have bytes := byteLength_append before' between
      have short := length_le_byteLength between
      obtain rfl : between = [] := List.length_eq_zero_iff.mp (by omega)
      simp
  rw [← row, ← row']
  exact inside.sublist.count_le '\n'

/-- **A node is on the line in its row**, behind the lines above and the front of that line, and in front of
the rest of it and the lines below. -/
theorem Node.Starts.exists_line (h : n.Starts code rest) :
    ∃ front back, (lines code)[n.row]? = some (String.ofList (front ++ back)) ∧
      code.toList = endedLines ((lines code).take n.row) ++ (front ++ rest) ∧
      rest = back ++ begunLines ((lines code).drop (n.row + 1)) := by
  obtain ⟨before, whole, -, row⟩ := h
  obtain ⟨front, back, here, above, below⟩ := exists_line_of_append whole.symm
  rw [row] at here above below
  refine ⟨front, back, here, ?_, below⟩
  rw [whole, ← List.append_assoc, ← above]

/-- The text of a node stands where the node starts. -/
theorem Node.Starts.isPrefix (h : n.Starts code rest) (text : n.text? code = some name) :
    name.toList <+: rest := by
  obtain ⟨before, whole, offset, -⟩ := h
  obtain ⟨cs, found, rfl⟩ := Option.map_eq_some_iff.mp text
  obtain ⟨before', behind, whole', offset', -⟩ := bytes?_eq_some_iff.mp found
  obtain ⟨-, rfl⟩ := append_inj_of_byteLength (whole ▸ whole') (offset.trans offset'.symm)
  rw [String.toList_ofList]
  exact List.prefix_append _ _

/-- **A name without newlines is on the line in the row of its node.** -/
theorem Node.Starts.exists_contains (h : n.Starts code rest) (text : n.text? code = some name)
    (clean : IsLine name) : ∃ line, (lines code)[n.row]? = some line ∧ contains name line = true := by
  obtain ⟨front, back, found, -, whole⟩ := h.exists_line
  have here := h.isPrefix text
  rw [whole] at here
  have inside := isPrefix_of_isPrefix_append_begunLines clean here
  refine ⟨_, found, ?_⟩
  rw [contains_iff, String.toList_ofList]
  exact inside.isInfix.trans (List.suffix_append front back).isInfix

end Starts

/-! ### Imported names -/

/-- The node of a name that an import binds. -/
inductive Node.Binds (n : Node) : Node → Prop where
  | name {child m : Node} : child ∈ n.childrenBy "name" → child.imported? = some m → n.Binds m
  | wildcard {m : Node} : n.kind = "import_from_statement" → m ∈ n.children → m.kind = "wildcard_import" →
      n.Binds m

section Binds

variable {read : Reader} {code name : String} {root n m : Node}

theorem Node.mem_children_of_mem_childrenBy {field : String} (mem : m ∈ n.childrenBy field) :
    m ∈ n.children :=
  List.mem_of_mem_filter mem

theorem Node.mem_children_of_childBy? {field : String} (found : n.childBy? field = some m) :
    m ∈ n.children :=
  mem_children_of_mem_childrenBy (List.mem_of_head? found)

/-- The name of a renamed import is a node in the one of the import, and any other is that node itself. -/
theorem Node.eq_or_mem_of_imported? (found : n.imported? = some m) : m = n ∨ m ∈ n.children := by
  unfold imported? at found
  split at found
  · exact .inr (mem_children_of_childBy? found)
  · exact .inl (Option.some.inj found).symm

variable (sites : read.Sites) (tree : read.tree code = .ok root) (mem : n ∈ root.walk)

include sites tree mem

/-- **The name that an import binds is the text of a node.** -/
theorem exists_binds_of_mem_importedNames (listed : name ∈ n.importedNames code) :
    ∃ m, n.Binds m ∧ m.text? code = some name := by
  rcases List.mem_append.mp listed with named | star
  · obtain ⟨child, field, found⟩ := List.mem_filterMap.mp named
    obtain ⟨m, imported, text⟩ := Option.bind_eq_some_iff.mp found
    exact ⟨m, .name field imported, text⟩
  · split at star
    next any =>
      rw [Bool.and_eq_true, beq_iff_eq, List.any_eq_true] at any
      obtain ⟨kind, m, child, wildcard⟩ := any
      have wildcard := eq_of_beq wildcard
      rw [List.mem_singleton.mp star]
      exact ⟨m, .wildcard kind child wildcard,
        sites.star code root tree m (Node.mem_walk_of_mem_children mem child) wildcard⟩
    next => cases star

/-- A name that an import binds does not stand in front of the import. -/
theorem start_le_of_binds (binds : n.Binds m) : m ∈ root.walk ∧ n.start ≤ m.start := by
  have below {k l : Node} (inside : k ∈ root.walk) (child : l ∈ k.children) :
      l ∈ root.walk ∧ k.start ≤ l.start :=
    ⟨Node.mem_walk_of_mem_children inside child, sites.covers code root tree k inside l child⟩
  cases binds with
  | @name child m field imported =>
    have outer := below mem (Node.mem_children_of_mem_childrenBy field)
    rcases Node.eq_or_mem_of_imported? imported with rfl | inner
    · exact outer
    · have inner := below outer.1 inner
      exact ⟨inner.1, outer.2.trans inner.2⟩
  | wildcard _ child _ => exact below mem child

end Binds

end SnippetAudit.Python
