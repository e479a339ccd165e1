import SnippetAudit.Proofs.Fix.UnusedImport
import SnippetAudit.Proofs.Python.Grammar

/-!
Which line is deleted for an unused import.

The names of an import are looked for on all lines, but the line that is deleted is the one that the
statement starts on. The name need not be there: an import may go on over several lines. So the only line
that the name is on is deleted exactly if the name stands in the row of the first word of its statement
(`removal_deletes_line_of_name_iff`). This holds for every parser that gives nodes their places
(`Python.Reader.Sites`).
-/

namespace SnippetAudit.Fix

open Text Battery

/-- Only one line of a text passes a test that one line passes. -/
theorem eq_of_countP_eq_one {α : Type} {p : α → Bool} {ls : List α} (once : ls.countP p = 1) {i j : Nat}
    {a b : α} (here : ls[i]? = some a) (passes : p a = true) (there : ls[j]? = some b)
    (passes' : p b = true) : i = j := by
  obtain ⟨pre, post, rfl, rfl⟩ := Finding.getElem?_eq_some_iff_append.mp here
  rw [List.countP_append, List.countP_cons_of_pos passes] at once
  have above : pre.countP p = 0 := by omega
  have below : post.countP p = 0 := by omega
  rw [List.countP_eq_zero] at above below
  obtain smaller | same | larger := Nat.lt_trichotomy j pre.length
  · rw [List.getElem?_append_left smaller] at there
    exact absurd passes' (above b (List.mem_of_getElem? there))
  · exact same.symm
  · rw [List.getElem?_append_right (Nat.le_of_lt larger)] at there
    obtain ⟨k, index⟩ := Nat.exists_eq_add_of_lt larger
    rw [index, show pre.length + k + 1 - pre.length = k + 1 by omega, List.getElem?_cons_succ] at there
    exact absurd passes' (below b (List.mem_of_getElem? there))

/-- A name that some line of a text has is on a single line. -/
theorem isLine_of_unused {code : String} {b : Python.ImportBinding} (once : Unused code b) :
    IsLine b.name := by
  have some : 0 < (lines code).countP (contains b.name) := by rw [once]; exact Nat.one_pos
  obtain ⟨line, mem, found⟩ := List.countP_pos_iff.mp some
  exact fun newline => isLine_of_mem_lines mem ((contains_iff.mp found).subset newline)

/-- An unused import is on the line in the row of its name, and on no other. -/
theorem contains_iff_of_unused {code : String} {b : Python.ImportBinding} {m : Python.Node}
    {rest : List Char} (once : Unused code b) (starts : m.Starts code rest) (text : m.text? code = some b.name)
    {i : Nat} {line : String} (at_line : (lines code)[i]? = some line) :
    contains b.name line = true ↔ i = m.row := by
  obtain ⟨line', there, found⟩ := starts.exists_contains text (isLine_of_unused once)
  constructor
  · intro inside
    exact eq_of_countP_eq_one once at_line inside there found
  · rintro rfl
    cases at_line.symm.trans there
    exact found

/-- **When the removal of an import deletes the line that its name is on.** It is for a name that is on one
line only, in the row of the name; and it deletes the line that the import starts on. That is the line of
the name exactly if the statement does not go on to another line in front of the name. -/
theorem removal_deletes_line_of_name_iff {read : Python.Reader} (sites : read.Sites) (counter : Nat)
    {code : String} {f : Fix} (mem : f ∈ (generateBy read counter code .python).1)
    (titled : Titled removalLead f.title) :
    ∃ root, read.tree code = .ok root ∧ ∃ n ∈ root.walk, ∃ m ∈ root.walk, ∃ name,
      n.isImport = true ∧ n.Binds m ∧ m.text? code = some name ∧
        f.title = removalLead ++ name ++ "'" ∧ f.first = n.row + 1 ∧ f.last = n.row + 1 ∧ f.after = "" ∧
        (lines code)[n.row]? = some f.before ∧
        (∀ i line, (lines code)[i]? = some line → (contains name line = true ↔ i = m.row)) ∧
        n.row ≤ m.row ∧ (contains name f.before = true ↔ m.row = n.row) := by
  obtain ⟨p, proposed, k, rfl⟩ := exists_of_mem_numbered mem
  obtain ⟨b, inside, found⟩ := exists_unusedImport_of_titled proposed titled
  obtain ⟨once, before, at_line, rfl⟩ := unusedImport_eq_some_iff.mp found
  obtain ⟨root, tree, n, taken, bound, name, listed, rfl⟩ := Python.Reader.mem_imports_iff.mp inside
  obtain ⟨m, binds, text⟩ := Python.exists_binds_of_mem_importedNames sites tree taken listed
  obtain ⟨taken', behind⟩ := Python.start_le_of_binds sites tree taken binds
  obtain ⟨start, starts⟩ := sites.starts code root tree n taken
  obtain ⟨place, starts'⟩ := sites.starts code root tree m taken'
  have only {i : Nat} {l : String} (here : (lines code)[i]? = some l) :
      contains name l = true ↔ i = m.row :=
    contains_iff_of_unused once starts' text here
  exact ⟨root, tree, n, taken, m, taken', name, bound, binds, text, rfl, rfl, rfl, rfl, at_line,
    fun _ _ => only, starts.row_le starts' behind, (only at_line).trans eq_comm⟩

/-- A name beside the first word of its statement, whose line is deleted, and one below it, whose line is
kept. -/
theorem removal_deletes_line_of_name_of_two_imports :
    ∃ f ∈ (generate 0 "import os\nfrom a import (\n    b)" .python).1,
      ∃ g ∈ (generate 0 "import os\nfrom a import (\n    b)" .python).1,
        Titled removalLead f.title ∧ Titled removalLead g.title ∧
        contains "os" f.before = true ∧ contains "b" g.before = false := by
  have proposed : ∃ f ∈ (generate 0 "import os\nfrom a import (\n    b)" .python).1,
      ∃ g ∈ (generate 0 "import os\nfrom a import (\n    b)" .python).1,
        Titled removalLead f.title ∧ Titled removalLead g.title ∧
        f.title = removalLead ++ "os" ++ "'" ∧ g.title = removalLead ++ "b" ++ "'" ∧
        f.first = 1 ∧ g.first = 2 := by
    decide +kernel
  obtain ⟨f, mem, g, mem', titled, titled', name, name', first, second⟩ := proposed
  have same {x y : String} (h : removalLead ++ x ++ "'" = removalLead ++ y ++ "'") : x = y := by
    simpa [← String.toList_inj] using h
  refine ⟨f, mem, g, mem', titled, titled', ?_, ?_⟩
  · obtain ⟨root, -, n, -, m, -, bound, -, -, -, title, row, -, -, -, only, -, deleted⟩ :=
      removal_deletes_line_of_name_iff Python.sites_readTree 0 mem titled
    rw [same (title.symm.trans name)] at only deleted
    have place := (only 0 "import os" rfl).mp (by decide)
    exact deleted.mpr (by omega)
  · obtain ⟨root, -, n, -, m, -, bound, -, -, -, title, row, -, -, -, only, -, deleted⟩ :=
      removal_deletes_line_of_name_iff Python.sites_readTree 0 mem' titled'
    rw [same (title.symm.trans name')] at only deleted
    have place := (only 2 "    b)" rfl).mp (by decide)
    refine Bool.eq_false_iff.mpr fun kept => ?_
    have start := deleted.mp kept
    omega

/-- The line that an import of three lines starts on is deleted, which has not the name on it that is not
used. The name is on the line below. -/
theorem first_line_of_import_deleted :
    isValid "from a import (\n    b,\n    c)\nc" .python = true ∧
      ∃ f ∈ (generate 0 "from a import (\n    b,\n    c)\nc" .python).1,
        f.title = removalLead ++ "b" ++ "'" ∧ f.automatic = true ∧ f.first = 1 ∧ f.last = 1 ∧
        f.before = "from a import (" ∧ contains "b" f.before = false ∧
        (lines "from a import (\n    b,\n    c)\nc").filter (contains "b") = ["    b,"] ∧
        (apply "from a import (\n    b,\n    c)\nc" f).toOption = some "    b,\n    c)\nc" := by
  decide +kernel

end SnippetAudit.Fix
