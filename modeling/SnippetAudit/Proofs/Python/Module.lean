import Mathlib.Data.List.Sort
import SnippetAudit.Python.Module

/-!
What is read off a syntax tree.

A text is a module if its tree is free of faults and of statements that the language has dropped
(`Reader.tree_eq_ok_iff`). Each name that is bound comes from the node of an import, and each definition from
a node of its own, with the line that the node starts on (`Reader.mem_imports_iff`,
`Reader.mem_definitions_iff`). Imports are found level by level and not line by line, but their lines are
sorted (`ascending_eq_insertionSort`), and none is lost.
-/

namespace SnippetAudit.Python

/-! ### Lines of imports -/

theorem insertAscending_eq_orderedInsert (n : Nat) (ns : List Nat) :
    insertAscending n ns = ns.orderedInsert (· ≤ ·) n := by
  induction ns with
  | nil => rfl
  | cons m ns ih => rw [insertAscending, List.orderedInsert_cons, ih]

theorem ascending_eq_insertionSort (ns : List Nat) : ascending ns = ns.insertionSort (· ≤ ·) := by
  induction ns with
  | nil => rfl
  | cons n ns ih => rw [ascending, ih, insertAscending_eq_orderedInsert, List.insertionSort_cons]

theorem pairwise_ascending (ns : List Nat) : (ascending ns).Pairwise (· ≤ ·) := by
  rw [ascending_eq_insertionSort]
  exact List.pairwise_insertionSort (· ≤ ·) ns

theorem perm_ascending (ns : List Nat) : (ascending ns).Perm ns := by
  rw [ascending_eq_insertionSort]
  exact List.perm_insertionSort (· ≤ ·) ns

/-! ### Nodes -/

section Nodes

variable {code : String} {nodes : List Node} {n : Node} {b : ImportBinding} {d : Definition} {line : Nat}

theorem mem_importBindings_iff : b ∈ importBindings code nodes ↔
    ∃ n ∈ nodes, n.isImport = true ∧ ∃ name ∈ n.importedNames code, ⟨name, n.row + 1⟩ = b := by
  simp only [importBindings, List.mem_flatMap, List.mem_filter, List.mem_map, and_assoc]

theorem mem_definitionsOf_iff : d ∈ definitionsOf code nodes ↔
    ∃ n ∈ nodes, n.isDefinition = true ∧ n.definition? code = some d := by
  simp only [definitionsOf, List.mem_filterMap, List.mem_filter, and_assoc]

theorem mem_importLinesOf_iff : line ∈ importLinesOf nodes ↔
    ∃ n ∈ nodes, n.isImport = true ∧ n.row + 1 = line := by
  simp only [importLinesOf, List.mem_map, List.mem_filter, and_assoc]

/-- Whatever is bound by an import is on the line of one. -/
theorem line_mem_importLinesOf (mem : b ∈ importBindings code nodes) : b.line ∈ importLinesOf nodes := by
  obtain ⟨n, inside, bound, name, -, rfl⟩ := mem_importBindings_iff.mp mem
  exact mem_importLinesOf_iff.mpr ⟨n, inside, bound, rfl⟩

theorem Node.definition?_eq_some_iff : n.definition? code = some d ↔
    ∃ node name, n.childBy? "name" = some node ∧ node.text? code = some name ∧
      { kind := if n.kind == "class_definition" then .classType else .function
        name
        line := n.row + 1
        documented := (n.childBy? "body").any startsWithDocumentation } = d := by
  simp only [definition?, Option.bind_eq_bind, Option.bind_eq_some_iff, Option.some.injEq,
    exists_and_left]

end Nodes

/-! ### Texts -/

namespace Reader

variable {read : Reader} {code : String} {root : Node} {m : Module} {b : ImportBinding} {d : Definition}

/-- **A text is a module if its tree has no fault and no statement of the old language.** -/
theorem tree_eq_ok_iff : read.tree code = .ok root ↔
    read code = .ok root ∧ root.hasError = false ∧ root.legacy? = none := by
  rw [tree]
  cases read code with
  | error cause => simp
  | ok root' =>
    dsimp only
    split
    next flawed =>
      simp only [reduceCtorEq, Except.ok.injEq, false_iff, not_and]
      rintro rfl clean
      rw [flawed] at clean
      cases clean
    next clean =>
      rw [Bool.not_eq_true] at clean
      split
      next statement place old =>
        simp only [reduceCtorEq, Except.ok.injEq, false_iff, not_and]
        rintro rfl - none
        rw [old] at none
        cases none
      next none =>
        constructor
        · intro same
          cases same
          exact ⟨rfl, clean, none⟩
        · rintro ⟨same, -, -⟩
          cases same
          rfl

/-- **What is bound comes from the node of an import**, on whose line it is. -/
theorem mem_imports_iff : b ∈ (read.outline code).imports ↔
    ∃ root, read.tree code = .ok root ∧ ∃ n ∈ root.walk, n.isImport = true ∧
      ∃ name ∈ n.importedNames code, ⟨name, n.row + 1⟩ = b := by
  rw [outline, parse]
  cases tree : read.tree code with
  | error e => simp [Except.map]
  | ok root =>
    simp only [Except.map, Except.ok.injEq, exists_eq_left']
    exact mem_importBindings_iff

/-- **A definition comes from a node of its own**, on whose line it is. -/
theorem mem_definitions_iff : d ∈ (read.outline code).definitions ↔
    ∃ root, read.tree code = .ok root ∧ ∃ n ∈ root.walk, n.isDefinition = true ∧
      n.definition? code = some d := by
  rw [outline, parse]
  cases tree : read.tree code with
  | error e => simp [Except.map]
  | ok root =>
    simp only [Except.map, Except.ok.injEq, exists_eq_left']
    exact mem_definitionsOf_iff

/-- The lines of imports are counted from one. -/
theorem one_le_line_of_mem_imports (mem : b ∈ (read.outline code).imports) : 1 ≤ b.line := by
  obtain ⟨-, -, n, -, -, name, -, rfl⟩ := mem_imports_iff.mp mem
  exact Nat.succ_pos _

/-- The lines of definitions are counted from one. -/
theorem one_le_line_of_mem_definitions (mem : d ∈ (read.outline code).definitions) : 1 ≤ d.line := by
  obtain ⟨-, -, n, -, -, found⟩ := mem_definitions_iff.mp mem
  obtain ⟨-, -, -, -, rfl⟩ := Node.definition?_eq_some_iff.mp found
  exact Nat.succ_pos _

/-- **The lines of imports ascend, and each binding is on one of them**, however the tree of the module is
read. -/
theorem importLines_of_parse (parsed : read.parse code = .ok m) :
    m.importLines.Pairwise (· ≤ ·) ∧ ∀ b ∈ m.imports, b.line ∈ m.importLines := by
  rw [parse] at parsed
  cases tree : read.tree code with
  | error e =>
    rw [tree] at parsed
    cases parsed
  | ok root =>
    rw [tree] at parsed
    obtain rfl := Except.ok.inj parsed
    refine ⟨pairwise_ascending _, fun b mem => ?_⟩
    exact (perm_ascending _).mem_iff.mpr (line_mem_importLinesOf mem)

end Reader

end SnippetAudit.Python
