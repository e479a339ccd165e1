import SnippetAudit.Proofs.Fix.Loop
import SnippetAudit.Proofs.Fix.Title

/-!
What the removal of an import takes away.

Whether an import is used is asked for each name that it binds, but it is a whole line that is deleted, with
all that is imported there. So a removal takes away nothing that is used exactly where an unused import
shares its line with unused imports only (`UnusedTogether`).
-/

namespace SnippetAudit.Fix

open Text Battery

/-- An import whose name is on one line of a text only. -/
def Unused (code : String) (b : Python.ImportBinding) : Prop :=
  (lines code).countP (contains b.name) = 1

instance (code : String) (b : Python.ImportBinding) : Decidable (Unused code b) := by
  unfold Unused
  infer_instance

/-- A fix that removes an import without being asked for. -/
def RemovesImport (f : Fix) : Prop := f.automatic = true ∧ Titled removalLead f.title

instance (f : Fix) : Decidable (RemovesImport f) := by
  unfold RemovesImport
  infer_instance

/-- What is imported on the line of an unused import is unused as well. -/
def UnusedTogether (read : Python.Reader) (code : String) : Prop :=
  ∀ b ∈ (read.outline code).imports, Unused code b → b.line ≤ (lines code).length →
    ∀ b' ∈ (read.outline code).imports, b'.line = b.line → Unused code b'

section Removal

variable {read : Python.Reader} {counter : Nat} {code : String}

/-- A removal is for an unused import, and deletes its line. -/
theorem exists_unused_of_removesImport {f : Fix} (mem : f ∈ (generateBy read counter code .python).1)
    (removes : RemovesImport f) :
    ∃ b ∈ (read.outline code).imports, Unused code b ∧ b.line ≤ (lines code).length ∧
      f.first = b.line ∧ f.last = b.line ∧ f.after = "" ∧ f.title = removalLead ++ b.name ++ "'" := by
  obtain ⟨p, proposed, n, rfl⟩ := exists_of_mem_numbered mem
  obtain ⟨b, inside, found⟩ := exists_unusedImport_of_titled proposed removes.2
  obtain ⟨once, before, at_line, rfl⟩ := unusedImport_eq_some_iff.mp found
  have positive := Python.Reader.one_le_line_of_mem_imports inside
  have within : b.line - 1 < (lines code).length := (List.getElem?_eq_some_iff.mp at_line).1
  exact ⟨b, inside, once, by omega, rfl, rfl, rfl, rfl⟩

/-- Every unused import is removed. -/
theorem exists_removesImport_of_unused {b : Python.ImportBinding}
    (mem : b ∈ (read.outline code).imports) (once : Unused code b)
    (within : b.line ≤ (lines code).length) :
    ∃ f ∈ (generateBy read counter code .python).1, RemovesImport f ∧ f.first = b.line := by
  have positive := Python.Reader.one_le_line_of_mem_imports mem
  have inside : b.line - 1 < (lines code).length := by omega
  obtain ⟨p, found, automatic, first⟩ :
      ∃ p, unusedImport (lines code) b = some p ∧ p.automatic = true ∧ p.first = b.line :=
    ⟨_, unusedImport_eq_some_iff.mpr ⟨once, _, List.getElem?_eq_getElem inside, rfl⟩, rfl, rfl⟩
  have proposed : p ∈ proposalsBy read .python code := by
    have removal := List.mem_filterMap.mpr ⟨b, mem, found⟩
    simp only [proposalsBy, Battery.python, List.mem_append, removal, true_or]
  obtain ⟨n, numbered⟩ := exists_mem_numbered counter proposed
  exact ⟨p.toFix n, numbered, ⟨automatic, titled_of_unusedImport found⟩, first⟩

end Removal

/-- **When removals of imports are right.** Each is for an import whose name is on one line only, and deletes
the line of that import. All that is imported on a deleted line is unused exactly when unused imports share
their lines with unused imports only. -/
theorem removals_right_iff (read : Python.Reader) (counter : Nat) (code : String) :
    (∀ f ∈ (generateBy read counter code .python).1, RemovesImport f →
        ∃ b ∈ (read.outline code).imports, Unused code b ∧ b.line ≤ (lines code).length ∧
          f.first = b.line ∧ f.last = b.line ∧ f.after = "" ∧
          f.title = removalLead ++ b.name ++ "'") ∧
      ((∀ f ∈ (generateBy read counter code .python).1, RemovesImport f →
          ∀ b ∈ (read.outline code).imports, b.line = f.first → Unused code b) ↔
        UnusedTogether read code) := by
  refine ⟨fun f mem removes => exists_unused_of_removesImport mem removes, ?_, ?_⟩
  · intro right b mem once within b' mem' same
    obtain ⟨f, proposed, removes, first⟩ := exists_removesImport_of_unused mem once within
    exact right f proposed removes b' mem' (same.trans first.symm)
  · intro together f proposed removes b' mem' same
    obtain ⟨b, mem, once, within, first, -⟩ := exists_unused_of_removesImport proposed removes
    exact together b mem once within b' mem' (same.trans first)

/-- The removal of an unused import takes one away that is used, if both are on the same line. What is left
is well formed. -/
theorem used_import_removed :
    isValid "import os, sys\nprint(sys.path)\n" .python = true ∧
      ∃ f ∈ (generate 0 "import os, sys\nprint(sys.path)\n" .python).1, RemovesImport f ∧
        (∃ b ∈ (Python.Reader.outline Python.readTree "import os, sys\nprint(sys.path)\n").imports,
          b.line = f.first ∧ b.name = "sys" ∧ ¬ Unused "import os, sys\nprint(sys.path)\n" b) ∧
        (applyValidated "import os, sys\nprint(sys.path)\n" .python f).toOption =
          some "print(sys.path)\n" := by
  decide +kernel

end SnippetAudit.Fix
