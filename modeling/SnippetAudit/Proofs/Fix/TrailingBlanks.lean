import SnippetAudit.Proofs.Fix.Loop
import SnippetAudit.Proofs.Fix.Title

/-!
What the removal of trailing blanks does to the lines of a text.

A proposal puts what is left of its line in the place of the line. But for a fix, nothing in the place of one
line means that the line is to be deleted (`EditsLine.exists_apply`). So a line that has blanks only is not
trimmed but deleted, unless it is the whole text, and the lines below it move up (`trim_keeps_lines_iff`).
-/

namespace SnippetAudit.Text

/-- A line that has blanks only. -/
def BlankLine (line : String) : Prop := ∀ c ∈ line.toList, isBlank c = true

instance (line : String) : Decidable (BlankLine line) :=
  decidable_of_iff (line.toList.all isBlank = true) List.all_eq_true

/-- Nothing is left of a line exactly if it has blanks only. -/
theorem trimEnd_eq_empty_iff {line : String} : trimEnd line = "" ↔ BlankLine line := by
  rw [← String.toList_inj, toList_trimEnd, String.toList_empty, List.rdropWhile_eq_nil_iff,
    BlankLine]

end SnippetAudit.Text

namespace SnippetAudit.Fix

open Text Battery

/-- How the title of a removal of trailing blanks begins. -/
def blanksLead : String := "Remove trailing whitespace on line "

/-- **What the edit of one line makes of the lines of a text.** The line is replaced if there is a text to
replace it by. If there is none it is gone, unless it is the only one. -/
theorem EditsLine.exists_apply {code : String} {pre post : List String} {p : Proposal}
    (h : EditsLine code pre post p) (n : Nat) (clean : IsLine p.after) :
    ∃ fixed, apply code (p.toFix n) = .ok fixed ∧
      lines fixed = if p.after = "" ∧ (lines code).length ≠ 1 then (lines code).eraseIdx pre.length
        else (lines code).set pre.length p.after := by
  refine ⟨_, (h.covers n).apply_eq, ?_⟩
  have single : (p.toFix n).first = (p.toFix n).last := h.first_eq.trans h.last_eq.symm
  rw [(h.covers n).lines_apply, h.lines_eq, List.set_append_right _ _ le_rfl,
    List.eraseIdx_append_of_length_le le_rfl, Nat.sub_self, List.set_cons_zero,
    List.eraseIdx_cons_zero]
  by_cases empty : p.after = ""
  · rw [newLines_of_single single empty, List.append_nil, empty]
    by_cases only : pre ++ post = []
    · obtain ⟨rfl, rfl⟩ := List.append_eq_nil_iff.mp only
      simp
    · have more : (pre ++ p.before :: post).length ≠ 1 := by
        rw [← List.length_eq_zero_iff, List.length_append] at only
        rw [List.length_append, List.length_cons]
        omega
      rw [if_neg only, if_pos ⟨rfl, more⟩]
  · have after : newLines (p.toFix n) = [p.after] :=
      (newLines_of_after_ne empty).trans (lines_eq_singleton clean)
    simp [after, empty]

/-- A list with one element less is not the list with another element in the place of one. -/
theorem eraseIdx_ne_set {ls : List String} {i : Nat} (inside : i < ls.length) (l : String) :
    ls.eraseIdx i ≠ ls.set i l := by
  intro same
  have sizes := congrArg List.length same
  rw [List.length_eraseIdx_of_lt inside, List.length_set] at sizes
  omega

/-- A fix with the title of a removal of trailing blanks comes from a line that ends with one. -/
theorem exists_editsLine_of_trims {read : Python.Reader} {counter : Nat} {code : String} {f : Fix}
    (mem : f ∈ (generateBy read counter code .python).1) (titled : Titled blanksLead f.title) :
    ∃ pre post p n, f = p.toFix n ∧ EditsLine code pre post p ∧ endsBlank p.before = true ∧
      p.after = trimEnd p.before ∧ p.title = blanksLead ++ toString p.first := by
  obtain ⟨p, proposed, n, rfl⟩ := exists_of_mem_numbered mem
  have known : answers_trailingBlanks.toRule code ∈ rulesOf read code .python := by simp [rulesOf]
  obtain ⟨pre, line, post, cut, found⟩ := mem_eachLine.mp (mem_of_titled proposed known titled)
  obtain ⟨-, title, first, last⟩ := answers_trailingBlanks.names found
  obtain ⟨flawed, -, -, rfl, after⟩ := lightens_trailingBlanks.edits found
  exact ⟨pre, post, p, n, rfl, ⟨cut, first, last⟩, flawed, after, by rw [title, first]; rfl⟩

/-- **When the removal of trailing blanks only trims its own line.** It is for a line that ends with a blank
and can always be applied. It puts what is left of the line in its place, and keeps all the others where
they are, exactly if the line has something other than blanks or is the only one. Any other is deleted. -/
theorem trim_keeps_lines_iff (read : Python.Reader) (counter : Nat) {code : String} {f : Fix}
    (mem : f ∈ (generateBy read counter code .python).1) (titled : Titled blanksLead f.title) :
    ∃ line fixed, f.title = blanksLead ++ toString f.first ∧ 1 ≤ f.first ∧ f.last = f.first ∧
      (lines code)[f.first - 1]? = some line ∧ endsBlank line = true ∧
      apply code f = .ok fixed ∧
      (lines fixed = (lines code).set (f.first - 1) (trimEnd line) ↔
        ¬ BlankLine line ∨ (lines code).length = 1) ∧
      (BlankLine line → (lines code).length ≠ 1 →
        lines fixed = (lines code).eraseIdx (f.first - 1)) := by
  obtain ⟨pre, post, p, n, rfl, edits, flawed, after, title⟩ := exists_editsLine_of_trims mem titled
  have clean : IsLine p.after := by
    rw [after]
    have mem : p.before ∈ lines code := by rw [edits.lines_eq]; simp
    exact isLine_trimEnd (isLine_of_mem_lines mem)
  obtain ⟨fixed, applied, result⟩ := edits.exists_apply n clean
  have first : (p.toFix n).first = pre.length + 1 := edits.first_eq
  have inside : pre.length < (lines code).length := by
    rw [edits.lines_eq]
    simp
  have here : (lines code)[pre.length]? = some p.before := by
    rw [edits.lines_eq]
    simp
  have last : (p.toFix n).last = (p.toFix n).first := edits.last_eq.trans edits.first_eq.symm
  simp only [after, trimEnd_eq_empty_iff] at result
  refine ⟨p.before, fixed, title, by omega, last, ?_, flawed, applied, ?_, ?_⟩
  · rwa [first, Nat.add_sub_cancel]
  · rw [first, Nat.add_sub_cancel, result]
    by_cases goes : BlankLine p.before ∧ (lines code).length ≠ 1
    · rw [if_pos goes]
      exact iff_of_false (eraseIdx_ne_set inside _) (by tauto)
    · rw [if_neg goes]
      exact iff_of_true rfl (by tauto)
  · intro blank several
    rw [first, Nat.add_sub_cancel, result, if_pos ⟨blank, several⟩]

/-- A line with a word loses its blanks, while a line of blanks only is deleted. -/
theorem trim_keeps_lines_of_three_lines :
    ∃ f ∈ (generateBy Python.readTree 0 "x = 1 \n  \ny = 2" .python).1,
      ∃ g ∈ (generateBy Python.readTree 0 "x = 1 \n  \ny = 2" .python).1,
        Titled blanksLead f.title ∧ Titled blanksLead g.title ∧
        (∃ fixed, apply "x = 1 \n  \ny = 2" f = .ok fixed ∧ lines fixed = ["x = 1", "  ", "y = 2"]) ∧
        ∃ fixed, apply "x = 1 \n  \ny = 2" g = .ok fixed ∧ lines fixed = ["x = 1 ", "y = 2"] := by
  have proposed : ∃ f ∈ (generateBy Python.readTree 0 "x = 1 \n  \ny = 2" .python).1,
      ∃ g ∈ (generateBy Python.readTree 0 "x = 1 \n  \ny = 2" .python).1,
        Titled blanksLead f.title ∧ Titled blanksLead g.title ∧ f.first = 1 ∧ g.first = 2 := by
    decide +kernel
  obtain ⟨f, mem, g, mem', titled, titled', first, second⟩ := proposed
  refine ⟨f, mem, g, mem', titled, titled', ?_, ?_⟩
  · obtain ⟨line, fixed, -, -, -, here, -, applied, trims, -⟩ :=
      trim_keeps_lines_iff Python.readTree 0 mem titled
    rw [first] at here trims
    obtain rfl : "x = 1 " = line := Option.some.inj here
    exact ⟨fixed, applied, trims.mpr (.inl (by decide))⟩
  · obtain ⟨line, fixed, -, -, -, here, -, applied, -, deletes⟩ :=
      trim_keeps_lines_iff Python.readTree 0 mem' titled'
    rw [second] at here deletes
    obtain rfl : "  " = line := Option.some.inj here
    exact ⟨fixed, applied, deletes (by decide) (by decide)⟩

/-- Where a line of blanks only stands between two others, the text has a line less. -/
theorem trim_deletes_line :
    ∃ f ∈ (generate 0 "x = 1\n  \ny = 2" .python).1, f.title = "Remove trailing whitespace on line 2" ∧
      f.first = 2 ∧ f.last = 2 ∧ f.automatic = true ∧
      (apply "x = 1\n  \ny = 2" f).toOption = some "x = 1\ny = 2" ∧
      lines "x = 1\ny = 2" ≠ (lines "x = 1\n  \ny = 2").set 1 (trimEnd "  ") := by
  decide +kernel

end SnippetAudit.Fix
