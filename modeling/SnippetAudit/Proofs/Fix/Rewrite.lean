import SnippetAudit.Fix.Battery.Script
import SnippetAudit.Proofs.Finding.LooseEquality
import SnippetAudit.Proofs.Finding.Pattern
import SnippetAudit.Proofs.Text.Lines

/-!
What the rewrites of single lines do to the patterns that are looked for.

Each rewrite leaves nothing of its own pattern and makes nothing of another, nor a blank at the end
of the line. This is why applying fixes comes to an end: a line that has been mended in one respect
is never spoilt in it again.
-/

namespace SnippetAudit.Fix.Battery

open Text Finding

/-! ### Rewriting a line -/

section RewriteLine

variable {m : Matcher} {r : List Char} {line : String}

theorem toList_rewriteLine (m : Matcher) (f : List Char → List Char) (line : String) :
    (rewriteLine m f line).toList = replace m f line.toList := by
  rw [rewriteLine, String.toList_ofList]

theorem isLine_rewriteLine (sized : Sized m) (hr : '\n' ∉ r) (h : IsLine line) :
    IsLine (rewriteLine m (fun _ => r) line) := by
  intro mem
  rw [toList_rewriteLine] at mem
  rcases (patched_replace sized r line.toList).mem_or_mem mem with mem | mem
  · exact h mem
  · exact hr mem

/-- A rewrite whose replacement ends with no blank puts no blank at the end. -/
theorem endsBlank_of_rewriteLine (sized : Sized m) (nonempty : r ≠ [])
    (hr : r.getLast?.any isBlank = false)
    (h : endsBlank (rewriteLine m (fun _ => r) line) = true) : endsBlank line = true := by
  obtain ⟨c, last, blank⟩ := endsBlank_iff.mp h
  rw [toList_rewriteLine] at last
  rcases (patched_replace sized r line.toList).getLast?_or nonempty last with last | last
  · exact endsBlank_iff.mpr ⟨c, last, blank⟩
  · rw [Option.mem_def.mp last, Option.any_some, blank] at hr
    cases hr

end RewriteLine

/-! ### The parts of the patterns -/

theorem visible_none : Visible "None" := ⟨'N', by decide, by decide⟩

theorem visible_equals : Visible "==" := ⟨'=', by decide, by decide⟩

theorem visible_colon : Visible ":" := ⟨':', by decide, by decide⟩

theorem foundOn_noneComparison (line : String) :
    foundOn noneComparison line = (foundOn noneOnRight line || foundOn noneOnLeft line) :=
  occurs_either noneOnRight noneOnLeft line.toList

/-! ### Removing trailing blanks -/

theorem foundOn_noneComparison_of_trimEnd {line : String}
    (h : foundOn noneComparison (trimEnd line) = true) : foundOn noneComparison line = true := by
  have sub : (trimEnd line).toList <:+: line.toList := (trimEnd_isPrefix line).isInfix
  rw [foundOn_noneComparison, Bool.or_eq_true] at h ⊢
  exact h.imp (occurs_gapped_mono visible_none sub) (occurs_gapped_mono visible_equals sub)

theorem foundOn_bareExcept_of_trimEnd {line : String}
    (h : foundOn bareExcept (trimEnd line) = true) : foundOn bareExcept line = true :=
  occurs_gapped_mono visible_colon (trimEnd_isPrefix line).isInfix h

/-! ### Comparing with `None` by identity

The rewrite has two passes. The second finds no comparison with `None` on the right to begin with,
and makes none. -/

/-- The line after the first pass. -/
def rightByIdentity (line : String) : String :=
  rewriteLine noneOnRight (fun _ => "is None".toList) line

theorem compareByIdentity_eq (line : String) :
    compareByIdentity line =
      rewriteLine noneOnLeft (fun _ => "None is".toList) (rightByIdentity line) := rfl

theorem patched_rightByIdentity (line : String) :
    Patched "is ".toList (fun _ => True) (fun _ => True) line.toList
      (rightByIdentity line).toList := by
  rw [rightByIdentity, toList_rewriteLine]
  exact patched_in_front (r := "is ".toList) visible_none

theorem patched_compareByIdentity (line : String) :
    Patched " is".toList (fun _ => True) (fun _ => True) (rightByIdentity line).toList
      (compareByIdentity line).toList := by
  rw [compareByIdentity_eq, toList_rewriteLine]
  exact patched_behind (r := " is".toList) visible_equals

theorem foundOn_noneOnRight_rightByIdentity (line : String) :
    foundOn noneOnRight (rightByIdentity line) = false := by
  rw [foundOn, rightByIdentity, toList_rewriteLine]
  exact occurs_replace_gapped visible_none (clear_of_clears (by decide))

theorem foundOn_noneComparison_compareByIdentity (line : String) :
    foundOn noneComparison (compareByIdentity line) = false := by
  rw [foundOn_noneComparison, Bool.or_eq_false_iff]
  constructor
  · rw [Bool.eq_false_iff]
    intro found
    have before : foundOn noneOnRight (rightByIdentity line) = true :=
      occurs_of_occurs_patched visible_none (clear_of_clears (by decide))
        (patched_compareByIdentity line) found
    rw [foundOn_noneOnRight_rightByIdentity] at before
    cases before
  · rw [foundOn, compareByIdentity_eq, toList_rewriteLine]
    exact occurs_replace_gapped visible_equals (clear_of_clears (by decide))

theorem foundOn_bareExcept_of_compareByIdentity {line : String}
    (h : foundOn bareExcept (compareByIdentity line) = true) : foundOn bareExcept line = true := by
  have between : foundOn bareExcept (rightByIdentity line) = true :=
    occurs_of_occurs_patched visible_colon (clear_of_clears (by decide))
      (patched_compareByIdentity line) h
  exact occurs_of_occurs_patched visible_colon (clear_of_clears (by decide))
    (patched_rightByIdentity line) between

theorem endsBlank_of_compareByIdentity {line : String}
    (h : endsBlank (compareByIdentity line) = true) : endsBlank line = true := by
  have between : endsBlank (rightByIdentity line) = true :=
    endsBlank_of_rewriteLine (sized_gapped visible_equals) (by decide) (by decide) h
  exact endsBlank_of_rewriteLine (sized_gapped visible_none) (by decide) (by decide) between

theorem isLine_compareByIdentity {line : String} (h : IsLine line) :
    IsLine (compareByIdentity line) :=
  isLine_rewriteLine (sized_gapped visible_equals) (by decide)
    (isLine_rewriteLine (sized_gapped visible_none) (by decide) h)

/-! ### Naming an exception -/

theorem foundOn_bareExcept_nameException (line : String) :
    foundOn bareExcept (nameException line) = false := by
  rw [foundOn, nameException, toList_rewriteLine]
  exact occurs_replace_gapped visible_colon (clear_of_clears (by decide))

theorem patched_nameException (line : String) :
    Patched " Exception:".toList (fun _ => True) (fun _ => True) line.toList
      (nameException line).toList := by
  rw [nameException, toList_rewriteLine]
  exact patched_behind (r := " Exception:".toList) visible_colon

theorem foundOn_noneComparison_of_nameException {line : String}
    (h : foundOn noneComparison (nameException line) = true) :
    foundOn noneComparison line = true := by
  rw [foundOn_noneComparison, Bool.or_eq_true] at h ⊢
  rcases h with h | h
  · exact Or.inl (occurs_of_occurs_patched visible_none (clear_of_clears (by decide))
      (patched_nameException line) h)
  · exact Or.inr (occurs_of_occurs_patched visible_equals (clear_of_clears (by decide))
      (patched_nameException line) h)

theorem endsBlank_of_nameException {line : String} (h : endsBlank (nameException line) = true) :
    endsBlank line = true :=
  endsBlank_of_rewriteLine (sized_gapped visible_colon) (by decide) (by decide) h

theorem isLine_nameException {line : String} (h : IsLine line) : IsLine (nameException line) :=
  isLine_rewriteLine (sized_gapped visible_colon) (by decide) h

/-! ### Comparing strictly -/

theorem foundOn_looseEquality_compareStrictly (line : String) :
    foundOn looseEquality (compareStrictly line) = false := by
  rw [foundOn, compareStrictly, toList_rewriteLine]
  exact occurs_replace_looseEquality line.toList

theorem isLine_compareStrictly {line : String} (h : IsLine line) : IsLine (compareStrictly line) :=
  isLine_rewriteLine sized_looseEquality (by decide) h

end SnippetAudit.Fix.Battery
