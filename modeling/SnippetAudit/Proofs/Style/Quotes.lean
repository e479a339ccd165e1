import Mathlib.Data.List.TakeWhile
import Mathlib.Tactic.ByContra
import SnippetAudit.Proofs.Text.Overlap
import SnippetAudit.Proofs.Text.Word
import SnippetAudit.Style.Extract

/-!
Quoted spans are pairs of quotation marks.

A span goes from one mark to the next one of its kind, whatever stands in between, be it a newline or a mark
of the other kind (`quotedBy_eq_some_iff`). A search goes on behind it, so each span takes two marks away from
those that are left, and at most one is left over at the end (`countMatches_quotedBy`). So only the numbers of
marks count for the prevailing ones (`quotes_of_counts`).
-/

namespace SnippetAudit.Style

open Text

section Spans

variable {mark : Char} {before : Option Char} {s inner rest : List Char} {n : Nat}

theorem quotedBy_cons_of_ne {c : Char} (other : c ≠ mark) : quotedBy mark before (c :: rest) = none := by
  rw [quotedBy, if_neg other]

/-- A mark that is the last of its kind begins no span. -/
theorem quotedBy_unclosed (last : mark ∉ rest) : quotedBy mark before (mark :: rest) = none := by
  have all : rest.takeWhile (· ≠ mark) = rest :=
    List.takeWhile_eq_self_iff.mpr fun c mem => decide_eq_true (ne_of_mem_of_not_mem mem last)
  simp only [quotedBy, all]
  simp

theorem quotedBy_closed (absent : mark ∉ inner) :
    quotedBy mark before (mark :: (inner ++ mark :: rest)) = some (inner.length + 2) := by
  have front : (inner ++ mark :: rest).takeWhile (· ≠ mark) = inner :=
    takeWhile_append_of_head? (fun c mem => decide_eq_true (ne_of_mem_of_not_mem mem absent)) (by simp)
  simp only [quotedBy, front, List.drop_left]
  simp

/-- **A span goes from a mark to the next one of its kind.** -/
theorem quotedBy_eq_some_iff :
    quotedBy mark before s = some n ↔
      ∃ inner rest, s = mark :: (inner ++ mark :: rest) ∧ mark ∉ inner ∧ n = inner.length + 2 := by
  constructor
  · intro found
    cases s with
    | nil => cases found
    | cons c rest =>
      obtain rfl : c = mark := by
        by_contra other
        rw [quotedBy_cons_of_ne other] at found
        cases found
      have closed : c ∈ rest := by
        by_contra last
        rw [quotedBy_unclosed last] at found
        cases found
      obtain ⟨inner, tail, rfl, absent⟩ := List.eq_append_cons_of_mem closed
      rw [quotedBy_closed absent] at found
      exact ⟨inner, tail, rfl, absent, (Option.some.inj found).symm⟩
  · rintro ⟨inner, rest, rfl, absent, rfl⟩
    exact quotedBy_closed absent

theorem length_startsFrom_quotedBy (mark : Char) (before : Option Char) (at' : Nat) (s : List Char) :
    (startsFrom (quotedBy mark) before at' 0 s).length = s.count mark / 2 := by
  induction before, s using search_induction (quotedBy mark) generalizing at' with
  | nil before => simp [startsFrom]
  | missed before c rest here ih =>
    rw [startsFrom_of_none here, ih]
    by_cases same : c = mark
    · -- The mark is the last one, or a span would begin here.
      subst same
      have last : c ∉ rest := by
        intro mem
        obtain ⟨inner, tail, rfl, absent⟩ := List.eq_append_cons_of_mem mem
        rw [quotedBy_closed absent] at here
        cases here
      rw [List.count_cons_self, List.count_eq_zero.mpr last]
    · rw [List.count_cons_of_ne same]
  | found before c rest n here ih =>
    obtain ⟨inner, tail, split, absent, rfl⟩ := quotedBy_eq_some_iff.mp here
    obtain ⟨rfl, rfl⟩ := List.cons.inj split
    have behind : (inner ++ c :: tail).drop (inner.length + 2 - 1) = tail := by simp
    have marks : (c :: (inner ++ c :: tail)).count c = tail.count c + 2 := by
      simp [List.count_eq_zero.mpr absent]
    rw [startsFrom_of_some here, List.length_cons, ih, behind, marks, Nat.add_div_right _ Nat.two_pos]

/-- **Each span takes two marks**, and at most one mark is left over. -/
theorem countMatches_quotedBy (mark : Char) (s : List Char) :
    countMatches (quotedBy mark) s = s.count mark / 2 :=
  length_startsFrom_quotedBy mark none 0 s

end Spans

/-- **The prevailing quotation marks are those of which there are more pairs**, and they are mixed where there
are as many of both. -/
theorem quotes_of_counts (code : String) :
    quotes code =
      if code.toList.count '"' / 2 < code.toList.count '\'' / 2 then .single
      else if code.toList.count '\'' / 2 < code.toList.count '"' / 2 then .double
      else .mixed := by
  rw [quotes, countMatches_quotedBy, countMatches_quotedBy]

/-- Three single marks make one span, and so do the two double ones around one of them. -/
example : quotes "a = 'x'\nb = \"y'z\"" = .mixed := by decide +kernel

end SnippetAudit.Style
