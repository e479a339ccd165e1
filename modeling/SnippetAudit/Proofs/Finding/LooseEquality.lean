import SnippetAudit.Finding.Pattern
import SnippetAudit.Proofs.Text.Replace

/-!
The loose comparison `==`, which is no part of a longer operator.

Making every loose comparison of a text strict leaves none (`occurs_replace_looseEquality`). The new
text has the same character in front of every place that is kept, so only the third equals sign of a
replacement, and the sign behind a kept one, have to be looked at.
-/

namespace SnippetAudit.Finding

open Text

/-- The characters that make `==` behind them part of a longer operator. -/
def Operator (c : Char) : Prop := c = '=' ∨ c = '!' ∨ c = '<' ∨ c = '>'

section LooseEquality

variable {before : Option Char} {s : List Char} {n : Nat}

/-- What counts as a loose comparison. -/
theorem looseEquality_eq_some_iff :
    looseEquality before s = some n ↔
      n = 2 ∧ (∀ c ∈ before, ¬ Operator c) ∧
        ∃ rest, s = '=' :: '=' :: rest ∧ rest.head? ≠ some '=' := by
  unfold looseEquality
  split
  · rename_i rest
    cases before with
    | none =>
      by_cases hrest : rest.head? = some '='
      · simp [hrest]
      · simp [hrest, eq_comm]
    | some c =>
      have test : (c = '=' || c = '!' || c = '<' || c = '>') = true ↔ Operator c := by
        simp [Operator, or_assoc]
      by_cases hc : Operator c
      · simp only [test.mpr hc, Bool.true_or, if_true]
        constructor
        · intro h
          cases h
        · rintro ⟨-, plain, -⟩
          exact absurd hc (plain c rfl)
      · simp only [Bool.eq_false_iff.mpr (mt test.mp hc), Bool.false_or]
        by_cases hrest : rest.head? = some '='
        · simp [hrest]
        · simp [hrest, hc, eq_comm]
  · rename_i other
    simp only [reduceCtorEq, false_iff]
    rintro ⟨-, -, rest, rfl, -⟩
    exact other rest rfl

theorem sized_looseEquality : Sized looseEquality := by
  intro before s n found
  obtain ⟨rfl, -, rest, rfl, -⟩ := looseEquality_eq_some_iff.mp found
  simp

/-- No comparison starts behind an equals sign. -/
theorem looseEquality_behind_equals (s : List Char) : looseEquality (some '=') s = none := by
  rw [Option.eq_none_iff_forall_ne_some]
  intro n found
  obtain ⟨-, plain, -⟩ := looseEquality_eq_some_iff.mp found
  exact plain '=' rfl (Or.inl rfl)

/-- Put `===` in the place of every match. -/
def strictFrom (before : Option Char) (s : List Char) : List Char :=
  replaceFrom looseEquality (fun _ => "===".toList) before 0 s

theorem strictFrom_cons_of_none {c : Char} {rest : List Char}
    (missed : looseEquality before (c :: rest) = none) :
    strictFrom before (c :: rest) = c :: strictFrom (some c) rest := by
  rw [strictFrom, replaceFrom, missed]
  rfl

theorem strictFrom_of_some {rest : List Char}
    (found : looseEquality before ('=' :: '=' :: rest) = some 2) :
    strictFrom before ('=' :: '=' :: rest) = '=' :: '=' :: '=' :: strictFrom (some '=') rest := by
  rw [strictFrom, replaceFrom, found]
  rfl

/-- A text begins with an equals sign before and after, or not at all. -/
theorem head?_strictFrom (before : Option Char) (s : List Char) :
    (strictFrom before s).head? = s.head? := by
  cases s with
  | nil => rfl
  | cons c rest =>
    cases found : looseEquality before (c :: rest) with
    | none => rw [strictFrom_cons_of_none found, List.head?_cons, List.head?_cons]
    | some n =>
      obtain ⟨rfl, -, tail, hs, -⟩ := looseEquality_eq_some_iff.mp found
      rw [hs] at found ⊢
      rw [strictFrom_of_some found, List.head?_cons, List.head?_cons]

/-- A place that is left alone is no comparison in the new text either. -/
theorem looseEquality_strictFrom {c : Char} {rest : List Char}
    (missed : looseEquality before (c :: rest) = none) :
    looseEquality before (c :: strictFrom (some c) rest) = none := by
  rw [Option.eq_none_iff_forall_ne_some]
  intro n found
  obtain ⟨rfl, plain, tail, hout, htail⟩ := looseEquality_eq_some_iff.mp found
  obtain ⟨rfl, hout⟩ := List.cons.inj hout
  -- The second equals sign of the new text is the second of the old one.
  have second : rest.head? = some '=' := by
    rw [← head?_strictFrom (some '=') rest, hout]
    rfl
  obtain ⟨rest', rfl⟩ := List.head?_eq_some_iff.mp second
  rw [strictFrom_cons_of_none (looseEquality_behind_equals _)] at hout
  obtain ⟨-, rfl⟩ := List.cons.inj hout
  -- So what follows it would be no equals sign, and the old text would have a comparison here.
  rw [head?_strictFrom] at htail
  have found' : looseEquality before ('=' :: '=' :: rest') = some 2 :=
    looseEquality_eq_some_iff.mpr ⟨rfl, plain, rest', rfl, htail⟩
  rw [missed] at found'
  cases found'

theorem occursFrom_strictFrom (before : Option Char) (s : List Char) :
    occursFrom looseEquality before (strictFrom before s) = false := by
  induction hlen : s.length using Nat.strongRecOn generalizing before s with
  | ind len ih =>
    cases s with
    | nil => rfl
    | cons c rest =>
      cases found : looseEquality before (c :: rest) with
      | none =>
        rw [strictFrom_cons_of_none found, occursFrom, looseEquality_strictFrom found]
        exact ih rest.length (by simp at hlen; omega) (some c) rest rfl
      | some n =>
        obtain ⟨rfl, plain, tail, hs, -⟩ := looseEquality_eq_some_iff.mp found
        rw [hs] at found hlen ⊢
        have first : looseEquality before ('=' :: '=' :: '=' :: strictFrom (some '=') tail) = none := by
          rw [Option.eq_none_iff_forall_ne_some]
          intro n found
          obtain ⟨-, -, rest, hout, hrest⟩ := looseEquality_eq_some_iff.mp found
          cases hout
          exact hrest rfl
        rw [strictFrom_of_some found, occursFrom, first, occursFrom, looseEquality_behind_equals,
          occursFrom, looseEquality_behind_equals]
        exact ih tail.length (by simp at hlen; omega) (some '=') tail rfl

end LooseEquality

/-- **No loose comparison is left** where all have been made strict. -/
theorem occurs_replace_looseEquality (s : List Char) :
    occurs looseEquality (replace looseEquality (fun _ => "===".toList) s) = false :=
  occursFrom_strictFrom none s

end SnippetAudit.Finding
