import Mathlib.Data.List.Forall2
import SnippetAudit.Text.Lower

/-!
Words in either case.

The lowercase mapping of Unicode leads from outside ASCII into it at two places only: the Kelvin sign becomes a
`k` (`lowerCode_beyondAscii`), and a capital I with a dot above leaves its dot behind an `i`. So a text becomes
a given word of other ASCII letters exactly if it spells the word letter by letter, each in either case
(`lower_eq_iff`).
-/

namespace SnippetAudit.Text

/-- The characters of ASCII that only they themselves and their capitals become in lower case. -/
def isPlain (d : Char) : Bool := 0 < d.toNat && d.toNat < 128 && !isUpperAscii d && d != 'k'

/-- A character, or the capital of it. -/
def InEitherCase (c d : Char) : Prop := c = d ∨ isUpperAscii c = true ∧ c.toNat + 32 = d.toNat

/-- A run of the lowercase mapping that leads from outside ASCII to the outside, or from the Kelvin sign to
`k`. -/
def staysOutside : Nat × Nat × Nat × Int → Bool
  | (first, last, _, shift) =>
    last < 128 || 128 ≤ max 128 (first : Int) + shift || (first == last && first + shift == 107)

section

variable {c d : Char} {s w : List Char}

theorem lowerCode_of_staysOutside {runs : List (Nat × Nat × Nat × Int)} {n : Nat}
    (outside : runs.all staysOutside = true) (beyond : 128 ≤ n) :
    128 ≤ lowerCode runs n ∨ lowerCode runs n = 107 := by
  induction runs with
  | nil => exact .inl beyond
  | cons run runs ih =>
    obtain ⟨first, last, step, shift⟩ := run
    rw [List.all_cons, Bool.and_eq_true] at outside
    obtain ⟨here, others⟩ := outside
    rw [lowerCode]
    split
    · exact .inl beyond
    · split
      · split
        · simp only [staysOutside, Bool.or_eq_true, Bool.and_eq_true, decide_eq_true_iff, beq_iff_eq] at here
          omega
        · exact ih others
      · exact ih others

/-- **No character from outside ASCII becomes an ASCII character other than `k`.** -/
theorem lowerCode_beyondAscii {n : Nat} (beyond : 128 ≤ n) :
    128 ≤ lowerCode Table.lowerRuns n ∨ lowerCode Table.lowerRuns n = 107 :=
  lowerCode_of_staysOutside (by decide +kernel) beyond

theorem isPlain_iff : isPlain d = true ↔ (0 < d.toNat ∧ d.toNat < 128) ∧ isUpperAscii d = false ∧ d ≠ 'k' := by
  simp [isPlain, and_assoc]

/-- A number that is no code point stands for the null character. -/
theorem ofNat_eq_iff {n : Nat} (positive : 0 < d.toNat) : Char.ofNat n = d ↔ n = d.toNat := by
  constructor
  · rintro rfl
    by_cases valid : n.isValidChar
    · rw [Char.ofNat, dif_pos valid]
      rfl
    · rw [Char.ofNat, dif_neg valid] at positive
      cases positive
  · rintro rfl
    exact Char.ofNat_toNat d

theorem lowerChar_eq_iff (plain : isPlain d = true) : lowerChar c = d ↔ InEitherCase c d := by
  obtain ⟨⟨positive, ascii⟩, small, other⟩ := isPlain_iff.mp plain
  rw [lowerChar, InEitherCase]
  by_cases upper : isUpperAscii c = true
  · have apart : c ≠ d := by
      rintro rfl
      exact Bool.false_ne_true (small.symm.trans upper)
    rw [if_pos upper, ofNat_eq_iff positive]
    simp [apart, upper]
  · by_cases beyond : beyondAscii c = true
    · have far : 128 ≤ c.toNat := of_decide_eq_true beyond
      have kelvin : d.toNat ≠ 107 := fun same => other (Char.toNat_inj.mp same)
      have code := lowerCode_beyondAscii far
      rw [if_neg upper, if_pos beyond, ofNat_eq_iff positive]
      constructor
      · omega
      · rintro (rfl | ⟨capital, -⟩)
        · omega
        · exact absurd capital upper
    · rw [if_neg upper, if_neg beyond]
      simp [upper]

/-- **What becomes a word in lower case** spells it, each letter in either case. -/
theorem lowerFrom_eq_iff (plain : ∀ d ∈ w, isPlain d = true) (before : List Char) :
    lowerFrom before s = w ↔ List.Forall₂ InEitherCase s w := by
  induction s generalizing before w with
  | nil => rw [lowerFrom, List.forall₂_nil_left_iff, eq_comm]
  | cons c s ih =>
    cases w with
    | nil =>
      have nonempty : lowerFrom before (c :: s) ≠ [] := by
        rw [lowerFrom]
        split
        · simp
        · split <;> simp
      exact iff_of_false nonempty (by simp)
    | cons d w =>
      have here := plain d List.mem_cons_self
      obtain ⟨⟨-, ascii⟩, -, -⟩ := isPlain_iff.mp here
      have rest (before : List Char) := ih (fun d mem => plain d (List.mem_cons_of_mem _ mem)) before
      rw [List.forall₂_cons, lowerFrom]
      split
      next sigma =>
        subst sigma
        have apart : ¬ InEitherCase '\u03A3' d := by
          rw [← lowerChar_eq_iff here]
          rintro rfl
          exact absurd ascii (by decide)
        have final (final : Char) (far : 128 ≤ final.toNat) : final ≠ d := by
          rintro rfl
          omega
        refine iff_of_false ?_ fun both => apart both.1
        rw [List.singleton_append, List.cons.injEq]
        rintro ⟨same, -⟩
        split at same
        · exact final _ (by decide) same
        · exact final _ (by decide) same
      next =>
        split
        next dotted =>
          subst dotted
          refine iff_of_false ?_ fun both => ?_
          · -- The dot that is left is no character of the word.
            intro same
            rw [List.cons_append, List.cons_append, List.cons.injEq] at same
            have dot := plain '\u0307' (same.2 ▸ List.mem_cons_of_mem _ List.mem_cons_self)
            exact absurd dot (by decide)
          · rcases both.1 with rfl | ⟨upper, -⟩
            · exact absurd ascii (by decide)
            · exact absurd upper (by decide)
        next =>
          rw [List.singleton_append, List.cons.injEq, lowerChar_eq_iff here, rest]

theorem lower_eq_iff {word : String} (plain : ∀ d ∈ word.toList, isPlain d = true) (text : String) :
    lower text = word ↔ List.Forall₂ InEitherCase text.toList word.toList := by
  rw [← lowerFrom_eq_iff plain [], lower, ← String.toList_inj, String.toList_ofList]

end

end SnippetAudit.Text
