import SnippetAudit.Style.Extract

/-!
The unit of indentation is a greatest common divisor.

Division with remainder finds the greatest common divisor of two widths (`commonDivisor_eq_gcd`). The widths
of the lines that start with a space are folded into one number, and a number divides it exactly if it divides
them all (`dvd_unitOf_iff`). So the order of the lines does not matter (`unitOf_congr`), and since each width
counts the space that the line starts with, no width is left out and the unit is never zero
(`indentation_gcd`).
-/

namespace SnippetAudit.Style

open Text

/-- A line starts with a character. -/
def Begins (c : Char) (line : String) : Prop := line.toList.head? = some c

instance (c : Char) : DecidablePred (Begins c) := fun line =>
  inferInstanceAs (Decidable (line.toList.head? = some c))

/-- The number of blanks that a line starts with. -/
def leadingBlanks (line : String) : Nat := (line.toList.takeWhile isBlank).length

/-! ### Common divisors -/

/-- Division with remainder finds the greatest common divisor. -/
theorem commonDivisor_eq_gcd (a b : Nat) : commonDivisor a b = Nat.gcd a b := by
  fun_induction commonDivisor a b with
  | case1 a => exact (Nat.gcd_zero_right a).symm
  | case2 a b _ ih =>
    calc
      commonDivisor b (a % b) = Nat.gcd b (a % b) := ih
      _ = Nat.gcd (a % b) b := Nat.gcd_comm _ _
      _ = Nat.gcd b a := (Nat.gcd_rec b a).symm
      _ = Nat.gcd a b := Nat.gcd_comm _ _

/-- **A number divides the divisor of some widths exactly if it divides them all.** -/
theorem dvd_foldl_commonDivisor_iff {d : Nat} (start : Nat) (widths : List Nat) :
    d ∣ widths.foldl commonDivisor start ↔ d ∣ start ∧ ∀ w ∈ widths, d ∣ w := by
  induction widths generalizing start with
  | nil => simp
  | cons w widths ih =>
    rw [List.foldl_cons, ih, commonDivisor_eq_gcd, Nat.dvd_gcd_iff, List.forall_mem_cons, and_assoc]

section Unit

variable {widths widths' : List Nat}

theorem unitOf_eq_four (zero : ∀ w ∈ widths, ¬ 0 < w) : unitOf widths = 4 := by
  have none : widths.filter (0 < ·) = [] := List.filter_eq_nil_iff.mpr (by simpa using zero)
  rw [unitOf, none]

/-- **The unit is the greatest common divisor of the widths** that are not zero. -/
theorem dvd_unitOf_iff (positive : ∃ w ∈ widths, 0 < w) {d : Nat} :
    d ∣ unitOf widths ↔ ∀ w ∈ widths, 0 < w → d ∣ w := by
  have all : (∀ w ∈ widths.filter (0 < ·), d ∣ w) ↔ ∀ w ∈ widths, 0 < w → d ∣ w := by simp
  rw [← all, unitOf]
  split
  next w rest here => rw [here, dvd_foldl_commonDivisor_iff, List.forall_mem_cons]
  next here =>
    obtain ⟨w, mem, above⟩ := positive
    exact absurd above (by simpa using List.filter_eq_nil_iff.mp here w mem)

/-- It depends on which widths there are, and neither on their order nor on how often one is there. -/
theorem unitOf_congr (same : ∀ w, w ∈ widths ↔ w ∈ widths') : unitOf widths = unitOf widths' := by
  by_cases positive : ∃ w ∈ widths, 0 < w
  · -- Each of the two divides all widths, and with them the other.
    have positive' : ∃ w ∈ widths', 0 < w := by simpa only [same] using positive
    have both : ∀ d, d ∣ unitOf widths ↔ d ∣ unitOf widths' := fun d => by
      simp only [dvd_unitOf_iff positive, dvd_unitOf_iff positive', same]
    exact Nat.dvd_antisymm ((both _).mp (Nat.dvd_refl _)) ((both _).mpr (Nat.dvd_refl _))
  · have zero : ∀ w ∈ widths, ¬ 0 < w := fun w mem above => positive ⟨w, mem, above⟩
    have zero' : ∀ w ∈ widths', ¬ 0 < w := fun w mem => zero w ((same w).mpr mem)
    rw [unitOf_eq_four zero, unitOf_eq_four zero']

end Unit

/-! ### Widths of lines -/

section Lines

variable {ls : List String} {w : Nat}

theorem tabLines_eq (ls : List String) : tabLines ls = ls.countP (Begins '\t' ·) := rfl

theorem spaceWidths_eq (ls : List String) :
    spaceWidths ls = ls.filterMap fun line =>
      if Begins ' ' line then some (leadingBlanks line) else none := rfl

theorem mem_spaceWidths_iff :
    w ∈ spaceWidths ls ↔ ∃ line ∈ ls, Begins ' ' line ∧ leadingBlanks line = w := by
  simp [spaceWidths_eq]

theorem length_spaceWidths (ls : List String) : (spaceWidths ls).length = ls.countP (Begins ' ' ·) := by
  rw [spaceWidths_eq, List.length_filterMap_eq_countP]
  refine List.countP_congr fun line _ => ?_
  by_cases begins : Begins ' ' line <;> simp [begins]

/-- A line that starts with a space has a blank in front. -/
theorem Begins.leadingBlanks_pos {line : String} (begins : Begins ' ' line) : 0 < leadingBlanks line := by
  obtain ⟨rest, split⟩ : ∃ rest, line.toList = ' ' :: rest := by
    rw [Begins, List.head?_eq_some_iff] at begins
    exact begins
  rw [leadingBlanks, split, List.takeWhile_cons_of_pos (by decide)]
  exact Nat.succ_pos _

/-- The widths of the lines that start with a space are not zero, so none is left out. -/
theorem dvd_unitOf_spaceWidths_iff (spaces : ∃ line ∈ ls, Begins ' ' line) {d : Nat} :
    d ∣ unitOf (spaceWidths ls) ↔ ∀ line ∈ ls, Begins ' ' line → d ∣ leadingBlanks line := by
  have positive : ∃ w ∈ spaceWidths ls, 0 < w := by
    obtain ⟨line, mem, begins⟩ := spaces
    exact ⟨_, mem_spaceWidths_iff.mpr ⟨line, mem, begins, rfl⟩, begins.leadingBlanks_pos⟩
  rw [dvd_unitOf_iff positive]
  constructor
  · exact fun all line mem begins =>
      all _ (mem_spaceWidths_iff.mpr ⟨line, mem, begins, rfl⟩) begins.leadingBlanks_pos
  · intro all w mem _
    obtain ⟨line, inside, begins, rfl⟩ := mem_spaceWidths_iff.mp mem
    exact all line inside begins

/-- Lines in another order have the same unit of indentation. -/
theorem indentation_perm {ls' : List String} (same : ls'.Perm ls) : indentation ls' = indentation ls := by
  have tabs : tabLines ls' = tabLines ls := same.countP_eq _
  have widths : (spaceWidths ls').Perm (spaceWidths ls) := same.filterMap _
  have unit : unitOf (spaceWidths ls') = unitOf (spaceWidths ls) := unitOf_congr fun _ => widths.mem_iff
  rw [indentation, indentation, tabs, widths.isEmpty_eq, widths.length_eq, unit]

/-- Where spaces are not outnumbered the unit is a divisor of widths. -/
theorem indentation_of_spaces (spaces : ∃ line ∈ ls, Begins ' ' line)
    (prevail : ls.countP (Begins '\t' ·) ≤ ls.countP (Begins ' ' ·)) :
    indentation ls = ⟨.spaces, unitOf (spaceWidths ls)⟩ := by
  obtain ⟨line, mem, begins⟩ := spaces
  have width : leadingBlanks line ∈ spaceWidths ls := mem_spaceWidths_iff.mpr ⟨line, mem, begins, rfl⟩
  have nonempty : (spaceWidths ls).isEmpty = false :=
    List.isEmpty_eq_false_iff.mpr (List.ne_nil_of_mem width)
  rw [← tabLines_eq, ← length_spaceWidths] at prevail
  simp only [indentation, nonempty, Bool.and_false, Bool.false_eq_true, if_false, Nat.not_lt.mpr prevail]

end Lines

/-- **The unit of indentation is the greatest common divisor of the widths** of the lines that start with a
space, where there are such lines and tabs do not outnumber them. In any case it does not depend on the
order of the lines. -/
theorem indentation_gcd (ls : List String) :
    ((∃ line ∈ ls, Begins ' ' line) → ls.countP (Begins '\t' ·) ≤ ls.countP (Begins ' ' ·) →
      ∃ size, indentation ls = ⟨.spaces, size⟩ ∧ 1 ≤ size ∧
        (∀ line ∈ ls, Begins ' ' line → size ∣ leadingBlanks line) ∧
        ∀ d, (∀ line ∈ ls, Begins ' ' line → d ∣ leadingBlanks line) → d ∣ size) ∧
    ∀ ls' : List String, ls'.Perm ls → indentation ls' = indentation ls := by
  refine ⟨fun spaces prevail => ?_, fun _ => indentation_perm⟩
  have divides : ∀ d, d ∣ unitOf (spaceWidths ls) ↔
      ∀ line ∈ ls, Begins ' ' line → d ∣ leadingBlanks line := fun d => dvd_unitOf_spaceWidths_iff spaces
  have size := (divides _).mp (Nat.dvd_refl _)
  refine ⟨_, indentation_of_spaces spaces prevail, ?_, size, fun d => (divides d).mpr⟩
  obtain ⟨line, mem, begins⟩ := spaces
  exact Nat.pos_of_dvd_of_pos (size line mem begins) begins.leadingBlanks_pos

/-- Two depths, and a line that starts with a tab. -/
theorem indentation_gcd_of_depths :
    let ls := ["def f():", "      a", "\tb", "         c"]
    (∃ line ∈ ls, Begins ' ' line) ∧ ls.countP (Begins '\t' ·) ≤ ls.countP (Begins ' ' ·) ∧
      (∃ size, indentation ls = ⟨.spaces, size⟩ ∧ 1 ≤ size ∧
        (∀ line ∈ ls, Begins ' ' line → size ∣ leadingBlanks line) ∧
        ∀ d, (∀ line ∈ ls, Begins ' ' line → d ∣ leadingBlanks line) → d ∣ size) ∧
      indentation ls.reverse = indentation ls := by
  intro ls
  have spaces : ∃ line ∈ ls, Begins ' ' line := ⟨"      a", by simp [ls], by decide⟩
  have prevail : ls.countP (Begins '\t' ·) ≤ ls.countP (Begins ' ' ·) := by decide
  exact ⟨spaces, prevail, (indentation_gcd ls).1 spaces prevail,
    (indentation_gcd ls).2 ls.reverse (List.reverse_perm ls)⟩

example : indentation ["def f():", "      a", "\tb", "         c"] = ⟨.spaces, 3⟩ := by decide +kernel

end SnippetAudit.Style
