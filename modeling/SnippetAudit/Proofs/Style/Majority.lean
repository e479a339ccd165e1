import SnippetAudit.Style.Extract

/-!
Majorities.

Counts are compared from left to right, and a later one takes the place of the best so far only if it is
greater. So the value is chosen that stands first among those with the greatest count
(`majority_eq_some_iff`), and none if all counts are zero (`majority_eq_none_iff`).
-/

namespace SnippetAudit.Style

variable {α : Type} {counts : List (α × Nat)} {v : α}

/-- A value prevails if its count is not zero, all counts in front of it are smaller, and none behind it is
greater. -/
def Prevails (counts : List (α × Nat)) (v : α) : Prop :=
  ∃ front n behind, counts = front ++ (v, n) :: behind ∧ 0 < n ∧
    (∀ e ∈ front, e.2 < n) ∧ ∀ e ∈ behind, e.2 ≤ n

/-- The better of the best entry so far and another one. -/
def better (best : Option (α × Nat)) (candidate : α × Nat) : Option (α × Nat) :=
  if (best.map (·.2)).getD 0 < candidate.2 then some candidate else best

theorem majority_eq (counts : List (α × Nat)) : majority counts = (counts.foldl better none).map (·.1) := rfl

/-- The best entry is the one that was best so far, if no other is greater, or one that all in front of it
are smaller than. -/
theorem foldl_better_eq_some_iff {best : Option (α × Nat)} {n : Nat} :
    counts.foldl better best = some (v, n) ↔
      (best = some (v, n) ∧ ∀ e ∈ counts, e.2 ≤ n) ∨
      ∃ front behind, counts = front ++ (v, n) :: behind ∧ (best.map (·.2)).getD 0 < n ∧
        (∀ e ∈ front, e.2 < n) ∧ ∀ e ∈ behind, e.2 ≤ n := by
  induction counts generalizing best with
  | nil => simp
  | cons e rest ih =>
    rw [List.foldl_cons, ih, better]
    -- An entry that is not greater than the best so far is passed over, and any other takes its place.
    by_cases less : (best.map (·.2)).getD 0 < e.2
    · rw [if_pos less]
      constructor
      · rintro (⟨here, least⟩ | ⟨front, behind, rfl, greater, smaller, least⟩)
        · obtain rfl := Option.some.inj here
          exact .inr ⟨[], rest, rfl, less, by simp, least⟩
        · exact .inr ⟨e :: front, behind, rfl, Nat.lt_trans less greater,
            List.forall_mem_cons.mpr ⟨greater, smaller⟩, least⟩
      · rintro (⟨rfl, least⟩ | ⟨front, behind, split, greater, smaller, least⟩)
        · exact absurd less (Nat.not_lt.mpr (least e List.mem_cons_self))
        · cases front with
          | nil =>
            obtain ⟨rfl, rfl⟩ := List.cons.inj split
            exact .inl ⟨rfl, least⟩
          | cons d front =>
            obtain ⟨rfl, rfl⟩ := List.cons.inj split
            obtain ⟨first, smaller⟩ := List.forall_mem_cons.mp smaller
            exact .inr ⟨front, behind, rfl, first, smaller, least⟩
    · rw [if_neg less]
      constructor
      · rintro (⟨rfl, least⟩ | ⟨front, behind, rfl, greater, smaller, least⟩)
        · exact .inl ⟨rfl, List.forall_mem_cons.mpr ⟨Nat.not_lt.mp less, least⟩⟩
        · exact .inr ⟨e :: front, behind, rfl, greater,
            List.forall_mem_cons.mpr ⟨Nat.lt_of_le_of_lt (Nat.not_lt.mp less) greater, smaller⟩, least⟩
      · rintro (⟨rfl, least⟩ | ⟨front, behind, split, greater, smaller, least⟩)
        · exact .inl ⟨rfl, (List.forall_mem_cons.mp least).2⟩
        · cases front with
          | nil =>
            obtain ⟨rfl, rfl⟩ := List.cons.inj split
            exact absurd greater less
          | cons d front =>
            obtain ⟨rfl, rfl⟩ := List.cons.inj split
            exact .inr ⟨front, behind, rfl, greater, (List.forall_mem_cons.mp smaller).2, least⟩

theorem foldl_better_eq_none_iff {best : Option (α × Nat)} :
    counts.foldl better best = none ↔ best = none ∧ ∀ e ∈ counts, e.2 = 0 := by
  induction counts generalizing best with
  | nil => simp
  | cons e rest ih =>
    have step : better best e = none ↔ best = none ∧ e.2 = 0 := by
      cases best with
      | none => simp [better, Nat.pos_iff_ne_zero]
      | some b =>
        rw [better]
        split <;> simp
    rw [List.foldl_cons, ih, step, List.forall_mem_cons, and_assoc]

/-- **The majority is what prevails.** -/
theorem majority_eq_some_iff : majority counts = some v ↔ Prevails counts v := by
  rw [majority_eq, Option.map_eq_some_iff]
  constructor
  · rintro ⟨⟨v, n⟩, best, rfl⟩
    obtain ⟨none', -⟩ | ⟨front, behind, split, positive, smaller, least⟩ := foldl_better_eq_some_iff.mp best
    · cases none'
    · exact ⟨front, n, behind, split, positive, smaller, least⟩
  · rintro ⟨front, n, behind, split, positive, smaller, least⟩
    exact ⟨(v, n), foldl_better_eq_some_iff.mpr (.inr ⟨front, behind, split, positive, smaller, least⟩), rfl⟩

/-- There is none exactly if nothing was counted. -/
theorem majority_eq_none_iff : majority counts = none ↔ ∀ e ∈ counts, e.2 = 0 := by
  rw [majority_eq, Option.map_eq_none_iff, foldl_better_eq_none_iff, and_iff_right rfl]

end SnippetAudit.Style
