import SnippetAudit.Text.Search

/-!
Where a search finds something.

A matcher may look at the character in front of a place. So it is found exactly where it matches what is
left of a text behind some beginning, with the last character of that beginning in front
(`occursFrom_iff_append`); a matcher that does not look back only needs the end (`occursFrom_iff`). A
search lists a start exactly where something is found (`starts_eq_nil_iff`).
-/

namespace SnippetAudit.Text

/-! ### Matchers -/

/-- The matches of a matcher are not empty and lie within the text. -/
def Sized (m : Matcher) : Prop := ∀ before s n, m before s = some n → 0 < n ∧ n ≤ s.length

/-- Every match stands on its own: it is found whatever stands before it. -/
def Free (m : Matcher) : Prop := ∀ before s, m before s = m none s

section Places

variable {m : Matcher} {before : Option Char} {s : List Char}

theorem Sized.ne_nil (sized : Sized m) (found : (m before s).isSome = true) : s ≠ [] := by
  rintro rfl
  obtain ⟨n, found⟩ := Option.isSome_iff_exists.mp found
  obtain ⟨positive, bound⟩ := sized before [] n found
  exact Nat.not_lt_zero 0 (Nat.lt_of_lt_of_le positive bound)

/-! ### Places -/

/-- The character in front of a place is the last one before it, if there is any. -/
theorem getLast?_cons_or {α : Type} (c : α) (pre : List α) (before : Option α) :
    (c :: pre).getLast?.or before = pre.getLast?.or (some c) := by
  rw [List.getLast?_cons, Option.some_or]
  cases pre.getLast? <;> rfl

/-- A search overlooks no match, whichever character it looks at in front of it. -/
theorem occursFrom_append {pre : List Char} (nonempty : s ≠ [])
    (found : (m (pre.getLast?.or before) s).isSome = true) : occursFrom m before (pre ++ s) = true := by
  induction pre generalizing before with
  | nil =>
    cases s with
    | nil => exact absurd rfl nonempty
    | cons c rest =>
      rw [List.getLast?_nil, Option.none_or] at found
      rw [List.nil_append, occursFrom, found, Bool.true_or]
  | cons c pre ih =>
    rw [List.cons_append, occursFrom, Bool.or_eq_true]
    exact .inr (ih (by rwa [getLast?_cons_or] at found))

/-- **A matcher is found exactly where it matches behind some beginning of a text.** -/
theorem occursFrom_iff_append :
    occursFrom m before s = true ↔ ∃ pre rest, s = pre ++ rest ∧ rest ≠ [] ∧
      (m (pre.getLast?.or before) rest).isSome = true := by
  constructor
  · intro found
    induction s generalizing before with
    | nil => cases found
    | cons c rest ih =>
      rw [occursFrom, Bool.or_eq_true] at found
      rcases found with here | later
      · exact ⟨[], c :: rest, rfl, List.cons_ne_nil c rest, here⟩
      · obtain ⟨pre, rest', rfl, nonempty, found⟩ := ih later
        exact ⟨c :: pre, rest', rfl, nonempty, by rwa [getLast?_cons_or]⟩
  · rintro ⟨pre, rest, rfl, nonempty, found⟩
    exact occursFrom_append nonempty found

/-- A free matcher is found exactly where it matches an end of a text. -/
theorem occursFrom_iff (free : Free m) (sized : Sized m) :
    occursFrom m before s = true ↔ ∃ rest, rest <:+ s ∧ (m none rest).isSome := by
  rw [occursFrom_iff_append]
  constructor
  · rintro ⟨pre, rest, rfl, -, found⟩
    exact ⟨rest, List.suffix_append pre rest, by rwa [free] at found⟩
  · rintro ⟨rest, ⟨pre, rfl⟩, found⟩
    exact ⟨pre, rest, rfl, sized.ne_nil found, by rwa [free]⟩

theorem occurs_iff (free : Free m) (sized : Sized m) :
    occurs m s = true ↔ ∃ rest, rest <:+ s ∧ (m none rest).isSome :=
  occursFrom_iff free sized

/-! ### Starts -/

theorem startsFrom_eq_nil_iff {at' : Nat} :
    startsFrom m before at' 0 s = [] ↔ occursFrom m before s = false := by
  induction s generalizing before at' with
  | nil => exact iff_of_true rfl rfl
  | cons c rest ih =>
    rw [startsFrom, occursFrom]
    cases m before (c :: rest) with
    | none => exact ih
    | some n => exact iff_of_false (List.cons_ne_nil _ _) (by simp)

/-- A search starts nowhere exactly where nothing is found. -/
theorem starts_eq_nil_iff : starts m s = [] ↔ occurs m s = false := startsFrom_eq_nil_iff

end Places

/-! ### Fixed texts -/

theorem isSome_literal_iff {needle s : List Char} {before : Option Char} :
    (literal needle before s).isSome = true ↔ needle <+: s := by
  rw [literal, ← List.isPrefixOf_iff_prefix]
  split <;> simp_all

theorem sized_literal {needle : List Char} (nonempty : needle ≠ []) : Sized (literal needle) := by
  intro _ s n found
  obtain ⟨front, rfl⟩ : needle <+: s ∧ needle.length = n := by simpa [literal] using found
  exact ⟨List.length_pos_iff.mpr nonempty, front.length_le⟩

/-- A fixed text is found wherever it stands. -/
theorem contains_iff {needle hay : String} :
    contains needle hay = true ↔ needle.toList <:+: hay.toList := by
  rw [contains, Bool.or_eq_true, String.isEmpty_iff, ← String.toList_eq_nil_iff]
  by_cases nonempty : needle.toList = []
  · rw [nonempty]
    exact iff_of_true (.inl rfl) List.nil_infix
  · rw [or_iff_right nonempty, occurs_iff (fun _ _ => rfl) (sized_literal nonempty)]
    simp only [isSome_literal_iff, List.infix_iff_prefix_suffix, and_comm]

end SnippetAudit.Text
