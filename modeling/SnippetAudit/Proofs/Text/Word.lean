import SnippetAudit.Text.Character

/-!
The words of a text.

A word is a longest run of word characters. So a text is cut at the other characters, and its words are the
pieces that are not empty (`words`). Up to the first of the other characters there is one word or none
(`word_induction`, `words_append_cons`).
-/

namespace SnippetAudit.Text

/-- The words of a text, from left to right. -/
def words (s : List Char) : List (List Char) :=
  (s.splitOnP fun c => !isWordChar c).filter fun piece => !piece.isEmpty

/-- Nothing but word characters. -/
def WordChars (w : List Char) : Prop := ∀ c ∈ w, isWordChar c = true

/-- No word goes on here. -/
def EndsWord (s : List Char) : Prop := ∀ c ∈ s.head?, isWordChar c = false

section

variable {c : Char} {s t w : List Char}

theorem words_nil : words [] = [] := by simp [words]

/-- Word characters alone are one word. -/
theorem words_eq_singleton (chars : WordChars w) (nonempty : w ≠ []) : words w = [w] := by
  rw [words, List.splitOnP_eq_singleton fun c mem => by simp [chars c mem]]
  simp [nonempty]

/-- **The words on both sides of a character that belongs to none.** -/
theorem words_append_cons (other : isWordChar c = false) (s t : List Char) :
    words (s ++ c :: t) = words s ++ words t := by
  rw [words, List.splitOnP_append_cons s t (by simp [other]), List.filter_append]
  rfl

/-- **Induction along the words of a text**: in front of the first character that belongs to no word there
are word characters only. -/
@[elab_as_elim]
theorem word_induction {motive : List Char → Prop} (last : ∀ w, WordChars w → motive w)
    (next : ∀ w c t, WordChars w → isWordChar c = false → motive t → motive (w ++ c :: t))
    (s : List Char) : motive s := by
  have behind : ∀ w, WordChars w → motive (w ++ s) := by
    induction s with
    | nil => exact fun w chars => by simpa using last w chars
    | cons c t ih =>
      intro w chars
      cases other : isWordChar c with
      | false => exact next w c t chars other (by simpa using ih [] (by simp [WordChars]))
      | true =>
        have more : WordChars (w ++ [c]) := by
          intro d mem
          rcases List.mem_append.mp mem with inside | here
          · exact chars d inside
          · rw [List.mem_singleton.mp here, other]
        simpa using ih (w ++ [c]) more
  simpa using behind [] (by simp [WordChars])

/-- What does not go on with some characters ends where they do. -/
theorem takeWhile_append_of_head? {p : Char → Bool} (inside : ∀ c ∈ s, p c = true)
    (behind : ∀ c ∈ t.head?, p c = false) : (s ++ t).takeWhile p = s := by
  have stop : t.takeWhile p = [] := by
    cases t with
    | nil => rfl
    | cons c rest => simp [behind c rfl]
  rw [List.takeWhile_append_of_pos inside, stop, List.append_nil]

theorem EndsWord.takeWhile (ends : EndsWord t) (chars : WordChars w) : (w ++ t).takeWhile isWordChar = w :=
  takeWhile_append_of_head? chars ends

/-- A text begins with word characters, and behind them no word goes on. -/
theorem exists_word (s : List Char) : ∃ w t, s = w ++ t ∧ WordChars w ∧ EndsWord t ∧ s.takeWhile isWordChar = w := by
  induction s using word_induction with
  | last w chars =>
    have ends : EndsWord [] := by simp [EndsWord]
    exact ⟨w, [], (List.append_nil w).symm, chars, ends, by simpa using ends.takeWhile chars⟩
  | next w c t chars other _ =>
    have ends : EndsWord (c :: t) := by simp [EndsWord, other]
    exact ⟨w, c :: t, rfl, chars, ends, ends.takeWhile chars⟩

end

end SnippetAudit.Text
