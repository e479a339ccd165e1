import SnippetAudit.Proofs.Style.Majority
import SnippetAudit.Proofs.Text.Piecewise
import SnippetAudit.Proofs.Text.Word

/-!
Names are counted as whole words.

A matcher for names starts and ends where a word does, so it matches exactly the words of its shape
(`MatchesWords`), and no match goes across a character that belongs to no word. So a search finds as many
matches as there are words of the shape (`MatchesWords.countMatches_eq`), and the prevailing shape of names
depends on the words of a text only, and not on their order (`naming_of_words`).
-/

namespace SnippetAudit.Style

open Text

/-! ### Shapes -/

/-- Lowercase letters, an underscore, and then lowercase letters or underscores. -/
def IsSnake (w : List Char) : Prop :=
  ∃ lead more, w = lead ++ '_' :: more ∧ lead ≠ [] ∧ more ≠ [] ∧
    (∀ c ∈ lead, isLowerAscii c = true) ∧ ∀ c ∈ more, isSnakeChar c = true

/-- Lowercase letters, an uppercase one, and then letters of either case. -/
def IsCamel (w : List Char) : Prop :=
  ∃ lead c more, w = lead ++ c :: more ∧ lead ≠ [] ∧
    (∀ d ∈ lead, isLowerAscii d = true) ∧ isUpperAscii c = true ∧ ∀ d ∈ more, isAsciiLetter d = true

/-- An uppercase letter and a word of lowercase letters that goes on with an uppercase one. -/
def IsPascal (w : List Char) : Prop := ∃ c more, w = c :: more ∧ isUpperAscii c = true ∧ IsCamel more

section Shapes

variable {c : Char} {w : List Char}

theorem isWordChar_of_isAsciiLetter (letter : isAsciiLetter c = true) : isWordChar c = true := by
  simp [isWordChar, letter]

theorem isAsciiLetter_of_isLowerAscii (lower : isLowerAscii c = true) : isAsciiLetter c = true := by
  simp [isAsciiLetter, lower]

theorem isAsciiLetter_of_isUpperAscii (upper : isUpperAscii c = true) : isAsciiLetter c = true := by
  simp [isAsciiLetter, upper]

theorem isWordChar_of_isSnakeChar (snake : isSnakeChar c = true) : isWordChar c = true := by
  rw [isSnakeChar, Bool.or_eq_true, decide_eq_true_iff] at snake
  rcases snake with lower | rfl
  · exact isWordChar_of_isAsciiLetter (isAsciiLetter_of_isLowerAscii lower)
  · rfl

theorem not_isUpperAscii_of_isLowerAscii (lower : isLowerAscii c = true) : isUpperAscii c = false := by
  simp only [isLowerAscii, isUpperAscii, Bool.and_eq_true, Bool.and_eq_false_iff, decide_eq_true_iff,
    decide_eq_false_iff_not, Char.le_def, UInt32.le_iff_toNat_le] at lower ⊢
  have letters : ('Z' : Char).val.toNat < ('a' : Char).val.toNat := by decide
  omega

theorem IsCamel.letters (camel : IsCamel w) : ∀ c ∈ w, isAsciiLetter c = true := by
  obtain ⟨lead, c, more, rfl, -, lower, upper, letters⟩ := camel
  intro d mem
  rcases List.mem_append.mp mem with inLead | inRest
  · exact isAsciiLetter_of_isLowerAscii (lower d inLead)
  · rcases List.mem_cons.mp inRest with rfl | inMore
    · exact isAsciiLetter_of_isUpperAscii upper
    · exact letters d inMore

theorem IsPascal.letters (pascal : IsPascal w) : ∀ c ∈ w, isAsciiLetter c = true := by
  obtain ⟨c, more, rfl, upper, camel⟩ := pascal
  intro d mem
  rcases List.mem_cons.mp mem with rfl | inMore
  · exact isAsciiLetter_of_isUpperAscii upper
  · exact camel.letters d inMore

theorem IsSnake.wordChars (snake : IsSnake w) : WordChars w := by
  obtain ⟨lead, more, rfl, -, -, lower, rest⟩ := snake
  intro d mem
  rcases List.mem_append.mp mem with inLead | inRest
  · exact isWordChar_of_isAsciiLetter (isAsciiLetter_of_isLowerAscii (lower d inLead))
  · rcases List.mem_cons.mp inRest with rfl | inMore
    · rfl
    · exact isWordChar_of_isSnakeChar (rest d inMore)

/-- Words in snake case and in camel case begin with a lowercase letter. -/
theorem IsSnake.head? (snake : IsSnake w) : ∃ c ∈ w.head?, isLowerAscii c = true := by
  obtain ⟨lead, more, rfl, nonempty, -, lower, -⟩ := snake
  obtain ⟨c, lead, rfl⟩ := List.exists_cons_of_ne_nil nonempty
  exact ⟨c, rfl, lower c List.mem_cons_self⟩

theorem IsCamel.head? (camel : IsCamel w) : ∃ c ∈ w.head?, isLowerAscii c = true := by
  obtain ⟨lead, d, more, rfl, nonempty, lower, -⟩ := camel
  obtain ⟨c, lead, rfl⟩ := List.exists_cons_of_ne_nil nonempty
  exact ⟨c, rfl, lower c List.mem_cons_self⟩

/-- A word has an underscore in snake case only. -/
theorem IsSnake.not_letters (snake : IsSnake w) : ¬ ∀ c ∈ w, isAsciiLetter c = true := by
  obtain ⟨lead, more, rfl, -⟩ := snake
  intro letters
  exact absurd (letters '_' (by simp)) (by decide)

/-- A word in Pascal case begins with an uppercase letter. -/
theorem IsPascal.not_lower (pascal : IsPascal w) : ¬ ∃ c ∈ w.head?, isLowerAscii c = true := by
  obtain ⟨c, more, rfl, upper, -⟩ := pascal
  rintro ⟨d, mem, lower⟩
  obtain rfl := Option.some.inj mem
  exact Bool.false_ne_true ((not_isUpperAscii_of_isLowerAscii lower).symm.trans upper)

/-- **No word has two shapes.** -/
theorem shapes_exclusive (w : List Char) :
    ¬ (IsSnake w ∧ IsCamel w) ∧ ¬ (IsSnake w ∧ IsPascal w) ∧ ¬ (IsCamel w ∧ IsPascal w) :=
  ⟨fun both => both.1.not_letters both.2.letters, fun both => both.1.not_letters both.2.letters,
    fun both => both.2.not_lower both.1.head?⟩

end Shapes

/-! ### Matchers of words -/

/-- A matcher finds the words of some shape: where a word can start it takes a word of this shape, if no
longer one stands there. -/
structure MatchesWords (shape : List Char → Prop) (m : Matcher) : Prop where
  nonempty : ¬ shape []
  wordChars : ∀ {w}, shape w → WordChars w
  eq_some_iff : ∀ {before s n}, m before s = some n ↔
    wordStarts before = true ∧ ∃ w t, s = w ++ t ∧ shape w ∧ EndsWord t ∧ n = w.length

namespace MatchesWords

variable {shape : List Char → Prop} {m : Matcher} {before : Option Char} {s w : List Char} {n : Nat}

/-- Only the word counts that stands at a place, and not what is behind it. -/
theorem eq_some_iff_takeWhile (h : MatchesWords shape m) :
    m before s = some n ↔ wordStarts before = true ∧ shape (s.takeWhile isWordChar) ∧
      n = (s.takeWhile isWordChar).length := by
  rw [h.eq_some_iff]
  refine and_congr_right fun _ => ⟨?_, ?_⟩
  · rintro ⟨w, t, rfl, shaped, ends, rfl⟩
    rw [ends.takeWhile (h.wordChars shaped)]
    exact ⟨shaped, rfl⟩
  · rintro ⟨shaped, rfl⟩
    obtain ⟨w, t, split, -, ends, word⟩ := exists_word s
    rw [word] at shaped ⊢
    exact ⟨w, t, split, shaped, ends, rfl⟩

/-- A matcher takes a word as a whole if it has the shape. -/
theorem eq_some_length_iff (h : MatchesWords shape m) : m none w = some w.length ↔ shape w := by
  rw [h.eq_some_iff]
  constructor
  · rintro ⟨-, w, t, rfl, shaped, -, long⟩
    obtain rfl : t = [] := by simpa using long
    rwa [List.append_nil]
  · exact fun shaped => ⟨rfl, w, [], (List.append_nil w).symm, shaped, by simp [EndsWord], rfl⟩

theorem sized (h : MatchesWords shape m) : Sized m := by
  intro before s n found
  obtain ⟨-, w, t, rfl, shaped, -, rfl⟩ := h.eq_some_iff.mp found
  have nonempty : w ≠ [] := by
    rintro rfl
    exact h.nonempty shaped
  exact ⟨List.length_pos_iff.mpr nonempty, by simp⟩

/-- **No match goes across a character that belongs to no word.** -/
theorem stopsAt (h : MatchesWords shape m) {c : Char} (other : isWordChar c = false) : StopsAt c m where
  front before s t := by
    have same : (s ++ c :: t).takeWhile isWordChar = s.takeWhile isWordChar := by
      obtain ⟨w, rest, rfl, chars, ends, -⟩ := exists_word s
      have ends' : EndsWord (rest ++ c :: t) := by
        cases rest with
        | nil => simp [EndsWord, other]
        | cons d rest => exact ends
      rw [List.append_assoc, ends'.takeWhile chars, ends.takeWhile chars]
    ext n
    rw [h.eq_some_iff_takeWhile, h.eq_some_iff_takeWhile, same]
  behind s := by
    ext n
    rw [h.eq_some_iff_takeWhile, h.eq_some_iff_takeWhile]
    simp [wordStarts, other]

/-- Nothing is found inside a word. -/
theorem starts_inside (h : MatchesWords shape m) {c : Char} (word : isWordChar c = true)
    (chars : WordChars s) (at' : Nat) : startsFrom m (some c) at' 0 s = [] := by
  rw [startsFrom_eq_nil_iff, Bool.eq_false_iff]
  intro found
  obtain ⟨pre, rest, rfl, -, found⟩ := occursFrom_iff_append.mp found
  obtain ⟨n, found⟩ := Option.isSome_iff_exists.mp found
  -- In front of every place inside a word a word character stands, and there no word can start.
  have starts := (h.eq_some_iff.mp found).1
  cases last : pre.getLast? with
  | none => simp [last, wordStarts, word] at starts
  | some d =>
    have inside : isWordChar d = true :=
      chars d (List.mem_append_left rest (List.mem_of_getLast? last))
    simp [last, wordStarts, inside] at starts

variable [DecidablePred shape]

theorem countMatches_of_wordChars (h : MatchesWords shape m) (chars : WordChars w) :
    countMatches m w = (words w).countP (shape ·) := by
  cases w with
  | nil => rw [words_nil]; rfl
  | cons c rest =>
    have inside := h.starts_inside (s := rest) (chars c List.mem_cons_self)
      fun d mem => chars d (List.mem_cons_of_mem c mem)
    rw [words_eq_singleton chars (List.cons_ne_nil c rest), List.countP_singleton, countMatches, starts]
    by_cases shaped : shape (c :: rest)
    · rw [startsFrom_of_some (h.eq_some_length_iff.mpr shaped)]
      simp [shaped, startsFrom]
    · -- A match would have to be the whole word.
      have missed : m none (c :: rest) = none := by
        rw [Option.eq_none_iff_forall_ne_some]
        intro n found
        have whole : (c :: rest).takeWhile isWordChar = c :: rest := by
          simpa using EndsWord.takeWhile (t := []) (by simp [EndsWord]) chars
        exact shaped (whole ▸ (h.eq_some_iff_takeWhile.mp found).2.1)
      rw [startsFrom_of_none missed, inside]
      simp [shaped]

/-- **A search finds as many matches as a text has words of the shape.** -/
theorem countMatches_eq (h : MatchesWords shape m) (s : List Char) :
    countMatches m s = (words s).countP (shape ·) := by
  induction s using word_induction with
  | last w chars => exact h.countMatches_of_wordChars chars
  | next w c t chars other ih =>
    rw [countMatches_append_cons (h.stopsAt other) h.sized, words_append_cons other, List.countP_append,
      h.countMatches_of_wordChars chars, ih]

end MatchesWords

/-! ### The matchers of the three shapes -/

section Matchers

variable {before : Option Char} {s : List Char} {n : Nat}

/-- A match ends where no word goes on. -/
theorem wordEnds_eq_some_iff {k : Nat} : wordEnds k s = some n ↔ EndsWord s ∧ k = n := by
  cases s with
  | nil => simp [wordEnds, EndsWord]
  | cons c rest => cases word : isWordChar c <;> simp [wordEnds, EndsWord, word]

/-- A list begins with all its characters of some class. -/
theorem eq_takeWhile_append_drop (p : Char → Bool) (s : List Char) :
    s = s.takeWhile p ++ s.drop (s.takeWhile p).length :=
  (List.prefix_iff_eq_append.mp (List.takeWhile_prefix p)).symm

theorem of_mem_takeWhile {p : Char → Bool} {c : Char} (mem : c ∈ s.takeWhile p) : p c = true :=
  List.all_eq_true.mp List.all_takeWhile c mem

/-- The end of a word: characters of some class, behind which no word goes on. -/
theorem wordEnds_takeWhile_iff {p : Char → Bool} (word : ∀ c, p c = true → isWordChar c = true) {k : Nat} :
    wordEnds (k + (s.takeWhile p).length) (s.drop (s.takeWhile p).length) = some n ↔
      ∃ more t, s = more ++ t ∧ (∀ c ∈ more, p c = true) ∧ EndsWord t ∧ n = k + more.length := by
  rw [wordEnds_eq_some_iff]
  constructor
  · rintro ⟨ends, rfl⟩
    exact ⟨_, _, eq_takeWhile_append_drop p s, fun c => of_mem_takeWhile, ends, rfl⟩
  · rintro ⟨more, t, rfl, inside, ends, rfl⟩
    have stop : ∀ c ∈ t.head?, p c = false := fun c mem =>
      Bool.eq_false_iff.mpr fun found => Bool.false_ne_true ((ends c mem).symm.trans (word c found))
    rw [takeWhile_append_of_head? inside stop, List.drop_left]
    exact ⟨ends, rfl⟩

theorem matchesWords_snakeWord : MatchesWords IsSnake snakeWord where
  nonempty snake := by
    obtain ⟨c, mem, -⟩ := snake.head?
    cases mem
  wordChars := IsSnake.wordChars
  eq_some_iff {before s n} := by
    constructor
    · intro found
      have split := eq_takeWhile_append_drop isLowerAscii s
      simp only [snakeWord] at found
      split at found
      next begins =>
        rw [Bool.and_eq_true, Bool.not_eq_true', List.isEmpty_eq_false_iff] at begins
        split at found
        next c rest here =>
          split at found
          next snake =>
            obtain ⟨more, t, rfl, inside, ends, rfl⟩ :=
              (wordEnds_takeWhile_iff fun _ => isWordChar_of_isSnakeChar).mp found
            rw [here] at split
            refine ⟨begins.1, s.takeWhile isLowerAscii ++ '_' :: c :: more, t, by simpa using split,
              ⟨_, c :: more, rfl, begins.2, List.cons_ne_nil c more, fun d => of_mem_takeWhile, ?_⟩,
              ends, by simp; omega⟩
            simpa [snake] using inside
          next => cases found
        next => cases found
      next => cases found
    · rintro ⟨starts, w, t, rfl, ⟨lead, more, rfl, nonempty, behind, lower, snake⟩, ends, rfl⟩
      obtain ⟨c, more, rfl⟩ := List.exists_cons_of_ne_nil behind
      obtain ⟨first, others⟩ := List.forall_mem_cons.mp snake
      have front : (lead ++ '_' :: c :: (more ++ t)).takeWhile isLowerAscii = lead :=
        takeWhile_append_of_head? lower (by simp; decide)
      have last := (wordEnds_takeWhile_iff (k := lead.length + 2) fun _ => isWordChar_of_isSnakeChar).mpr
        ⟨more, t, rfl, others, ends, rfl⟩
      simp only [List.append_assoc, List.cons_append, snakeWord, front, List.drop_left, starts, first,
        List.isEmpty_eq_false_iff.mpr nonempty, last]
      simp; omega

theorem matchesWords_camelWord : MatchesWords IsCamel camelWord where
  nonempty camel := by
    obtain ⟨c, mem, -⟩ := camel.head?
    cases mem
  wordChars camel c mem := isWordChar_of_isAsciiLetter (camel.letters c mem)
  eq_some_iff {before s n} := by
    constructor
    · intro found
      have split := eq_takeWhile_append_drop isLowerAscii s
      simp only [camelWord] at found
      split at found
      next begins =>
        rw [Bool.and_eq_true, Bool.not_eq_true', List.isEmpty_eq_false_iff] at begins
        split at found
        next c rest here =>
          split at found
          next upper =>
            obtain ⟨more, t, rfl, letters, ends, rfl⟩ :=
              (wordEnds_takeWhile_iff fun _ => isWordChar_of_isAsciiLetter).mp found
            rw [here] at split
            exact ⟨begins.1, s.takeWhile isLowerAscii ++ c :: more, t, by simpa using split,
              ⟨_, c, more, rfl, begins.2, fun d => of_mem_takeWhile, upper, letters⟩, ends, by simp; omega⟩
          next => cases found
        next => cases found
      next => cases found
    · rintro ⟨starts, w, t, rfl, ⟨lead, c, more, rfl, nonempty, lower, upper, letters⟩, ends, rfl⟩
      have front : (lead ++ c :: (more ++ t)).takeWhile isLowerAscii = lead := by
        refine takeWhile_append_of_head? lower fun d mem => ?_
        obtain rfl := Option.some.inj mem
        exact Bool.eq_false_iff.mpr fun found =>
          Bool.false_ne_true ((not_isUpperAscii_of_isLowerAscii found).symm.trans upper)
      have last := (wordEnds_takeWhile_iff (k := lead.length + 1) fun _ => isWordChar_of_isAsciiLetter).mpr
        ⟨more, t, rfl, letters, ends, rfl⟩
      simp only [List.append_assoc, List.cons_append, camelWord, front, List.drop_left, starts, upper,
        List.isEmpty_eq_false_iff.mpr nonempty, last]
      simp; omega

/-- A word in Pascal case is found where one in camel case is behind its first letter. -/
theorem pascalWord_cons (before : Option Char) (first : Char) (behind : List Char) :
    pascalWord before (first :: behind) =
      if wordStarts before = true ∧ isUpperAscii first = true then (camelWord none behind).map (· + 1)
      else none := by
  have one_more : ∀ k t, (wordEnds k t).map (· + 1) = wordEnds (k + 1) t := by
    intro k t
    cases t with
    | nil => rfl
    | cons c rest => cases word : isWordChar c <;> simp [wordEnds, word]
  simp only [pascalWord, camelWord]
  by_cases begins : wordStarts before = true ∧ isUpperAscii first = true
  · rw [if_pos begins, begins.1, begins.2]
    simp only [wordStarts, Bool.true_and]
    split
    · split
      next c rest here =>
        split
        · rw [one_more]
          congr 1
          omega
        · rfl
      next => rfl
    · rfl
  · rw [if_neg begins, if_neg]
    simp only [Bool.and_eq_true] at begins ⊢
    exact fun all => begins all.1

theorem matchesWords_pascalWord : MatchesWords IsPascal pascalWord where
  nonempty := by
    rintro ⟨c, more, empty, -⟩
    cases empty
  wordChars pascal c mem := isWordChar_of_isAsciiLetter (pascal.letters c mem)
  eq_some_iff {before s n} := by
    constructor
    · intro found
      cases s with
      | nil => cases found
      | cons first behind =>
        rw [pascalWord_cons] at found
        split at found
        next begins =>
          obtain ⟨k, rest, rfl⟩ := Option.map_eq_some_iff.mp found
          obtain ⟨-, w, t, rfl, camel, ends, rfl⟩ := matchesWords_camelWord.eq_some_iff.mp rest
          exact ⟨begins.1, first :: w, t, rfl, ⟨first, w, rfl, begins.2, camel⟩, ends, rfl⟩
        next => cases found
    · rintro ⟨starts, w, t, rfl, ⟨first, more, rfl, upper, camel⟩, ends, rfl⟩
      have behind : camelWord none (more ++ t) = some more.length :=
        matchesWords_camelWord.eq_some_iff.mpr ⟨rfl, more, t, rfl, camel, ends, rfl⟩
      rw [List.cons_append, pascalWord_cons, if_pos ⟨starts, upper⟩, behind]
      rfl

instance : DecidablePred IsSnake := fun w =>
  decidable_of_iff (snakeWord none w = some w.length) matchesWords_snakeWord.eq_some_length_iff

instance : DecidablePred IsCamel := fun w =>
  decidable_of_iff (camelWord none w = some w.length) matchesWords_camelWord.eq_some_length_iff

instance : DecidablePred IsPascal := fun w =>
  decidable_of_iff (pascalWord none w = some w.length) matchesWords_pascalWord.eq_some_length_iff

end Matchers

/-! ### Names -/

/-- How many words have which shape. -/
def shapeCounts (ws : List (List Char)) : List (Naming × Nat) := [
  (.snakeCase, ws.countP (IsSnake ·)),
  (.camelCase, ws.countP (IsCamel ·)),
  (.pascalCase, ws.countP (IsPascal ·))]

theorem naming_eq (code : String) :
    naming code = (majority (shapeCounts (words code.toList))).getD .mixed := by
  rw [naming, matchesWords_snakeWord.countMatches_eq, matchesWords_camelWord.countMatches_eq,
    matchesWords_pascalWord.countMatches_eq]
  rfl

theorem shapeCounts_perm {ws ws' : List (List Char)} (same : ws.Perm ws') :
    shapeCounts ws = shapeCounts ws' := by
  rw [shapeCounts, same.countP_eq, same.countP_eq, same.countP_eq, shapeCounts]

theorem majority_shapeCounts_ne_mixed (ws : List (List Char)) : majority (shapeCounts ws) ≠ some .mixed := by
  intro mixed
  obtain ⟨front, n, behind, split, -⟩ := majority_eq_some_iff.mp mixed
  have mem : (Naming.mixed, n) ∈ shapeCounts ws := split ▸ List.mem_append_right front List.mem_cons_self
  simp [shapeCounts] at mem

/-- **Names are counted as whole words.** A search for names of each shape finds as many as there are words
of the shape, and no word has two shapes. The shape of names is the first of the three with the greatest
count, and mixed if there is no word of any. So two texts with the same words, in whatever order, have the
same shape of names. -/
theorem naming_of_words (code : String) :
    (countMatches snakeWord code.toList = (words code.toList).countP (IsSnake ·) ∧
      countMatches camelWord code.toList = (words code.toList).countP (IsCamel ·) ∧
      countMatches pascalWord code.toList = (words code.toList).countP (IsPascal ·)) ∧
    (∀ w, ¬ (IsSnake w ∧ IsCamel w) ∧ ¬ (IsSnake w ∧ IsPascal w) ∧ ¬ (IsCamel w ∧ IsPascal w)) ∧
    (∀ v, v ≠ .mixed → (naming code = v ↔ Prevails (shapeCounts (words code.toList)) v)) ∧
    (naming code = .mixed ↔ ∀ e ∈ shapeCounts (words code.toList), e.2 = 0) ∧
    ∀ other : String, (words other.toList).Perm (words code.toList) → naming other = naming code := by
  refine ⟨⟨matchesWords_snakeWord.countMatches_eq _, matchesWords_camelWord.countMatches_eq _,
    matchesWords_pascalWord.countMatches_eq _⟩, shapes_exclusive, ?_, ?_, ?_⟩
  · intro v clear
    rw [← majority_eq_some_iff, naming_eq]
    cases majority (shapeCounts (words code.toList)) with
    | none => simpa using clear.symm
    | some u => simp
  · rw [← majority_eq_none_iff, naming_eq]
    cases best : majority (shapeCounts (words code.toList)) with
    | none => simp
    | some u =>
      have clear : u ≠ .mixed := fun mixed => majority_shapeCounts_ne_mixed _ (mixed ▸ best)
      simpa using clear
  · intro other same
    rw [naming_eq, naming_eq, shapeCounts_perm same]

/-- Words with a leading underscore, a digit or another letter are no names in snake case. -/
example : naming "_my_var my_var2 größe_x myVar" = .camelCase := by decide

end SnippetAudit.Style
