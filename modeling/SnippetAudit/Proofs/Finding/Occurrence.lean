import Mathlib.Data.List.Nodup
import SnippetAudit.Proofs.Finding.Pattern
import SnippetAudit.Proofs.Finding.Scan
import SnippetAudit.Proofs.Text.Overlap

/-!
How many weaknesses are reported for a line.

A line has one weakness for each match that a search finds (`countP_weaknesses`), which are all that start
on it unless one starts inside another one. Calls of `eval` and of loaders begin with a letter that they have
nowhere else, so none does. But the pattern for assignments of markup takes in the character behind the
equals sign, and that may be the first of another assignment (`overlapsFrom_innerHtmlAssignment_iff`). So
where `innerHTML` is assigned to `innerHTML`, the second assignment is not reported.
-/

namespace SnippetAudit.Finding

open Text

/-! ### Calls -/

/-- A word of two parts begins with its first character only. -/
theorem beginsOnly_gapped {lead trail : String} {c : Char} {more : List Char}
    (visible : Visible trail) (first : lead.toList = c :: more) (apart : c ∉ more)
    (apart' : c ∉ trail.toList) (seen : isBlank c = false) : BeginsOnly c (gapped lead trail) := by
  intro before s n found
  obtain ⟨w, ⟨gap, blank, rfl⟩, ⟨post, rfl⟩, rfl⟩ := (gapped_eq_some_iff visible).mp found
  have between : c ∉ gap := not_mem_of_blank blank seen
  refine ⟨more ++ (gap ++ trail.toList) ++ post, by simp [first], ?_⟩
  rw [first, List.cons_append, List.length_cons, Nat.add_sub_cancel, List.take_left]
  simp [apart, between, apart']

theorem BeginsOnly.either {c : Char} {first second : Matcher} (h : BeginsOnly c first)
    (h' : BeginsOnly c second) : BeginsOnly c (either first second) := by
  intro before s n found
  rw [Finding.either, Option.or_eq_some_iff] at found
  rcases found with found | ⟨-, found⟩
  · exact h before s n found
  · exact h' before s n found

theorem beginsOnly_evalCall : BeginsOnly 'e' evalCall :=
  beginsOnly_gapped visible_parenthesis rfl (by decide) (by decide) (by decide)

theorem beginsOnly_pickleLoad : BeginsOnly 'p' pickleLoad :=
  BeginsOnly.either
    (beginsOnly_gapped visible_parenthesis rfl (by decide) (by decide) (by decide))
    (beginsOnly_gapped visible_parenthesis rfl (by decide) (by decide) (by decide))

/-! ### Assignments of markup -/

/-- A text begins with an assignment to `innerHTML`. -/
def AssignedFirst (s : List Char) : Prop :=
  ∃ w rest, Gapped "innerHTML" "=" w ∧ s = w ++ rest ∧ rest.head? ≠ some '='

/-- An assignment to `innerHTML` is what is assigned to `innerHTML`, with nothing between the two. -/
def Chained (s : List Char) : Prop :=
  ∃ pre w rest, s = pre ++ (w ++ rest) ∧ Gapped "innerHTML" "=" w ∧ AssignedFirst rest

section Assignments

variable {before : Option Char} {c : Char} {s w rest : List Char} {n : Nat}

/-- **What counts as an assignment**: a match takes in the character behind it. -/
theorem innerHtmlAssignment_eq_some_iff :
    innerHtmlAssignment before s = some n ↔ ∃ w rest, Gapped "innerHTML" "=" w ∧ s = w ++ rest ∧
      rest.head? ≠ some '=' ∧ n = w.length + (rest.take 1).length := by
  constructor
  · intro found
    unfold innerHtmlAssignment at found
    split at found
    next k here =>
      obtain ⟨w, word, ⟨rest, rfl⟩, rfl⟩ := (gapped_eq_some_iff visible_equalsSign).mp here
      rw [List.drop_left] at found
      refine ⟨w, rest, word, rfl, ?_⟩
      split at found
      next =>
        cases found
        exact ⟨by simp, rfl⟩
      next d tail =>
        split at found
        next => cases found
        next other =>
          cases found
          exact ⟨by simpa using other, rfl⟩
    next => cases found
  · rintro ⟨w, rest, word, rfl, other, rfl⟩
    have here : gapped "innerHTML" "=" before (w ++ rest) = some w.length :=
      (gapped_eq_some_iff visible_equalsSign).mpr ⟨w, word, List.prefix_append w rest, rfl⟩
    unfold innerHtmlAssignment
    rw [here]
    dsimp only
    rw [List.drop_left]
    cases rest with
    | nil => rfl
    | cons d tail =>
      rw [List.head?_cons, ne_eq, Option.some_inj] at other
      simp [other]

theorem isSome_innerHtmlAssignment_iff :
    (innerHtmlAssignment before s).isSome = true ↔ AssignedFirst s := by
  rw [Option.isSome_iff_exists]
  simp only [innerHtmlAssignment_eq_some_iff]
  constructor
  · rintro ⟨n, w, rest, word, cut, other, -⟩
    exact ⟨w, rest, word, cut, other⟩
  · rintro ⟨w, rest, word, cut, other⟩
    exact ⟨_, w, rest, word, cut, other, rfl⟩

/-- Neither the first letter of `innerHTML` nor that of `textContent` is in the rest of an assignment. -/
theorem exists_of_gapped_innerHtml (word : Gapped "innerHTML" "=" w) :
    ∃ more, w = 'i' :: more ∧ 'i' ∉ more ∧ 't' ∉ more := by
  obtain ⟨gap, blank, rfl⟩ := word
  have apart : 'i' ∉ gap := not_mem_of_blank blank (by decide)
  have apart' : 't' ∉ gap := not_mem_of_blank blank (by decide)
  refine ⟨"nnerHTML".toList ++ (gap ++ "=".toList), rfl, ?_, ?_⟩
  · simp [apart]
  · simp [apart']

theorem head?_of_innerHtmlAssignment (before : Option Char) (s : List Char)
    (found : (innerHtmlAssignment before s).isSome = true) : s.head? = some 'i' := by
  obtain ⟨w, rest, word, rfl, -⟩ := isSome_innerHtmlAssignment_iff.mp found
  obtain ⟨more, rfl, -⟩ := exists_of_gapped_innerHtml word
  rfl

/-- In a match only the character behind the assignment may begin another one. -/
theorem startsIn_innerHtmlAssignment_iff {u : List Char} (absent : 'i' ∉ u) (rest t : List Char) :
    0 < startsIn innerHtmlAssignment before (u ++ rest.take 1) t ↔
      ∃ d ∈ rest.head?, AssignedFirst (d :: t) := by
  have quiet {t : List Char} : startsIn innerHtmlAssignment before u t = 0 :=
    startsIn_eq_zero head?_of_innerHtmlAssignment absent
  cases rest with
  | nil => simp [quiet]
  | cons d tail =>
    rw [List.take_succ_cons, List.take_zero, startsIn_concat_pos_iff quiet,
      isSome_innerHtmlAssignment_iff]
    simp

theorem assignedFirst_iff_head? :
    (∃ d ∈ s.head?, AssignedFirst (d :: s.drop 1)) ↔ AssignedFirst s := by
  cases s with
  | nil =>
    have none : ¬ AssignedFirst [] := by
      rw [← @isSome_innerHtmlAssignment_iff none]
      exact Bool.false_ne_true
    simp [none]
  | cons d tail => simp

/-- A match takes in an assignment and the character behind it, and leaves the rest. -/
theorem take_of_length (w post : List Char) :
    (w ++ post).take (w.length + (post.take 1).length) = w ++ post.take 1 ∧
      (w ++ post).drop (w.length + (post.take 1).length) = post.drop 1 := by
  rw [List.take_length_add_append, List.drop_length_add_append]
  cases post with
  | nil => exact ⟨rfl, rfl⟩
  | cons d tail => exact ⟨rfl, rfl⟩

theorem take_of_length_cons (c : Char) (more post : List Char) :
    (more ++ post).take ((c :: more).length + (post.take 1).length - 1) = more ++ post.take 1 ∧
      (more ++ post).drop ((c :: more).length + (post.take 1).length - 1) = post.drop 1 := by
  have size : (c :: more).length + (post.take 1).length - 1 = more.length + (post.take 1).length := by
    rw [List.length_cons]
    omega
  rw [size]
  exact take_of_length more post

/-- What is behind the first letter of a match. -/
theorem exists_of_innerHtmlAssignment (found : innerHtmlAssignment before (c :: rest) = some n) :
    ∃ more post, c = 'i' ∧ rest = more ++ post ∧ Gapped "innerHTML" "=" ('i' :: more) ∧ 'i' ∉ more ∧
      post.head? ≠ some '=' ∧ rest.take (n - 1) = more ++ post.take 1 ∧
      rest.drop (n - 1) = post.drop 1 := by
  obtain ⟨w, post, word, cut, other, rfl⟩ := innerHtmlAssignment_eq_some_iff.mp found
  obtain ⟨more, rfl, absent, -⟩ := exists_of_gapped_innerHtml word
  rw [List.cons_append] at cut
  obtain ⟨rfl, rfl⟩ := List.cons.inj cut
  exact ⟨more, post, rfl, rfl, word, absent, other, take_of_length_cons 'i' more post⟩

/-- **An assignment starts inside another one exactly if it is what is assigned.** -/
theorem overlapsFrom_innerHtmlAssignment_iff :
    OverlapsFrom innerHtmlAssignment none s ↔ Chained s := by
  rw [overlapsFrom_iff]
  constructor
  · rintro ⟨pre, c, rest, n, rfl, found, inside⟩
    obtain ⟨more, post, rfl, rfl, word, absent, -, taken, left⟩ := exists_of_innerHtmlAssignment found
    rw [taken, left, startsIn_innerHtmlAssignment_iff absent, assignedFirst_iff_head?] at inside
    exact ⟨pre, 'i' :: more, post, rfl, word, inside⟩
  · rintro ⟨pre, w, rest, rfl, word, behind⟩
    -- What is assigned begins with a letter, so there is an assignment in front of it.
    have other : rest.head? ≠ some '=' := by
      rw [head?_of_innerHtmlAssignment none rest (isSome_innerHtmlAssignment_iff.mpr behind)]
      decide
    obtain ⟨more, rfl, absent, -⟩ := exists_of_gapped_innerHtml word
    obtain ⟨taken, left⟩ := take_of_length_cons 'i' more rest
    refine ⟨pre, 'i', more ++ rest, _, rfl,
      innerHtmlAssignment_eq_some_iff.mpr ⟨_, rest, word, rfl, other, rfl⟩, ?_⟩
    rw [taken, left, startsIn_innerHtmlAssignment_iff absent, assignedFirst_iff_head?]
    exact behind

end Assignments

/-! ### Counting -/

/-- The number of weaknesses of one kind that are reported on a line. -/
def reported (code : String) (language : Language) (kind : String) (number : Nat) : Nat :=
  (weaknesses code language).countP fun w => w.line == number && w.kind == kind

/-- What is counted in lists that are told apart by a key comes from one of them, if it has its key. -/
theorem countP_flatMap_of_nodup {α β κ : Type} (key : α → κ) (items : α → List β) {l : List α} {a : α}
    {q : β → Bool} (mem : a ∈ l) (nodup : (l.map key).Nodup)
    (other : ∀ b, key b ≠ key a → ∀ x ∈ items b, q x = false) :
    (l.flatMap items).countP q = (items a).countP q := by
  obtain ⟨above, below, rfl⟩ := List.append_of_mem mem
  rw [List.map_append, List.map_cons, List.nodup_append, List.nodup_cons] at nodup
  obtain ⟨-, ⟨below_ne, -⟩, above_ne⟩ := nodup
  have none {l : List α} (apart : ∀ b ∈ l, key b ≠ key a) : (l.flatMap items).countP q = 0 := by
    rw [List.countP_eq_zero]
    intro x inside
    obtain ⟨b, hb, hx⟩ := List.mem_flatMap.mp inside
    simp [other b (apart b hb) x hx]
  rw [List.flatMap_append, List.flatMap_cons, List.countP_append, List.countP_append,
    none fun b hb => above_ne _ (List.mem_map_of_mem hb) _ List.mem_cons_self,
    none fun b hb same => below_ne (same ▸ List.mem_map_of_mem hb), Nat.zero_add, Nat.add_zero]

/-- No two lines have one number. -/
theorem nodup_numbers (code : String) : ((numberedLines code).map Prod.fst).Nodup := by
  have numbers : (numberedLines code).map Prod.fst =
      (List.range' 0 (lines code).length).map (· + 1) := by
    rw [numberedLines, List.map_map, ← List.zipIdx_map_snd, List.map_map]
    rfl
  rw [numbers]
  exact List.Nodup.map Nat.succ_injective List.nodup_range'

/-- No two patterns for one language are of one kind. -/
theorem nodup_kinds (language : Language) :
    ((weaknessPatterns language).map WeaknessPattern.kind).Nodup := by
  cases language with
  | python => decide
  | javascript | typescript => decide
  | java | cpp => exact List.nodup_nil

section Counting

variable {code line : String} {language : Language} {number : Nat} {p : WeaknessPattern}

/-- **A line has one weakness of a kind for each match that a search finds.** -/
theorem reported_eq_length_starts (numbered : (number, line) ∈ numberedLines code)
    (known : p ∈ weaknessPatterns language) :
    reported code language p.kind number = (starts p.matcher line.toList).length := by
  rw [reported, weaknesses, countP_flatMap_of_nodup Prod.fst _ numbered (nodup_numbers code)]
  · change (weaknessesOnLine language number line).countP _ = _
    rw [weaknessesOnLine,
      countP_flatMap_of_nodup WeaknessPattern.kind _ known (nodup_kinds language)]
    · simp [List.countP_replicate]
    · intro p' apart w mem
      obtain ⟨_, -, rfl⟩ := List.mem_map.mp mem
      simp [apart]
  · rintro ⟨number', line'⟩ apart w mem
    obtain ⟨_, -, mem⟩ := List.mem_flatMap.mp mem
    obtain ⟨_, -, rfl⟩ := List.mem_map.mp mem
    simp [apart]

/-- The patterns whose matches may start inside one another. -/
theorem overlapsFrom_weaknessPattern_iff (known : p ∈ weaknessPatterns language) (s : List Char) :
    OverlapsFrom p.matcher none s ↔ language.isScript = true ∧ Chained s := by
  have script (known : p ∈ weaknessPatterns .javascript) :
      OverlapsFrom p.matcher none s ↔ True ∧ Chained s := by
    rw [weaknessPatterns, List.mem_singleton] at known
    subst known
    rw [true_and]
    exact overlapsFrom_innerHtmlAssignment_iff
  cases language with
  | python =>
    refine iff_of_false ?_ fun both => Bool.false_ne_true both.1
    rw [weaknessPatterns, List.mem_pair] at known
    rcases known with rfl | rfl
    · exact beginsOnly_evalCall.not_overlapsFrom
    · exact beginsOnly_pickleLoad.not_overlapsFrom
  | javascript => simpa [Language.isScript] using script known
  | typescript => simpa [Language.isScript] using script known
  | java | cpp => cases known

/-- **When all occurrences of a weakness are reported.** On every line at most as many weaknesses of a kind
are reported as there are positions at which a match of its pattern starts. There are as many, except where
a line of JavaScript or TypeScript assigns to `innerHTML` what is assigned to `innerHTML`. -/
theorem reported_eq_countPlaces_iff (numbered : (number, line) ∈ numberedLines code)
    (known : p ∈ weaknessPatterns language) :
    reported code language p.kind number ≤ countPlaces p.matcher line.toList ∧
      (reported code language p.kind number = countPlaces p.matcher line.toList ↔
        ¬ (language.isScript = true ∧ Chained line.toList)) := by
  rw [reported_eq_length_starts numbered known, length_starts_eq_iff,
    overlapsFrom_weaknessPattern_iff known]
  exact ⟨length_starts_le _ _, Iff.rfl⟩

end Counting

/-- A call of `eval` inside another one is reported, and so is an assignment behind another one and a blank. -/
theorem reported_eq_countPlaces_of_two_lines :
    reported "x = 1\neval(eval(y))" .python "code_injection" 2 =
        countPlaces evalCall "eval(eval(y))".toList ∧
      ¬ Chained "a.innerHTML = innerHTML = b".toList := by
  have second : (2, "eval(eval(y))") ∈ numberedLines "x = 1\neval(eval(y))" := by decide
  have first : (1, "a.innerHTML = innerHTML = b") ∈ numberedLines "a.innerHTML = innerHTML = b" := by
    decide
  constructor
  · obtain ⟨-, all⟩ :=
      @reported_eq_countPlaces_iff _ _ .python _ _ second List.mem_cons_self
    exact all.mpr fun script => Bool.false_ne_true script.1
  · obtain ⟨-, all⟩ :=
      @reported_eq_countPlaces_iff _ _ .javascript _ _ first List.mem_cons_self
    exact fun chained => all.mp (by decide) ⟨rfl, chained⟩

/-- Of two assignments, the second of which is what the first assigns, one is reported. -/
theorem second_assignment_unreported :
    (1, "el.innerHTML=innerHTML=text") ∈ numberedLines "el.innerHTML=innerHTML=text" ∧
      (weaknessPatterns .javascript).map WeaknessPattern.kind = ["xss_vulnerability"] ∧
      reported "el.innerHTML=innerHTML=text" .javascript "xss_vulnerability" 1 = 1 ∧
      countPlaces innerHtmlAssignment "el.innerHTML=innerHTML=text".toList = 2 := by
  decide

end SnippetAudit.Finding
