import SnippetAudit.Proofs.Text.Search

/-!
Matches that a search does not find.

A search goes on behind each match, so it finds no match that starts inside another one. `startsIn` counts
the characters on which a match starts, whether or not a search finds it, and `OverlapsFrom` says that some
match starts inside one that is found. A search finds all matches exactly if this is not so
(`length_starts_eq_iff`). Replacing leaves a match exactly if it is so, as long as it makes none and hides
none (`Transparent.occurs_replace_iff`).
-/

namespace SnippetAudit.Text

/-- On how many characters of `u` a match starts, where `t` follows. -/
def startsIn (m : Matcher) : Option Char → List Char → List Char → Nat
  | _, [], _ => 0
  | before, c :: u, t => (m before (c :: (u ++ t))).isSome.toNat + startsIn m (some c) u t

/-- Whether a match starts at a position of a text. -/
def matchesAt (m : Matcher) (s : List Char) (position : Nat) : Bool :=
  (m (s.take position).getLast? (s.drop position)).isSome

/-- The number of positions of a text at which a match starts. -/
def countPlaces (m : Matcher) (s : List Char) : Nat := (List.range s.length).countP (matchesAt m s)

/-- The character in front of what a match of `n` characters leaves. -/
def lastMatched (c : Char) (rest : List Char) (n : Nat) : Option Char :=
  (rest.take (n - 1)).getLast?.or (some c)

/-- A search finds a match inside which another one starts. -/
def OverlapsFrom (m : Matcher) : Option Char → List Char → Prop
  | _, [] => False
  | before, c :: rest =>
    (∃ n, m before (c :: rest) = some n ∧
      0 < startsIn m (some c) (rest.take (n - 1)) (rest.drop (n - 1))) ∨
    OverlapsFrom m (some c) rest

section Places

variable {m : Matcher} {before : Option Char} {c : Char} {s t u v rest : List Char} {n : Nat}

theorem startsIn_cons :
    startsIn m before (c :: u) t =
      (m before (c :: (u ++ t))).isSome.toNat + startsIn m (some c) u t := rfl

theorem startsIn_append :
    startsIn m before (u ++ v) t =
      startsIn m before u (v ++ t) + startsIn m (u.getLast?.or before) v t := by
  induction u generalizing before with
  | nil => simp [startsIn]
  | cons c u ih =>
    rw [List.cons_append, startsIn_cons, startsIn_cons, ih, getLast?_cons_or, List.append_assoc,
      Nat.add_assoc]

/-- Where no match starts before the last character, one starts if it starts there. -/
theorem startsIn_concat_pos_iff (quiet : startsIn m before u (c :: t) = 0) :
    0 < startsIn m before (u ++ [c]) t ↔ (m (u.getLast?.or before) (c :: t)).isSome = true := by
  rw [startsIn_append, List.singleton_append, quiet, startsIn_cons, startsIn, List.nil_append]
  cases (m (u.getLast?.or before) (c :: t)).isSome
  · simp
  · simp

/-- Something is found in a text if a match starts in its first part, or is found in the rest. -/
theorem occursFrom_append_iff :
    occursFrom m before (u ++ t) = true ↔
      0 < startsIn m before u t ∨ occursFrom m (u.getLast?.or before) t = true := by
  induction u generalizing before with
  | nil => simp [startsIn]
  | cons c u ih =>
    rw [List.cons_append, occursFrom, Bool.or_eq_true, ih, getLast?_cons_or, startsIn_cons, ← or_assoc]
    refine or_congr_left ?_
    cases (m before (c :: (u ++ t))).isSome
    · simp
    · exact iff_of_true (.inl rfl) (Nat.add_pos_left Nat.one_pos _)

theorem countPlaces_eq (m : Matcher) (s : List Char) : countPlaces m s = startsIn m none s [] := by
  have from' : ∀ before, (List.range s.length).countP (fun i =>
      (m ((s.take i).getLast?.or before) (s.drop i)).isSome) = startsIn m before s [] := by
    induction s with
    | nil => exact fun _ => rfl
    | cons c s ih =>
      intro before
      rw [List.length_cons, List.range_succ_eq_map, List.countP_cons, List.countP_map, startsIn_cons,
        List.append_nil, ← ih (some c), Nat.add_comm]
      congr 1
      · rw [List.take_zero, List.drop_zero, List.getLast?_nil, Option.none_or]
        cases (m before (c :: s)).isSome <;> rfl
      · refine List.countP_congr fun i _ => ?_
        simp only [Function.comp_apply, List.take_succ_cons, List.drop_succ_cons, getLast?_cons_or]
  have whole := from' none
  simp only [Option.or_none] at whole
  exact whole

/-- A match that starts inside another one starts in its part of the text, or inside one in the rest. -/
theorem overlapsFrom_append (h : OverlapsFrom m before (u ++ v)) :
    0 < startsIn m before u v ∨ OverlapsFrom m (u.getLast?.or before) v := by
  induction u generalizing before with
  | nil => exact .inr h
  | cons c u ih =>
    rw [startsIn_cons, getLast?_cons_or]
    rcases h with ⟨n, found, -⟩ | later
    · have found : m before (c :: (u ++ v)) = some n := found
      rw [found]
      exact .inl (Nat.add_pos_left Nat.one_pos _)
    · exact (ih later).imp_left (Nat.add_pos_right _)

theorem OverlapsFrom.append (u : List Char) (h : OverlapsFrom m (u.getLast?.or before) v) :
    OverlapsFrom m before (u ++ v) := by
  induction u generalizing before with
  | nil => exact h
  | cons c u ih => exact .inr (ih (by rwa [getLast?_cons_or] at h))

theorem overlapsFrom_of_none (missed : m before (c :: rest) = none) :
    OverlapsFrom m before (c :: rest) ↔ OverlapsFrom m (some c) rest := by
  simp [OverlapsFrom, missed]

/-- Where a match is found, another one starts inside it, or inside one that is found behind it. -/
theorem overlapsFrom_of_some (found : m before (c :: rest) = some n) :
    OverlapsFrom m before (c :: rest) ↔
      0 < startsIn m (some c) (rest.take (n - 1)) (rest.drop (n - 1)) ∨
        OverlapsFrom m (lastMatched c rest n) (rest.drop (n - 1)) := by
  constructor
  · rintro (⟨n', found', inside⟩ | later)
    · cases found.symm.trans found'
      exact .inl inside
    · rw [← List.take_append_drop (n - 1) rest] at later
      exact overlapsFrom_append later
  · rintro (inside | later)
    · exact .inl ⟨n, found, inside⟩
    · right
      rw [← List.take_append_drop (n - 1) rest]
      exact .append _ later

/-- **Where an overlap is**: behind some part of the text a match begins in which another one starts. -/
theorem overlapsFrom_iff :
    OverlapsFrom m before s ↔ ∃ pre c rest n, s = pre ++ c :: rest ∧
      m (pre.getLast?.or before) (c :: rest) = some n ∧
      0 < startsIn m (some c) (rest.take (n - 1)) (rest.drop (n - 1)) := by
  constructor
  · intro h
    induction s generalizing before with
    | nil => cases h
    | cons c rest ih =>
      rcases h with ⟨n, found, inside⟩ | later
      · exact ⟨[], c, rest, n, rfl, found, inside⟩
      · obtain ⟨pre, d, rest', n, rfl, found, inside⟩ := ih later
        exact ⟨c :: pre, d, rest', n, rfl, by rwa [getLast?_cons_or], inside⟩
  · rintro ⟨pre, c, rest, n, rfl, found, inside⟩
    exact .append pre (.inl ⟨n, found, inside⟩)

end Places

/-! ### Searching -/

section Search

variable {m : Matcher} {f : List Char → List Char} {before : Option Char} {c : Char}
  {s rest : List Char} {n at' : Nat}

theorem startsFrom_skip (before : Option Char) (at' skip : Nat) (s : List Char) :
    startsFrom m before at' skip s =
      startsFrom m ((s.take skip).getLast?.or before) (at' + skip) 0 (s.drop skip) := by
  induction skip generalizing before at' s with
  | zero => simp
  | succ skip ih =>
    cases s with
    | nil => rfl
    | cons c s =>
      rw [startsFrom, ih, List.take_succ_cons, List.drop_succ_cons, getLast?_cons_or]
      congr 1
      omega

theorem replaceFrom_skip (before : Option Char) (skip : Nat) (s : List Char) :
    replaceFrom m f before skip s =
      replaceFrom m f ((s.take skip).getLast?.or before) 0 (s.drop skip) := by
  induction skip generalizing before s with
  | zero => simp
  | succ skip ih =>
    cases s with
    | nil => rfl
    | cons c s => rw [replaceFrom, ih, List.take_succ_cons, List.drop_succ_cons, getLast?_cons_or]

theorem startsFrom_of_none (missed : m before (c :: rest) = none) :
    startsFrom m before at' 0 (c :: rest) = startsFrom m (some c) (at' + 1) 0 rest := by
  rw [startsFrom, missed]

theorem startsFrom_of_some (found : m before (c :: rest) = some n) :
    startsFrom m before at' 0 (c :: rest) =
      at' :: startsFrom m (lastMatched c rest n) (at' + 1 + (n - 1)) 0 (rest.drop (n - 1)) := by
  rw [startsFrom, found]
  exact congrArg (at' :: ·) (startsFrom_skip _ _ _ _)

theorem replaceFrom_of_none (missed : m before (c :: rest) = none) :
    replaceFrom m f before 0 (c :: rest) = c :: replaceFrom m f (some c) 0 rest := by
  rw [replaceFrom, missed]

theorem replaceFrom_of_some (found : m before (c :: rest) = some n) :
    replaceFrom m f before 0 (c :: rest) =
      f ((c :: rest).take n) ++
        replaceFrom m f (lastMatched c rest n) 0 (rest.drop (n - 1)) := by
  rw [replaceFrom, found]
  exact congrArg (f ((c :: rest).take n) ++ ·) (replaceFrom_skip _ _ _)

/-- **Induction along a search**: it goes on behind the next character where nothing matches, and behind
the match where something does. -/
@[elab_as_elim]
theorem search_induction {motive : Option Char → List Char → Prop} (m : Matcher)
    (nil : ∀ before, motive before [])
    (missed : ∀ before c rest, m before (c :: rest) = none → motive (some c) rest →
      motive before (c :: rest))
    (found : ∀ before c rest n, m before (c :: rest) = some n →
      motive (lastMatched c rest n) (rest.drop (n - 1)) → motive before (c :: rest))
    (before : Option Char) (s : List Char) : motive before s := by
  induction size : s.length using Nat.strongRecOn generalizing before s with
  | ind _ ih =>
    subst size
    cases s with
    | nil => exact nil before
    | cons c rest =>
      cases here : m before (c :: rest) with
      | none => exact missed before c rest here (ih _ (Nat.lt_succ_self _) _ _ rfl)
      | some n =>
        refine found before c rest n here (ih _ ?_ _ _ rfl)
        rw [List.length_drop, List.length_cons]
        omega

/-- A search finds at most as many matches as start, and all of them exactly if none starts inside one that
is found. -/
theorem length_startsFrom (m : Matcher) (before : Option Char) (at' : Nat) (s : List Char) :
    (startsFrom m before at' 0 s).length ≤ startsIn m before s [] ∧
      ((startsFrom m before at' 0 s).length = startsIn m before s [] ↔
        ¬ OverlapsFrom m before s) := by
  induction before, s using search_induction m generalizing at' with
  | nil before => simp [startsFrom, startsIn, OverlapsFrom]
  | missed before c rest here ih =>
    rw [startsFrom_of_none here, overlapsFrom_of_none here, startsIn_cons, List.append_nil, here]
    simpa using ih (at' + 1)
  | found before c rest n here ih =>
    obtain ⟨fewer, all⟩ := ih (at' + 1 + (n - 1))
    have split : startsIn m (some c) (rest.take (n - 1) ++ rest.drop (n - 1)) [] =
        startsIn m (some c) (rest.take (n - 1)) (rest.drop (n - 1) ++ []) +
          startsIn m (lastMatched c rest n) (rest.drop (n - 1)) [] := startsIn_append
    rw [List.take_append_drop, List.append_nil] at split
    rw [startsFrom_of_some here, overlapsFrom_of_some here, startsIn_cons, List.append_nil, here,
      Option.isSome_some, Bool.toNat_true, List.length_cons, split, not_or, ← all]
    omega

/-- **A search finds all matches exactly if none starts inside one that is found.** -/
theorem length_starts_eq_iff (m : Matcher) (s : List Char) :
    (starts m s).length = countPlaces m s ↔ ¬ OverlapsFrom m none s := by
  rw [countPlaces_eq]
  exact (length_startsFrom m none 0 s).2

theorem length_starts_le (m : Matcher) (s : List Char) : (starts m s).length ≤ countPlaces m s := by
  rw [countPlaces_eq]
  exact (length_startsFrom m none 0 s).1

end Search

/-! ### Replacing -/

/-- Replacing makes no match and hides none. On a character that is kept a match starts exactly if one did
before, and in what takes the place of a match exactly if one started inside the match. -/
structure Transparent (m : Matcher) (f : List Char → List Char) : Prop where
  keeps : ∀ before c rest,
    (m before (c :: replaceFrom m f (some c) 0 rest)).isSome = (m before (c :: rest)).isSome
  ends : ∀ {before c rest n}, m before (c :: rest) = some n →
    (f ((c :: rest).take n)).getLast? = lastMatched c rest n
  echoes : ∀ {before c rest n}, m before (c :: rest) = some n →
    (0 < startsIn m before (f ((c :: rest).take n))
        (replaceFrom m f (lastMatched c rest n) 0 (rest.drop (n - 1))) ↔
      0 < startsIn m (some c) (rest.take (n - 1)) (rest.drop (n - 1)))

section Replace

variable {m : Matcher} {f : List Char → List Char} {before : Option Char} {s w : List Char}

/-- Something stands in front of what a match leaves. -/
theorem lastMatched_or (c : Char) (rest : List Char) (n : Nat) :
    (lastMatched c rest n).or before = lastMatched c rest n := by
  rw [lastMatched, Option.or_assoc, Option.some_or]

/-- It is the last character of the match. -/
theorem lastMatched_eq_getLast? {c : Char} {rest : List Char} {n : Nat} (positive : 0 < n) :
    lastMatched c rest n = ((c :: rest).take n).getLast? := by
  obtain ⟨k, rfl⟩ : ∃ k, n = k + 1 := ⟨n - 1, by omega⟩
  rw [lastMatched, Nat.add_sub_cancel, List.take_succ_cons, List.getLast?_cons]
  cases (rest.take k).getLast? <;> rfl

theorem Transparent.occursFrom_replaceFrom_iff (h : Transparent m f) :
    occursFrom m before (replaceFrom m f before 0 s) = true ↔ OverlapsFrom m before s := by
  induction before, s using search_induction m with
  | nil before => simp [replaceFrom, occursFrom, OverlapsFrom]
  | missed before c rest here ih =>
    rw [replaceFrom_of_none here, overlapsFrom_of_none here, ← ih, occursFrom, h.keeps, here,
      Option.isSome_none, Bool.false_or]
  | found before c rest n here ih =>
    rw [replaceFrom_of_some here, overlapsFrom_of_some here, occursFrom_append_iff, h.ends here,
      lastMatched_or, h.echoes here, ih]

/-- **Replacing leaves a match exactly if a search finds one inside which another one starts.** -/
theorem Transparent.occurs_replace_iff (h : Transparent m f) (s : List Char) :
    occurs m (replace m f s) = true ↔ OverlapsFrom m none s :=
  h.occursFrom_replaceFrom_iff

/-- A word is seen at the beginning of a text after replacing exactly if it was before, as long as no end of
it tells a match from what takes its place. -/
theorem isPrefix_replaceFrom_iff
    (blind : ∀ v, v ≠ [] → v <:+ w → ∀ b s n t, m (some b) s = some n →
      (v <+: f (s.take n) ++ t ↔ v <+: s)) (b : Char) :
    w <+: replaceFrom m f (some b) 0 s ↔ w <+: s := by
  induction w generalizing b s with
  | nil => simp
  | cons x w ih =>
    cases s with
    | nil => rfl
    | cons c rest =>
      cases here : m (some b) (c :: rest) with
      | none =>
        have later := fun v nonempty (hv : v <:+ w) => blind v nonempty (hv.trans (List.suffix_cons x w))
        rw [replaceFrom_of_none here, List.cons_prefix_cons, List.cons_prefix_cons, ih later]
      | some n =>
        rw [replaceFrom_of_some here]
        exact blind (x :: w) (List.cons_ne_nil x w) List.suffix_rfl b _ n _ here

end Replace

/-! ### Matches that begin in one way -/

/-- Every match begins with one character, and has it nowhere else. -/
def BeginsOnly (c : Char) (m : Matcher) : Prop :=
  ∀ before s n, m before s = some n → ∃ rest, s = c :: rest ∧ c ∉ rest.take (n - 1)

section BeginsOnly

variable {m : Matcher} {c : Char} {before : Option Char} {u t s : List Char}

/-- Where a character is not, no match starts that begins with it. -/
theorem startsIn_eq_zero (begins : ∀ before s, (m before s).isSome = true → s.head? = some c)
    (absent : c ∉ u) : startsIn m before u t = 0 := by
  induction u generalizing before with
  | nil => rfl
  | cons d u ih =>
    have here : (m before (d :: (u ++ t))).isSome = false := by
      rw [Bool.eq_false_iff]
      intro found
      obtain rfl := Option.some.inj (begins before _ found)
      exact absent List.mem_cons_self
    rw [startsIn_cons, here, ih fun mem => absent (List.mem_cons_of_mem d mem)]
    rfl

theorem BeginsOnly.head? (h : BeginsOnly c m) (before : Option Char) (s : List Char)
    (found : (m before s).isSome = true) : s.head? = some c := by
  obtain ⟨n, found⟩ := Option.isSome_iff_exists.mp found
  obtain ⟨rest, rfl, -⟩ := h before s n found
  rfl

/-- **No match starts inside another one** if all begin with a character that they have nowhere else. -/
theorem BeginsOnly.not_overlapsFrom (h : BeginsOnly c m) : ¬ OverlapsFrom m before s := by
  intro overlaps
  obtain ⟨pre, d, rest, n, -, found, inside⟩ := overlapsFrom_iff.mp overlaps
  obtain ⟨rest', same, absent⟩ := h _ _ n found
  obtain ⟨rfl, rfl⟩ := List.cons.inj same
  rw [startsIn_eq_zero h.head? absent] at inside
  exact Nat.lt_irrefl 0 inside

end BeginsOnly

end SnippetAudit.Text
