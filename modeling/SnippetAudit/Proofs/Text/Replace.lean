import SnippetAudit.Proofs.Text.Search

/-!
What a search finds in a text after replacing has been done in it.

`Patched r kept gone s t` says that `t` is `s` with some stretches replaced by `r`, where `kept`
holds of `s` from every character on that is kept, and `gone` of every stretch that is replaced.
`replaceFrom` makes such a text (`patched_replaceFrom`).

A word that has no end in common with a beginning of `r`, nor a beginning with an end of `r`, cannot
lie across the edge of a replaced stretch. So wherever it stands in the new text, it already stood
in the old one, and there it was kept (`Patched.exists_of_occurrence`). Both uses of replacing follow
from this: that no match is left, and that no match of another pattern is made.
-/

namespace SnippetAudit.Text

/-! ### Words that do not touch -/

/-- One of two texts begins with the other. -/
def Meets (u v : List Char) : Prop := u <+: v ∨ v <+: u

instance (u v : List Char) : Decidable (Meets u v) := by
  unfold Meets
  infer_instance

/-- Beginnings of one text meet. -/
theorem meets_of_isPrefix {u v w : List Char} (hu : u <+: w) (hv : v <+: w) : Meets u v :=
  List.prefix_or_prefix_of_prefix hu hv

/-- What meets a text that begins with `l` is cut short within `l`, or goes on to meet the rest. -/
theorem meets_append {y l u : List Char} (h : Meets y (l ++ u)) :
    y <+: l ∨ l <+: y ∧ Meets (y.drop l.length) u := by
  have split : l <+: y → l <+: y ∧ Meets (y.drop l.length) u := by
    rintro ⟨z, rfl⟩
    refine ⟨List.prefix_append l z, ?_⟩
    rw [List.drop_left]
    exact h.imp (List.prefix_append_right_inj l).mp (List.prefix_append_right_inj l).mp
  rcases h with h | h
  · exact (List.prefix_or_prefix_of_prefix h (List.prefix_append l u)).imp_right split
  · exact Or.inr (split ((List.prefix_append l u).trans h))

/-- An end of two texts in a row is an end of the second, or has it as a whole behind an end of the
first. -/
theorem suffix_append_cases {y u v : List Char} (h : y <:+ u ++ v) :
    y <:+ v ∨ ∃ l, y = l ++ v ∧ l <:+ u := by
  rcases List.suffix_or_suffix_of_suffix h (List.suffix_append u v) with hy | ⟨l, rfl⟩
  · exact Or.inl hy
  · exact Or.inr ⟨l, rfl, List.suffix_append_self_iff.mp h⟩

/-- No end of `u` meets `v`. -/
def Apart (u v : List Char) : Prop := ∀ y, y ≠ [] → y <:+ u → ¬ Meets y v

theorem Apart.of_suffix {u u' v : List Char} (h : Apart u v) (sub : u' <:+ u) : Apart u' v :=
  fun y nonempty hy => h y nonempty (hy.trans sub)

/-! ### Patched texts -/

/-- The second text is the first with some stretches replaced by `r`. -/
inductive Patched (r : List Char) (kept gone : List Char → Prop) : List Char → List Char → Prop where
  | nil : Patched r kept gone [] []
  | keep {c : Char} {s t : List Char} : kept (c :: s) → Patched r kept gone s t →
      Patched r kept gone (c :: s) (c :: t)
  | patch {piece s t : List Char} : gone piece → Patched r kept gone s t →
      Patched r kept gone (piece ++ s) (r ++ t)

namespace Patched

variable {r s t w : List Char} {kept gone : List Char → Prop}

/-- Patched texts may follow a text that is kept. -/
theorem append (all : ∀ s, kept s) (h : Patched r kept gone s t) :
    ∀ p, Patched r kept gone (p ++ s) (p ++ t)
  | [] => h
  | c :: p => .keep (all (c :: p ++ s)) (append all h p)

/-- What every replaced stretch has at its ends, and the new text as well, is as good as kept. -/
theorem inner {p q : List Char} (split : ∀ piece, gone piece → ∃ mid, piece = p ++ mid ++ q)
    (h : Patched (p ++ r ++ q) kept gone s t) :
    Patched r (fun _ => True) (fun _ => True) s t := by
  have all : ∀ s : List Char, True := fun _ => trivial
  induction h with
  | nil => exact .nil
  | keep _ _ ih => exact .keep trivial ih
  | @patch piece s t removed _ ih =>
    obtain ⟨mid, rfl⟩ := split piece removed
    rw [List.append_assoc p mid q, List.append_assoc p r q, List.append_assoc, List.append_assoc,
      List.append_assoc, List.append_assoc]
    exact append all (@patch r _ _ mid _ _ trivial (append all ih q)) p

theorem mem_or_mem (h : Patched r kept gone s t) {c : Char} (mem : c ∈ t) : c ∈ s ∨ c ∈ r := by
  induction h with
  | nil => exact Or.inl mem
  | keep _ _ ih =>
    rcases List.mem_cons.mp mem with rfl | mem
    · exact Or.inl List.mem_cons_self
    · exact (ih mem).imp_left (List.mem_cons_of_mem _)
  | patch _ _ ih =>
    rcases List.mem_append.mp mem with mem | mem
    · exact Or.inr mem
    · exact (ih mem).imp_left (List.mem_append_right _)

theorem ne_nil (h : Patched r kept gone s t) (hr : r ≠ []) (hs : s ≠ []) : t ≠ [] := by
  cases h with
  | nil => exact absurd rfl hs
  | keep _ _ => exact List.cons_ne_nil _ _
  | patch _ _ => simp [hr]

/-- The new text ends as the old one does, or as the replacement does. -/
theorem getLast?_or (h : Patched r kept gone s t) (hr : r ≠ []) {c : Char}
    (last : c ∈ t.getLast?) : c ∈ s.getLast? ∨ c ∈ r.getLast? := by
  induction h with
  | nil => exact Or.inl last
  | @keep d s t _ rest ih =>
    cases t with
    | nil =>
      have hs : s = [] := Classical.byContradiction fun hs => rest.ne_nil hr hs rfl
      rw [hs]
      exact Or.inl last
    | cons e t =>
      rw [List.getLast?_cons_cons] at last
      refine (ih last).imp_left fun hs => ?_
      cases s with
      | nil => simp at hs
      | cons e' s => simpa using hs
  | @patch piece s t _ _ ih =>
    rw [List.getLast?_append] at last
    cases hl : t.getLast? with
    | none =>
      rw [hl, Option.none_or] at last
      exact Or.inr last
    | some d =>
      rw [hl, Option.some_or] at last
      refine (ih (by rw [hl]; exact last)).imp_left fun hs => ?_
      rw [List.getLast?_append, Option.mem_def.mp hs]
      rfl

/-- A beginning of the new text that stays clear of replacements begins the old text as well. -/
theorem isPrefix_of_isPrefix (h : Patched r kept gone s t) (clear : Apart w r) (hw : w <+: t) :
    w <+: s := by
  induction h generalizing w with
  | nil => exact hw
  | keep _ _ ih =>
    rcases List.prefix_cons_iff.mp hw with rfl | ⟨v, rfl, hv⟩
    · exact List.nil_prefix
    · exact List.cons_prefix_cons.mpr ⟨rfl, ih (clear.of_suffix (List.suffix_cons _ v)) hv⟩
  | patch _ _ _ =>
    by_cases hne : w = []
    · rw [hne]
      exact List.nil_prefix
    · exact absurd (meets_of_isPrefix hw (List.prefix_append r _)) (clear w hne List.suffix_rfl)

/-- **A word that stays clear of replacements was there before**, and from its first character on the
text was kept. -/
theorem exists_of_occurrence (h : Patched r kept gone s t) (nonempty : w ≠ []) (ends : Apart r w)
    (begins : Apart w r) (hw : w <:+: t) : ∃ rest, rest <:+ s ∧ w <+: rest ∧ kept rest := by
  induction h with
  | nil => exact absurd (List.infix_nil.mp hw) nonempty
  | @keep c s t keeps rest ih =>
    rcases List.infix_cons_iff.mp hw with hw | hw
    · exact ⟨c :: s, List.suffix_rfl, (keep keeps rest).isPrefix_of_isPrefix begins hw, keeps⟩
    · obtain ⟨rest, hrest, hw, keeps⟩ := ih hw
      exact ⟨rest, hrest.trans (List.suffix_cons c s), hw, keeps⟩
  | @patch piece s t _ _ ih =>
    have later : w <:+: t → ∃ rest, rest <:+ piece ++ s ∧ w <+: rest ∧ kept rest := by
      intro hw
      obtain ⟨rest, hrest, hw, keeps⟩ := ih hw
      exact ⟨rest, hrest.trans (List.suffix_append piece s), hw, keeps⟩
    rcases List.infix_append_iff.mp hw with hw | hw | ⟨front, back, rfl, hfront, hback⟩
    · -- The word would lie inside the replacement, and so begin one of its ends.
      obtain ⟨y, hwy, hyr⟩ := List.infix_iff_prefix_suffix.mp hw
      exact absurd (Or.inr hwy) (ends y (hwy.ne_nil nonempty) hyr)
    · exact later hw
    · by_cases hfr : front = []
      · rw [hfr, List.nil_append] at later ⊢
        exact later hback.isInfix
      · exact absurd (Or.inl (List.prefix_append front back)) (ends front hfr hfront)

theorem infix_of_patched (h : Patched r kept gone s t) (nonempty : w ≠ []) (ends : Apart r w)
    (begins : Apart w r) (hw : w <:+: t) : w <:+: s := by
  obtain ⟨rest, hrest, hw, -⟩ := h.exists_of_occurrence nonempty ends begins hw
  exact hw.isInfix.trans hrest.isInfix

end Patched

/-! ### Searching and replacing -/

/-- The places that a search leaves alone. -/
def Unmatched (m : Matcher) (s : List Char) : Prop := ∃ before, m before s = none

/-- The stretches that a search replaces. -/
def MatchedBy (m : Matcher) (piece : List Char) : Prop :=
  ∃ before s n, m before s = some n ∧ piece = s.take n

/-- **Replacing patches a text** where a search finds matches, and nowhere else. -/
theorem patched_replaceFrom {m : Matcher} (sized : Sized m) (r : List Char) (before : Option Char)
    (skip : Nat) (s : List Char) :
    Patched r (Unmatched m) (MatchedBy m) (s.drop skip) (replaceFrom m (fun _ => r) before skip s) := by
  induction s generalizing before skip with
  | nil => simpa [replaceFrom] using Patched.nil
  | cons c rest ih =>
    cases skip with
    | succ skip => exact ih (some c) skip
    | zero =>
      rw [List.drop_zero, replaceFrom]
      cases found : m before (c :: rest) with
      | none => exact .keep ⟨before, found⟩ (by simpa using ih (some c) 0)
      | some n =>
        obtain ⟨positive, -⟩ := sized before (c :: rest) n found
        obtain ⟨k, rfl⟩ : ∃ k, n = k + 1 := ⟨n - 1, by omega⟩
        have whole : c :: rest = (c :: rest).take (k + 1) ++ rest.drop k := by simp
        conv => lhs; rw [whole]
        exact .patch ⟨before, c :: rest, k + 1, found, rfl⟩ (ih (some c) k)

theorem patched_replace {m : Matcher} (sized : Sized m) (r s : List Char) :
    Patched r (Unmatched m) (MatchedBy m) s (replace m (fun _ => r) s) :=
  patched_replaceFrom sized r none 0 s

/-- What is put in the place of some match stands in the new text. -/
theorem exists_infix_replaceFrom {m : Matcher} (f : List Char → List Char) {before : Option Char}
    {s : List Char} (found : occursFrom m before s = true) :
    ∃ before' rest n, m before' rest = some n ∧ f (rest.take n) <:+: replaceFrom m f before 0 s := by
  induction s generalizing before with
  | nil => cases found
  | cons c rest ih =>
    rw [replaceFrom]
    cases here : m before (c :: rest) with
    | none =>
      rw [occursFrom, here, Option.isSome_none, Bool.false_or] at found
      obtain ⟨before', rest', n, matched, inside⟩ := ih found
      exact ⟨before', rest', n, matched, List.infix_cons inside⟩
    | some n => exact ⟨before, c :: rest, n, here, (List.prefix_append _ _).isInfix⟩

/-- Every match is replaced by a longer text. -/
def Lengthens (m : Matcher) (f : List Char → List Char) : Prop :=
  ∀ before s n, m before s = some n → 0 < n ∧ (s.take n).length < (f (s.take n)).length

section Lengthens

variable {m : Matcher} {f : List Char → List Char} (lengthens : Lengthens m f)

include lengthens

/-- Replacing by longer texts makes no text shorter. -/
theorem length_le_length_replaceFrom (before : Option Char) (skip : Nat) (s : List Char) :
    (s.drop skip).length ≤ (replaceFrom m f before skip s).length := by
  induction s generalizing before skip with
  | nil => simp
  | cons c rest ih =>
    cases skip with
    | succ skip => exact ih (some c) skip
    | zero =>
      rw [replaceFrom, List.drop_zero]
      cases found : m before (c :: rest) with
      | none =>
        have tail := ih (some c) 0
        simpa using tail
      | some n =>
        obtain ⟨positive, longer⟩ := lengthens before (c :: rest) n found
        have tail := ih (some c) (n - 1)
        simp only [List.length_take, List.length_cons, List.length_drop, List.length_append] at *
        omega

/-- **It makes a text longer wherever there is something to replace.** -/
theorem length_lt_length_replaceFrom {before : Option Char} {s : List Char}
    (found : occursFrom m before s = true) : s.length < (replaceFrom m f before 0 s).length := by
  induction s generalizing before with
  | nil => cases found
  | cons c rest ih =>
    rw [replaceFrom]
    cases here : m before (c :: rest) with
    | none =>
      rw [occursFrom, here, Option.isSome_none, Bool.false_or] at found
      have tail := ih found
      simpa using tail
    | some n =>
      obtain ⟨positive, longer⟩ := lengthens before (c :: rest) n here
      have tail := length_le_length_replaceFrom lengthens (some c) (n - 1) rest
      simp only [List.length_take, List.length_cons, List.length_drop, List.length_append] at *
      omega

end Lengthens

end SnippetAudit.Text
