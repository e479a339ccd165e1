import SnippetAudit.Embedding.Vector
import SnippetAudit.Text.Lines

/-!
The tokens of a text.

A text is made of tokens with gaps between them, in one way only (`Tokenized`, `tokens_eq_iff`). So nothing
but the tokens is left of a text when it is taken apart. Put together again with a blank between any two, they
make a text with the same tokens (`tokenized_spaced`).
-/

namespace SnippetAudit.Embedding

open Text

/-- Characters of tokens, at least one. -/
def IsToken (t : List Char) : Prop := t ≠ [] ∧ ∀ c ∈ t, isTokenChar c = true

/-- Characters that belong to no token. -/
def IsGap (g : List Char) : Prop := ∀ c ∈ g, isTokenChar c = false

/-- How a text is made of tokens and gaps. No token goes on where it ends, so each is as long as can be. -/
inductive Tokenized : List Char → List (List Char) → Prop
  | gap {g : List Char} : IsGap g → Tokenized g []
  | token {g t s : List Char} {ts : List (List Char)} : IsGap g → IsToken t →
      (∀ c ∈ s.head?, isTokenChar c = false) → Tokenized s ts → Tokenized (g ++ t ++ s) (t :: ts)

section

variable {c : Char} {s t g : List Char} {ts : List (List Char)}

/-! ### Taking a text apart -/

theorem pieces_eq_splitOnP (s : List Char) : pieces s = s.splitOnP fun c => !isTokenChar c := by
  induction s with
  | nil => rw [List.splitOnP_nil]; rfl
  | cons c s ih =>
    obtain ⟨piece, others, cut⟩ := List.exists_cons_of_ne_nil (List.splitOnP_ne_nil (!isTokenChar ·) s)
    rw [List.splitOnP_cons_eq_if_modifyHead, pieces, ih, cut]
    cases isTokenChar c <;> rfl

/-- The pieces of a text that are not empty. -/
def tokensOf (s : List Char) : List (List Char) := (pieces s).filter fun t => !t.isEmpty

/-- **The tokens on both sides of a character that belongs to none.** -/
theorem tokensOf_append_cons (other : isTokenChar c = false) (s t : List Char) :
    tokensOf (s ++ c :: t) = tokensOf s ++ tokensOf t := by
  rw [tokensOf, pieces_eq_splitOnP, List.splitOnP_append_cons s t (by simp [other]), List.filter_append,
    ← pieces_eq_splitOnP, ← pieces_eq_splitOnP]
  rfl

theorem tokensOf_gap_append (between : IsGap g) (s : List Char) : tokensOf (g ++ s) = tokensOf s := by
  induction g with
  | nil => rfl
  | cons c g ih =>
    have first := tokensOf_append_cons (between c List.mem_cons_self) [] (g ++ s)
    have rest := ih fun d mem => between d (List.mem_cons_of_mem c mem)
    exact first.trans rest

theorem tokensOf_token (token : IsToken t) : tokensOf t = [t] := by
  have single : pieces t = [t] := by
    rw [pieces_eq_splitOnP, List.splitOnP_eq_singleton fun c mem => by simp [token.2 c mem]]
  simp [tokensOf, single, token.1]

theorem tokensOf_token_append (token : IsToken t) (ends : ∀ c ∈ s.head?, isTokenChar c = false) :
    tokensOf (t ++ s) = t :: tokensOf s := by
  cases s with
  | nil => rw [List.append_nil, tokensOf_token token]; rfl
  | cons c s =>
    have other : isTokenChar c = false := ends c rfl
    have behind : tokensOf (c :: s) = tokensOf s := tokensOf_append_cons other [] s
    rw [tokensOf_append_cons other, tokensOf_token token, behind, List.singleton_append]

theorem Tokenized.tokensOf_eq (made : Tokenized s ts) : tokensOf s = ts := by
  induction made with
  | @gap g between =>
    rw [← List.append_nil g, tokensOf_gap_append between]
    rfl
  | token between token ends _ ih =>
    rw [List.append_assoc, tokensOf_gap_append between, tokensOf_token_append token ends, ih]

/-! ### Every text is made of tokens and gaps -/

theorem isGap_nil : IsGap [] := by
  simp [IsGap]

theorem Tokenized.gap_append (between : IsGap g) (made : Tokenized s ts) : Tokenized (g ++ s) ts := by
  have joined {g' : List Char} (between' : IsGap g') : IsGap (g ++ g') := by
    intro c mem
    rcases List.mem_append.mp mem with mem | mem
    · exact between c mem
    · exact between' c mem
  cases made with
  | gap between' => exact .gap (joined between')
  | token between' token ends made =>
    rw [← List.append_assoc, ← List.append_assoc]
    exact .token (joined between') token ends made

/-- A character in front of a text begins a token of its own, or goes on with the first one. -/
theorem Tokenized.exists_cons (here : isTokenChar c = true) (made : Tokenized s ts) :
    ∃ us, Tokenized (c :: s) us := by
  have alone : IsToken [c] := ⟨List.cons_ne_nil c [], by simpa using here⟩
  cases made with
  | gap between =>
    exact ⟨_, .token isGap_nil alone (fun d first => between d (List.mem_of_head? first)) (.gap between)⟩
  | @token g t s ts between token ends made =>
    cases g with
    | nil =>
      have longer : IsToken (c :: t) := ⟨List.cons_ne_nil c t, List.forall_mem_cons.mpr ⟨here, token.2⟩⟩
      exact ⟨_, .token isGap_nil longer ends made⟩
    | cons d g =>
      have stops : ∀ e ∈ (d :: g ++ t ++ s).head?, isTokenChar e = false := by
        rintro e ⟨⟩
        exact between d List.mem_cons_self
      exact ⟨_, .token isGap_nil alone stops (.token between token ends made)⟩

theorem exists_tokenized (s : List Char) : ∃ ts, Tokenized s ts := by
  induction s with
  | nil => exact ⟨[], .gap isGap_nil⟩
  | cons c s ih =>
    obtain ⟨ts, made⟩ := ih
    cases here : isTokenChar c with
    | false => exact ⟨ts, made.gap_append (g := [c]) (by simpa [IsGap] using here)⟩
    | true => exact made.exists_cons here

/-- **A text is made of its tokens, and of no others.** -/
theorem tokens_eq_iff {code : String} : tokens code = ts ↔ Tokenized code.toList ts := by
  constructor
  · rintro rfl
    obtain ⟨ts, made⟩ := exists_tokenized code.toList
    have same : tokens code = ts := made.tokensOf_eq
    rwa [same]
  · exact Tokenized.tokensOf_eq

/-! ### Putting tokens together -/

theorem Tokenized.isToken (made : Tokenized s ts) : ∀ t ∈ ts, IsToken t := by
  induction made with
  | gap _ => simp
  | token _ token _ _ ih =>
    intro t mem
    rcases List.mem_cons.mp mem with rfl | mem
    · exact token
    · exact ih t mem

/-- **Tokens with a blank between any two.** -/
theorem tokenized_spaced (tokens : ∀ t ∈ ts, IsToken t) : Tokenized (joinWith ' ' ts) ts := by
  induction ts with
  | nil => exact .gap isGap_nil
  | cons t ts ih =>
    have token := tokens t List.mem_cons_self
    have rest := ih fun u mem => tokens u (List.mem_cons_of_mem t mem)
    cases ts with
    | nil =>
      have single := Tokenized.token isGap_nil token (by simp) (.gap isGap_nil)
      rwa [List.nil_append, List.append_nil] at single
    | cons u ts =>
      have blank : isTokenChar ' ' = false := by decide
      have behind : Tokenized (' ' :: joinWith ' ' (u :: ts)) (u :: ts) :=
        rest.gap_append (g := [' ']) (by simpa [IsGap] using blank)
      exact .token isGap_nil token (by rintro c ⟨⟩; exact blank) behind

end

end SnippetAudit.Embedding
