import SnippetAudit.Proofs.Text.Lines
import SnippetAudit.Proofs.Text.Overlap

/-!
Counting matches piece by piece.

Some characters stop a matcher: no match goes across one, and behind one a match stands as at the beginning
of a text (`StopsAt`). A fixed text is stopped by each character that it does not have. So the matches on
both sides of such a character are counted on their own (`countMatches_append_cons`).
-/

namespace SnippetAudit.Text

/-- What stands in front of a character matches as if the text ended there, and what stands behind it as if
the text began there. -/
structure StopsAt (c : Char) (m : Matcher) : Prop where
  front : ∀ before s t, m before (s ++ c :: t) = m before s
  behind : ∀ s, m (some c) s = m none s

section Counting

variable {m : Matcher} {before : Option Char} {c : Char} {s t : List Char}

/-- How many matches there are does not depend on where positions start. -/
theorem length_startsFrom_eq (m : Matcher) (before : Option Char) (at' at'' : Nat) (s : List Char) :
    (startsFrom m before at' 0 s).length = (startsFrom m before at'' 0 s).length := by
  induction before, s using search_induction m generalizing at' at'' with
  | nil before => rfl
  | missed before c rest here ih =>
    rw [startsFrom_of_none here, startsFrom_of_none here]
    exact ih _ _
  | found before c rest n here ih =>
    rw [startsFrom_of_some here, startsFrom_of_some here, List.length_cons, List.length_cons]
    exact congrArg (· + 1) (ih _ _)

theorem StopsAt.startsFrom_behind (stops : StopsAt c m) (at' : Nat) :
    startsFrom m (some c) at' 0 t = startsFrom m none at' 0 t := by
  cases t with
  | nil => rfl
  | cons d rest => rw [startsFrom, startsFrom, stops.behind]

theorem StopsAt.length_startsFrom (stops : StopsAt c m) (sized : Sized m) (at' : Nat) :
    (startsFrom m before at' 0 (s ++ c :: t)).length =
      (startsFrom m before at' 0 s).length + countMatches m t := by
  induction before, s using search_induction m generalizing at' with
  | nil before =>
    have here : m before (c :: t) = none := by
      rw [← List.nil_append (c :: t), stops.front]
      exact Option.not_isSome_iff_eq_none.mp fun found => sized.ne_nil found rfl
    rw [List.nil_append, startsFrom_of_none here, stops.startsFrom_behind, startsFrom, List.length_nil,
      Nat.zero_add]
    exact length_startsFrom_eq m none _ _ t
  | missed before d rest here ih =>
    have here' : m before (d :: (rest ++ c :: t)) = none := (stops.front before (d :: rest) t).trans here
    rw [List.cons_append, startsFrom_of_none here', startsFrom_of_none here, ih]
  | found before d rest n here ih =>
    have here' : m before (d :: (rest ++ c :: t)) = some n :=
      (stops.front before (d :: rest) t).trans here
    have inside : n - 1 ≤ rest.length := by
      have bound := (sized _ _ _ here).2
      rw [List.length_cons] at bound
      omega
    have last : lastMatched d (rest ++ c :: t) n = lastMatched d rest n := by
      rw [lastMatched, List.take_append_of_le_length inside, lastMatched]
    rw [List.cons_append, startsFrom_of_some here', startsFrom_of_some here, last,
      List.drop_append_of_le_length inside, List.length_cons, List.length_cons, ih,
      Nat.add_right_comm]

/-- **Matches on both sides of a character that stops them are counted on their own.** -/
theorem countMatches_append_cons (stops : StopsAt c m) (sized : Sized m) (s t : List Char) :
    countMatches m (s ++ c :: t) = countMatches m s + countMatches m t :=
  stops.length_startsFrom sized 0

end Counting

/-! ### Fixed texts -/

theorem stopsAt_literal {c : Char} {needle : List Char} (absent : c ∉ needle) :
    StopsAt c (literal needle) where
  front before s t := by
    have same : needle.isPrefixOf (s ++ c :: t) = needle.isPrefixOf s := by
      rw [Bool.eq_iff_iff, List.isPrefixOf_iff_prefix, List.isPrefixOf_iff_prefix,
        isPrefix_append_cons_iff absent]
    rw [literal, literal, same]
  behind _ := rfl

end SnippetAudit.Text
