import SnippetAudit.Fix.Battery.Script
import SnippetAudit.Proofs.Finding.Offset
import SnippetAudit.Proofs.Fix.Rewrite

/-!
What making comparisons strict does to the bytes of a line.

A line is rewritten by putting `===` in the place of each loose comparison. In its bytes this is a splice at the
offsets of the comparisons (`bytesOf_compareStrictly`), which cuts the line at those only and two bytes behind
them, where characters begin. What it comes to is one more equals sign in front of each
(`spliceFrom_placesFrom`).
-/

namespace SnippetAudit.Fix

open Text Finding Battery

/-- Put an equals sign in front of each byte that is at an offset, and keep all bytes; `at'` is the place of the
first byte. -/
def insertFrom (offsets : List Nat) (at' : Nat) : List UInt8 → List UInt8
  | [] => []
  | b :: rest =>
    if at' ∈ offsets then equalsSign :: b :: insertFrom offsets (at' + 1) rest
    else b :: insertFrom offsets (at' + 1) rest

section Insert

variable {offsets : List Nat} {at' o : Nat} {bytes : List UInt8}

/-- An offset that is passed has no say any more. -/
theorem insertFrom_of_lt (passed : o < at') :
    insertFrom (o :: offsets) at' bytes = insertFrom offsets at' bytes := by
  induction bytes generalizing at' with
  | nil => rfl
  | cons b rest ih =>
    have apart : at' ≠ o := by omega
    rw [insertFrom, insertFrom, ih (Nat.lt_succ_of_lt passed)]
    simp only [List.mem_cons, apart, false_or]

/-- At the first offset an equals sign is put in front of a byte. -/
theorem insertFrom_at {b : UInt8} :
    insertFrom (at' :: offsets) at' (b :: bytes) = equalsSign :: b :: insertFrom offsets (at' + 1) bytes := by
  rw [insertFrom, if_pos List.mem_cons_self, insertFrom_of_lt (Nat.lt_succ_self at')]

end Insert

section Splice

variable {before : Option Char} {b : Option UInt8} {s : List Char} {u v bytes : List UInt8}
  {offsets : List Nat} {at' : Nat}

/-- What is in front of all offsets is kept. -/
theorem spliceFrom_append (beyond : ∀ o ∈ offsets, at' + u.length ≤ o) :
    spliceFrom at' offsets (u ++ v) = u ++ spliceFrom (at' + u.length) offsets v := by
  cases offsets with
  | nil => rfl
  | cons o offsets =>
    have above := beyond o List.mem_cons_self
    have left : o + 2 - at' = u.length + (o + 2 - (at' + u.length)) := by omega
    have taken : o - at' = u.length + (o - (at' + u.length)) := by omega
    rw [spliceFrom, spliceFrom, left, taken, List.take_length_add_append, List.drop_length_add_append,
      List.append_assoc, List.append_assoc, List.append_assoc]

/-- At an offset two equals signs become three. -/
theorem spliceFrom_at :
    spliceFrom at' (at' :: offsets) (equalsSign :: equalsSign :: v) =
      equalsSign :: equalsSign :: equalsSign :: spliceFrom (at' + 2) offsets v := by
  rw [spliceFrom, Nat.sub_self, Nat.add_sub_cancel_left]
  rfl

/-- **Splicing a line makes its comparisons strict.** -/
theorem encode_strictFrom (at' : Nat) (same : SameFront before b) :
    encode (strictFrom before s) = spliceFrom at' (placesFrom b at' (encode s)) (encode s) := by
  induction before, s using search_induction looseEquality generalizing b at' with
  | nil before => rfl
  | missed before c rest here ih =>
    have beyond : ∀ o ∈ placesFrom ((String.utf8EncodeChar c).getLast?.or b) (at' + c.utf8Size) (encode rest),
        at' + (String.utf8EncodeChar c).length ≤ o := by
      rw [String.length_utf8EncodeChar]
      exact fun o mem => le_of_mem_placesFrom mem
    rw [strictFrom_cons_of_none here, encode_cons, ih (at' + c.utf8Size) (sameFront_some c b),
      placesFrom_encode_of_none same here, encode_cons, spliceFrom_append beyond,
      String.length_utf8EncodeChar]
  | found before c rest n here ih =>
    obtain ⟨tail, rfl, rfl, rfl, places⟩ := placesFrom_encode_of_some at' same here
    have next := ih (at' + 2) (sameFront_some '=' none)
    rw [strictFrom_of_some here, places]
    exact (congrArg (equalsSign :: equalsSign :: equalsSign :: ·) next).trans spliceFrom_at.symm

/-- **Splicing inserts an equals sign at each place**, and changes nothing else. -/
theorem spliceFrom_placesFrom :
    spliceFrom at' (placesFrom b at' bytes) bytes = insertFrom (placesFrom b at' bytes) at' bytes := by
  induction bytes generalizing b at' with
  | nil => rfl
  | cons x rest ih =>
    -- What is in front of an offset is kept, also by splicing from there on.
    have kept (y : UInt8) (from' : Nat) (t : List UInt8) {os : List Nat} (beyond : ∀ o ∈ os, from' + 1 ≤ o) :
        spliceFrom from' os (y :: t) = y :: spliceFrom (from' + 1) os t :=
      @spliceFrom_append [y] t os from' beyond
    rw [placesFrom]
    split
    next here =>
      obtain ⟨tail, rfl, rfl⟩ : ∃ tail, x = equalsSign ∧ rest = equalsSign :: tail := by
        obtain ⟨tail, rfl⟩ := List.head?_eq_some_iff.mp (List.head?_eq_getElem?.trans here.2.1)
        exact ⟨tail, Option.some.inj here.1, rfl⟩
      have later : placesFrom (some equalsSign) (at' + 1) (equalsSign :: tail) =
          placesFrom (some equalsSign) (at' + 2) tail := if_neg (not_looseHere_behind_equals _)
      have next := @ih (some equalsSign) (at' + 1)
      rw [later] at next ⊢
      rw [spliceFrom_at, ← kept equalsSign (at' + 1) tail fun o mem => le_of_mem_placesFrom mem, next,
        insertFrom_at]
    next missed =>
      have apart : at' ∉ placesFrom (some x) (at' + 1) rest :=
        fun mem => Nat.not_succ_le_self at' (le_of_mem_placesFrom mem)
      rw [kept x at' rest fun o mem => le_of_mem_placesFrom mem, ih, insertFrom, if_neg apart]

end Splice

/-- The rewrite of a line is a splice at the offsets of its comparisons. -/
theorem bytesOf_compareStrictly (line : String) :
    bytesOf (compareStrictly line) = spliceFrom 0 (looseOffsets line) (bytesOf line) := by
  rw [looseOffsets_eq, bytesOf_eq, bytesOf_eq, compareStrictly, toList_rewriteLine]
  exact encode_strictFrom 0 sameFront_none

/-- **Where a line compares loosely, and what making it strict changes.** The offsets grow, and they are those
at which two equals signs stand with no third one behind them and no part of an operator in front. The rewrite
inserts one equals sign at each of them and keeps all other bytes, and compares loosely nowhere. -/
theorem looseOffsets_spec (line : String) :
    (looseOffsets line).Pairwise (· < ·) ∧
      (∀ p, p ∈ looseOffsets line ↔ LooseAt (bytesOf line) p) ∧
      bytesOf (compareStrictly line) = insertFrom (looseOffsets line) 0 (bytesOf line) ∧
      looseOffsets (compareStrictly line) = [] := by
  refine ⟨pairwise_looseOffsets line, fun p => mem_looseOffsets_iff, ?_, ?_⟩
  · rw [bytesOf_compareStrictly, looseOffsets_eq, spliceFrom_placesFrom]
  · rw [looseOffsets_eq_nil_iff, compareStrictly, toList_rewriteLine]
    exact occurs_replace_looseEquality _

end SnippetAudit.Fix
