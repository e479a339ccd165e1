import Mathlib.Tactic.SplitIfs
import SnippetAudit.Json.Printer
import SnippetAudit.Json.Reader

/-!
White space, strings and numbers that were written, as they are read.

Spacing is skipped. Whatever a string holds is escaped so that it is read back
(`stringBody_flatMap_escape`). The digits of a number are read up to the text behind it, which must
not go on with the number (`Ended`). An integer is read back if it fits in a word
(`number_intText`). A floating-point number is read by one operation on its digits, so not every one
is read back; those that are have `ReadsBack`, among them the ones with few places whose quotient by
a power of ten is right (`readsBack_of_point`).
-/

namespace SnippetAudit.Json

/-! ### White space -/

/-- Texts that are skipped. -/
def Blank (s : List Char) : Prop := ∀ c ∈ s, isSpace c = true

theorem skipSpace_append {w : List Char} (blank : Blank w) (s : List Char) :
    skipSpace (w ++ s) = skipSpace s := by
  induction w with
  | nil => rfl
  | cons c w ih =>
    have space : isSpace c = true := blank c List.mem_cons_self
    have rest : Blank w := fun d mem => blank d (List.mem_cons_of_mem c mem)
    rw [List.cons_append, skipSpace, List.dropWhile_cons_of_pos space]
    exact ih rest

theorem skipSpace_cons {c : Char} (visible : isSpace c = false) (s : List Char) :
    skipSpace (c :: s) = c :: s := by
  rw [skipSpace, List.dropWhile_cons_of_neg (by simp [visible])]

/-- Spacing of which all is skipped. -/
structure Spacing.Skipped (sp : Spacing) : Prop where
  line : ∀ level, Blank (sp.line level)
  colon : Blank sp.colon

theorem skipped_pretty : Spacing.pretty.Skipped where
  line level := by
    intro c mem
    simp only [Spacing.pretty, List.mem_cons, List.mem_replicate] at mem
    rcases mem with rfl | ⟨-, rfl⟩ <;> rfl
  colon := by
    intro c mem
    rw [List.mem_singleton.mp mem]
    rfl

/-! ### Strings -/

theorem stringBody_plain {c : Char} (mark : c ≠ '"') (slash : c ≠ '\\') (low : 0x20 ≤ c.toNat)
    (s : List Char) : stringBody none (c :: s) = prepend c (stringBody none s) := by
  rw [stringBody.eq_def]
  split
  next h => exact absurd (List.cons.inj h).1 slash
  next h => exact absurd (List.cons.inj h).1 slash
  next h =>
    obtain ⟨rfl, rfl⟩ := List.cons.inj h
    simp [mark, slash, Nat.not_lt.mpr low]
  next h => cases h

theorem stringBody_escaped {c d : Char} (letter : c ≠ 'u') (known : escaped c = some d)
    (s : List Char) : stringBody none ('\\' :: c :: s) = prepend d (stringBody none s) := by
  rw [stringBody.eq_def]
  split
  next h => exact absurd (List.cons.inj (List.cons.inj h).2).1 letter
  next h =>
    obtain ⟨rfl, rfl⟩ := List.cons.inj (List.cons.inj h).2
    rw [known]
  next unlike h =>
    obtain ⟨rfl, rfl⟩ := List.cons.inj h
    exact (unlike c s rfl rfl).elim
  next h => cases h

/-- The two last digits of a control character in base sixteen. -/
theorem codeUnit_hexDigit : ∀ n < 0x20,
    codeUnit '0' '0' (hexDigit (n / 16)) (hexDigit (n % 16)) = some n := by
  decide

theorem stringBody_control {c : Char} (low : c.toNat < 0x20) (s : List Char) :
    stringBody none ('\\' :: 'u' :: '0' :: '0' :: hexDigit (c.toNat / 16) ::
      hexDigit (c.toNat % 16) :: s) = prepend c (stringBody none s) := by
  have high : ¬ 0xD800 ≤ c.toNat := by omega
  have surrogate : ¬ 0xDC00 ≤ c.toNat := by omega
  rw [stringBody.eq_def]
  simp [codeUnit_hexDigit c.toNat low, high, surrogate, Char.ofNat_toNat]

/-- A character that is written is read back. -/
theorem stringBody_escape (c : Char) (s : List Char) :
    stringBody none (escape c ++ s) = prepend c (stringBody none s) := by
  have short {d e : Char} (same : c = d) (letter : e ≠ 'u') (known : escaped e = some d) :
      stringBody none (['\\', e] ++ s) = prepend c (stringBody none s) := by
    rw [same]
    exact stringBody_escaped letter known s
  unfold escape
  split_ifs with h₁ h₂ h₃ h₄ h₅ h₆ h₇ low
  · exact short h₁ (by decide) rfl
  · exact short h₂ (by decide) rfl
  · exact short h₃ (by decide) rfl
  · exact short h₄ (by decide) rfl
  · exact short h₅ (by decide) rfl
  · exact short h₆ (by decide) rfl
  · exact short h₇ (by decide) rfl
  · exact stringBody_control low s
  · exact stringBody_plain h₁ h₂ (Nat.not_lt.mp low) s

/-- **A string that is written is read back.** -/
theorem stringBody_flatMap_escape (cs s : List Char) :
    stringBody none (cs.flatMap escape ++ '"' :: s) = some (cs, s) := by
  induction cs with
  | nil =>
    rw [List.flatMap_nil, List.nil_append, stringBody.eq_def]
    rfl
  | cons c cs ih =>
    rw [List.flatMap_cons, List.append_assoc, stringBody_escape, ih]
    rfl

/-! ### Numbers -/

/-- A text in front of which a number has come to its end. -/
def Ended : List Char → Prop
  | [] => True
  | c :: _ => c.isDigit = false ∧ c ≠ '.' ∧ c ≠ 'e' ∧ c ≠ 'E'

theorem atDigit_of_ended {s : List Char} (ended : Ended s) : atDigit s = false := by
  cases s with
  | nil => rfl
  | cons c s => exact ended.1

theorem exponentPart_of_ended {s : List Char} (ended : Ended s) :
    exponentPart s = some (none, s) := by
  cases s with
  | nil => rfl
  | cons c s =>
    obtain ⟨-, -, lower, upper⟩ := ended
    simp [exponentPart, lower, upper]

theorem le_ofDigitChars (ds : List Char) (n : Nat) : n ≤ Nat.ofDigitChars 10 ds n := by
  induction ds generalizing n with
  | nil => exact Nat.le_of_eq Nat.ofDigitChars_nil.symm
  | cons d ds ih =>
    rw [Nat.ofDigitChars_cons]
    have := ih (10 * n + (d.toNat - '0'.toNat))
    omega

/-- Digits of a number that fits in a word are all read. -/
theorem wordDigits_append {ds s : List Char} (digits : ∀ d ∈ ds, d.isDigit = true)
    (behind : atDigit s = false) (n kept : Nat)
    (fits : Nat.ofDigitChars 10 ds n < 0x10000000000000000) :
    wordDigits n kept false (ds ++ s) = (Nat.ofDigitChars 10 ds n, kept + ds.length, 0, s) := by
  induction ds generalizing n kept with
  | nil =>
    cases s with
    | nil => simp [wordDigits]
    | cons c s =>
      rw [atDigit] at behind
      simp [wordDigits, behind]
  | cons d ds ih =>
    have digit : ('0' ≤ d && d ≤ '9') = true := digits d List.mem_cons_self
    rw [Nat.ofDigitChars_cons, Nat.mul_comm] at fits ⊢
    -- What fits in the end fits on the way, so no digit is dropped.
    have small := Nat.lt_of_le_of_lt (le_ofDigitChars ds _) fits
    have rest := ih (fun d mem => digits d (List.mem_cons_of_mem _ mem)) _ (kept + 1) fits
    rw [List.cons_append, wordDigits, if_pos digit]
    simp only [Bool.false_or, decide_eq_true_eq]
    rw [if_neg (Nat.not_le.mpr small), rest, List.length_cons]
    congr 2
    omega

/-- Only zero begins with the digit zero. -/
theorem head?_toDigits_ne {n : Nat} (pos : 0 < n) : (Nat.toDigits 10 n).head? ≠ some '0' := by
  induction n using Nat.base_induction 10 (by decide) with
  | single m small =>
    rw [Nat.toDigits_of_lt_base small]
    intro h
    have zero := Nat.digitChar_eq_zero.mp (Option.some.inj h)
    omega
  | digit m k small first ih =>
    rw [← Nat.toDigits_append_toDigits (by decide) first small,
      List.head?_append, List.head?_eq_some_head Nat.toDigits_ne_nil, Option.some_or]
    rw [List.head?_eq_some_head Nat.toDigits_ne_nil] at ih
    exact ih first


/-- What is read behind the digits of a whole number, which fits in a word. -/
def behindWhole (negative : Bool) (n : Nat) (s : List Char) : Option (Json × List Char) := do
  let (value, places, hasFraction, s) ← match s with
    | '.' :: rest =>
      if atDigit rest then
        let (value, places, _, rest) := wordDigits n 0 false rest
        some (value, places, true, rest)
      else none
    | rest => some (n, 0, false, rest)
  let (power, behind) ← exponentPart s
  let m ← numberOf negative (!hasFraction && power.isNone) value (-(places : Int) + power.getD 0)
  some (m, behind)

/-- A sign in front of a number. -/
def signed (negative : Bool) (s : List Char) : List Char := if negative then '-' :: s else s

theorem number_zero (negative : Bool) {s : List Char} (behind : atDigit s = false) :
    number (signed negative ('0' :: s)) = behindWhole negative 0 s := by
  unfold behindWhole
  cases negative <;> split <;> simp [number, signed, behind]

theorem number_digits (negative : Bool) {d : Char} {ds s : List Char} (zero : d ≠ '0')
    (digits : ∀ c ∈ d :: ds, c.isDigit = true) (behind : atDigit s = false)
    (fits : Nat.ofDigitChars 10 (d :: ds) 0 < 0x10000000000000000) :
    number (signed negative (d :: ds ++ s)) =
      behindWhole negative (Nat.ofDigitChars 10 (d :: ds) 0) s := by
  have read := wordDigits_append digits behind 0 0 fits
  have begun : atDigit (d :: ds ++ s) = true := digits d List.mem_cons_self
  have unsigned : d ≠ '-' := by
    rintro rfl
    exact absurd (digits '-' List.mem_cons_self) (by decide)
  rw [List.cons_append] at read begun ⊢
  unfold behindWhole
  cases negative <;> split <;> simp [number, signed, zero, unsigned, begun, read]

/-- Reading the digits of a number. -/
theorem number_toDigits (negative : Bool) {n : Nat} (fits : n < 0x10000000000000000)
    {s : List Char} (behind : atDigit s = false) :
    number (signed negative (Nat.toDigits 10 n ++ s)) = behindWhole negative n s := by
  rcases Nat.eq_zero_or_pos n with rfl | pos
  · rw [Nat.toDigits_zero]
    exact number_zero negative behind
  · have first := head?_toDigits_ne pos
    have digits : ∀ d ∈ Nat.toDigits 10 n, d.isDigit = true :=
      fun d mem => Nat.isDigit_of_mem_toDigits (by decide) (by decide) mem
    have value : Nat.ofDigitChars 10 (Nat.toDigits 10 n) 0 = n := Nat.ofDigitChars_ten_toDigits
    cases written : Nat.toDigits 10 n with
    | nil => exact absurd written Nat.toDigits_ne_nil
    | cons d ds =>
      rw [written] at first digits value
      have read := number_digits negative (fun same => first (congrArg some same)) digits behind
        (by rw [value]; exact fits)
      rw [value] at read
      exact read

theorem behindWhole_of_ended (negative : Bool) (n : Nat) {s : List Char} (ended : Ended s) :
    behindWhole negative n s = (numberOf negative true n 0).map (·, s) := by
  have behind := exponentPart_of_ended ended
  have pointless : ∀ rest, s ≠ '.' :: rest := by
    rintro rest rfl
    exact ended.2.1 rfl
  rw [behindWhole]
  · cases value : numberOf negative true n 0 <;> simp [behind, value]
  · exact pointless

theorem behindWhole_fraction (negative : Bool) {n : Nat} {ds s : List Char} (some : ds ≠ [])
    (digits : ∀ d ∈ ds, d.isDigit = true)
    (fits : Nat.ofDigitChars 10 ds n < 0x10000000000000000) (ended : Ended s) :
    behindWhole negative n ('.' :: ds ++ s) =
      (numberOf negative false (Nat.ofDigitChars 10 ds n) (-(ds.length : Int))).map (·, s) := by
  have read := wordDigits_append digits (atDigit_of_ended ended) n 0 fits
  have behind := exponentPart_of_ended ended
  have begun : atDigit (ds ++ s) = true := by
    cases ds with
    | nil => exact absurd rfl some
    | cons d ds => exact digits d List.mem_cons_self
  cases value : numberOf negative false (Nat.ofDigitChars 10 ds n) (-(ds.length : Int)) <;>
    simp [behindWhole, begun, read, behind, value]

/-- **An integer that fits in a word is read back.** -/
theorem number_intText {n : Int} (least : -0x8000000000000000 ≤ n) (greatest : n < 0x10000000000000000)
    {s : List Char} (ended : Ended s) : number (intText n ++ s) = some (.int n, s) := by
  have behind := atDigit_of_ended ended
  rw [intText]
  split_ifs with negative
  · have read := number_toDigits true (n := n.natAbs) (by omega) behind
    rw [behindWhole_of_ended true _ ended, numberOf, if_neg (by simp),
      if_pos (by simp; omega)] at read
    have value : -(n.natAbs : Int) = n := by omega
    rw [value] at read
    exact read
  · have read := number_toDigits false (n := n.toNat) (by omega) behind
    rw [behindWhole_of_ended false _ ended, numberOf, if_pos (by simp; omega)] at read
    have value : (n.toNat : Int) = n := by omega
    rw [value] at read
    exact read

/-- The floating-point numbers that are written so that they are read back. -/
structure ReadsBack (x : Float) : Prop where
  begins : ∃ c cs, floatText x = c :: cs ∧ (c.isDigit = true ∨ c = '-')
  number : ∀ s, Ended s → number (floatText x ++ s) = some (.float x, s)

/-- A number that is written with a point and few digits is read by one division. -/
theorem readsBack_of_point {x : Float} {n : Nat} {ds : List Char}
    (written : floatText x = Nat.toDigits 10 n ++ '.' :: ds) (some : ds ≠ [])
    (digits : ∀ d ∈ ds, d.isDigit = true)
    (fits : Nat.ofDigitChars 10 ds n < 0x10000000000000000)
    (scaled : Decimal.scaled (Nat.ofDigitChars 10 ds n) (-(ds.length : Int)) = .some x) :
    ReadsBack x where
  begins := by
    cases whole : Nat.toDigits 10 n with
    | nil => exact absurd whole Nat.toDigits_ne_nil
    | cons c cs =>
      refine ⟨c, cs ++ '.' :: ds, by rw [written, whole]; rfl, .inl ?_⟩
      exact Nat.isDigit_of_mem_toDigits (n := n) (by decide) (by decide) (whole ▸ List.mem_cons_self)
  number s ended := by
    have small : n < 0x10000000000000000 := Nat.lt_of_le_of_lt (le_ofDigitChars ds n) fits
    have read := number_toDigits false small (s := '.' :: ds ++ s) rfl
    rw [behindWhole_fraction false some digits fits ended, numberOf, if_neg (by simp),
      if_neg (by simp), scaled] at read
    rw [written, List.append_assoc]
    exact read

end SnippetAudit.Json
