import SnippetAudit.Finding.Offset
import SnippetAudit.Proofs.Finding.LooseEquality
import SnippetAudit.Proofs.Text.Overlap
import SnippetAudit.Proofs.Text.Slice

/-!
The offsets at which a line compares loosely.

The scan reads the bytes of a line in runs of equals signs. It finds exactly the places at which two equals
signs stand with no third one behind them and no part of an operator in front (`LooseAt`), from the first to the
last (`looseFrom_eq`, `mem_looseOffsets_iff`). A byte that begins or ends a comparison is a character of its own
(`mem_utf8EncodeChar_iff`), so these are also the places at which the pattern `looseEquality` matches the
characters of the line (`looseOffsets_eq_starts`).
-/

namespace SnippetAudit.Finding

open Text

/-! ### Places -/

/-- The bytes that make equals signs behind them part of a longer operator. -/
def operators : List UInt8 := ['=', '!', '<', '>'].map Char.toUInt8

/-- A loose comparison is at a place of a line: two equals signs, with no third one behind them and no part of
an operator in front of them. -/
structure LooseAt (bytes : List UInt8) (p : Nat) : Prop where
  first : bytes[p]? = some equalsSign
  second : bytes[p + 1]? = some equalsSign
  behind : bytes[p + 2]? ≠ some equalsSign
  front : 0 < p → ∀ b ∈ bytes[p - 1]?, b ∉ operators

/-- A loose comparison is at the beginning of some bytes, with a byte in front of them. -/
def LooseHere (before : Option UInt8) (bytes : List UInt8) : Prop :=
  bytes[0]? = some equalsSign ∧ bytes[1]? = some equalsSign ∧ bytes[2]? ≠ some equalsSign ∧
    ∀ b ∈ before, b ∉ operators

instance (before : Option UInt8) (bytes : List UInt8) : Decidable (LooseHere before bytes) :=
  inferInstanceAs (Decidable (_ ∧ _))

theorem looseAt_append_iff {pre bytes : List UInt8} :
    LooseAt (pre ++ bytes) pre.length ↔ LooseHere pre.getLast? bytes := by
  have there (i : Nat) : (pre ++ bytes)[pre.length + i]? = bytes[i]? := by
    rw [List.getElem?_append_right (Nat.le_add_right _ _), Nat.add_sub_cancel_left]
  have front : (0 < pre.length → ∀ b ∈ (pre ++ bytes)[pre.length - 1]?, b ∉ operators) ↔
      ∀ b ∈ pre.getLast?, b ∉ operators := by
    rcases List.eq_nil_or_concat pre with rfl | ⟨pre, b, rfl⟩
    · simp
    · simp
  have first : (pre ++ bytes)[pre.length]? = bytes[0]? := there 0
  rw [LooseHere, ← first, ← there 1, ← there 2, ← front]
  exact ⟨fun h => ⟨h.first, h.second, h.behind, h.front⟩, fun h => ⟨h.1, h.2.1, h.2.2.1, h.2.2.2⟩⟩

/-- The places at which a loose comparison is, from a place on. -/
def placesFrom (before : Option UInt8) (at' : Nat) : List UInt8 → List Nat
  | [] => []
  | b :: rest =>
    if LooseHere before (b :: rest) then at' :: placesFrom (some b) (at' + 1) rest
    else placesFrom (some b) (at' + 1) rest

section Places

variable {before : Option UInt8} {b : UInt8} {u s rest : List UInt8} {run at' p : Nat}

/-- No comparison starts behind an equals sign. -/
theorem not_looseHere_behind_equals (s : List UInt8) : ¬ LooseHere (some equalsSign) s :=
  fun here => here.2.2.2 equalsSign rfl (by decide)

theorem not_looseHere_of_ne (other : b ≠ equalsSign) : ¬ LooseHere before (b :: rest) :=
  fun here => other (Option.some.inj here.1)

/-- Behind an equals sign, a run of equals signs is passed over. -/
theorem placesFrom_replicate :
    placesFrom (some equalsSign) at' (List.replicate run equalsSign ++ s) =
      placesFrom (some equalsSign) (at' + run) s := by
  induction run generalizing at' with
  | zero => rfl
  | succ run ih =>
    rw [List.replicate_succ, List.cons_append, placesFrom, if_neg (not_looseHere_behind_equals _), ih,
      Nat.add_assoc, Nat.add_comm 1]

/-- Where a run of equals signs begins, a comparison is exactly if the run is of two and no operator is in
front of it. -/
theorem looseHere_run_iff (plain : before ≠ some equalsSign) (ends : s.head? ≠ some equalsSign) :
    LooseHere before (equalsSign :: (List.replicate run equalsSign ++ s)) ↔
      run = 1 ∧ before.any isCompound = false := by
  have other : (∀ b ∈ before, b ∉ operators) ↔ before.any isCompound = false := by
    cases before with
    | none => simp
    | some b =>
      have plain : b ≠ '='.toUInt8 := by simpa [equalsSign] using plain
      simp [operators, isCompound, plain, and_assoc]
  rw [LooseHere, other]
  match run with
  | 0 =>
    have single : s[0]? ≠ some equalsSign := by rwa [← List.head?_eq_getElem?]
    simp [single]
  | 1 =>
    have ends : s[0]? ≠ some equalsSign := by rwa [← List.head?_eq_getElem?]
    simp [ends]
  | run + 2 => simp [List.replicate_succ]

/-- What a run adds where it ends is what is found on it. -/
theorem exists_placesFrom_run (at' run : Nat) (plain : before ≠ some equalsSign)
    (ends : s.head? ≠ some equalsSign) :
    ∃ after, placesFrom before at' (List.replicate run equalsSign ++ s) =
      runOffsets before run (at' + run) ++ placesFrom after (at' + run) s := by
  cases run with
  | zero => exact ⟨before, rfl⟩
  | succ run =>
    refine ⟨some equalsSign, ?_⟩
    have shift : at' + 1 + run = at' + (run + 1) := by omega
    rw [List.replicate_succ, List.cons_append, placesFrom, placesFrom_replicate, shift, runOffsets]
    simp only [looseHere_run_iff plain ends]
    by_cases two : run = 1 ∧ before.any isCompound = false
    · obtain ⟨rfl, front⟩ := two
      simp [front]
    · have none : ¬ (decide (run + 1 = 2) && !before.any isCompound) = true := by simpa using two
      rw [if_neg two, if_neg none]
      rfl

/-- **The scan of runs finds exactly these places.** -/
theorem looseFrom_eq (plain : before ≠ some equalsSign) :
    looseFrom before run (at' + run) s =
      placesFrom before at' (List.replicate run equalsSign ++ s) := by
  induction s generalizing before run at' with
  | nil =>
    obtain ⟨after, found⟩ := exists_placesFrom_run at' run plain (s := []) (by simp)
    rw [found, looseFrom, placesFrom, List.append_nil]
  | cons b rest ih =>
    rw [looseFrom]
    split
    next same =>
      subst same
      rw [Nat.add_assoc, ih plain, List.replicate_succ', List.append_assoc, List.singleton_append]
    next other =>
      have ends : (b :: rest).head? ≠ some equalsSign := by simpa using other
      obtain ⟨after, found⟩ := exists_placesFrom_run at' run plain ends
      have next := @ih (some b) 0 (at' + run + 1) (by simpa using other)
      rw [found, placesFrom, if_neg (not_looseHere_of_ne other), ← Nat.add_zero (at' + run + 1), next]
      rfl

/-- These are the places from the first one on that are loose comparisons. -/
theorem mem_placesFrom_iff {pre : List UInt8} :
    p ∈ placesFrom pre.getLast? pre.length s ↔ pre.length ≤ p ∧ LooseAt (pre ++ s) p := by
  induction s generalizing pre with
  | nil =>
    refine iff_of_false List.not_mem_nil ?_
    rintro ⟨beyond, there⟩
    have outside := there.first
    rw [List.append_nil, List.getElem?_eq_none beyond] at outside
    cases outside
  | cons b rest ih =>
    have next := @ih (pre ++ [b])
    rw [List.getLast?_concat, List.length_append, List.length_singleton, List.append_assoc,
      List.singleton_append] at next
    have here : LooseAt (pre ++ b :: rest) pre.length ↔ LooseHere pre.getLast? (b :: rest) :=
      looseAt_append_iff
    rw [placesFrom]
    split
    next found =>
      rw [List.mem_cons, next]
      constructor
      · rintro (rfl | ⟨beyond, there⟩)
        · exact ⟨Nat.le_refl _, here.mpr found⟩
        · exact ⟨Nat.le_of_succ_le beyond, there⟩
      · rintro ⟨beyond, there⟩
        exact (Nat.eq_or_lt_of_le beyond).imp Eq.symm fun beyond => ⟨beyond, there⟩
    next missed =>
      rw [next]
      constructor
      · rintro ⟨beyond, there⟩
        exact ⟨Nat.le_of_succ_le beyond, there⟩
      · rintro ⟨beyond, there⟩
        refine ⟨Nat.lt_of_le_of_ne beyond ?_, there⟩
        rintro rfl
        exact missed (here.mp there)

theorem le_of_mem_placesFrom (mem : p ∈ placesFrom before at' s) : at' ≤ p := by
  induction s generalizing before at' with
  | nil => cases mem
  | cons b rest ih =>
    rw [placesFrom] at mem
    split at mem
    · rcases List.mem_cons.mp mem with rfl | mem
      · exact Nat.le_refl _
      · exact Nat.le_of_succ_le (ih mem)
    · exact Nat.le_of_succ_le (ih mem)

/-- They are in order. -/
theorem pairwise_placesFrom : (placesFrom before at' s).Pairwise (· < ·) := by
  induction s generalizing before at' with
  | nil => exact .nil
  | cons b rest ih =>
    rw [placesFrom]
    split
    · exact .cons (fun p mem => le_of_mem_placesFrom mem) ih
    · exact ih

end Places

/-! ### Characters and bytes -/

section Encoding

variable {a c : Char} {b : UInt8}

theorem utf8EncodeChar_of_ascii (ascii : c.toNat < 128) : String.utf8EncodeChar c = [c.toUInt8] := by
  have small : c.val ≤ 127 := UInt32.le_iff_toNat_le.mpr (Nat.le_of_lt_succ ascii)
  exact String.utf8EncodeChar_eq_singleton (Char.utf8Size_eq_one_iff.mpr small)

theorem toNat_toUInt8_of_ascii (ascii : c.toNat < 128) : c.toUInt8.toNat = c.toNat := by
  rw [Char.toUInt8, UInt32.toNat_toUInt8]
  exact Nat.mod_eq_of_lt (Nat.lt_trans ascii (by decide))

/-- The bytes of all other characters are greater. -/
theorem le_of_mem_utf8EncodeChar (wide : 128 ≤ c.toNat) (mem : b ∈ String.utf8EncodeChar c) :
    128 ≤ b.toNat := by
  have wide : ¬ c.val.toNat ≤ 127 := Nat.not_le.mpr wide
  simp only [String.utf8EncodeChar, if_neg wide] at mem
  split at mem
  · simp only [List.mem_cons, List.not_mem_nil, or_false] at mem
    rcases mem with rfl | rfl <;> rw [UInt8.toNat_ofNat'] <;> omega
  · split at mem
    · simp only [List.mem_cons, List.not_mem_nil, or_false] at mem
      rcases mem with rfl | rfl | rfl <;> rw [UInt8.toNat_ofNat'] <;> omega
    · simp only [List.mem_cons, List.not_mem_nil, or_false] at mem
      rcases mem with rfl | rfl | rfl | rfl <;> rw [UInt8.toNat_ofNat'] <;> omega

/-- **A character that is one byte is told by it**: no other character has this byte. -/
theorem mem_utf8EncodeChar_iff (ascii : a.toNat < 128) : a.toUInt8 ∈ String.utf8EncodeChar c ↔ c = a := by
  constructor
  · intro mem
    by_cases ascii' : c.toNat < 128
    · rw [utf8EncodeChar_of_ascii ascii', List.mem_singleton] at mem
      rw [← Char.toNat_inj, ← toNat_toUInt8_of_ascii ascii, ← toNat_toUInt8_of_ascii ascii', mem]
    · have wide := le_of_mem_utf8EncodeChar (Nat.not_lt.mp ascii') mem
      rw [toNat_toUInt8_of_ascii ascii] at wide
      exact absurd ascii (Nat.not_lt.mpr wide)
  · rintro rfl
    rw [utf8EncodeChar_of_ascii ascii]
    exact List.mem_singleton.mpr rfl

theorem equalsSign_mem_iff : equalsSign ∈ String.utf8EncodeChar c ↔ c = '=' :=
  mem_utf8EncodeChar_iff (by decide)

/-- A character is part of an operator exactly if its last byte is. -/
theorem mem_operators_iff (last : (String.utf8EncodeChar c).getLast? = some b) :
    b ∈ operators ↔ Operator c := by
  have small : ['=', '!', '<', '>'].all (·.toNat < 128) = true := by decide
  have ascii (a : Char) (mem : a ∈ ['=', '!', '<', '>']) : a.toNat < 128 :=
    of_decide_eq_true (List.all_eq_true.mp small a mem)
  have known : Operator c ↔ c ∈ ['=', '!', '<', '>'] := by simp [Operator]
  rw [known, operators, List.mem_map]
  constructor
  · rintro ⟨a, mem, rfl⟩
    rwa [(mem_utf8EncodeChar_iff (ascii a mem)).mp (List.mem_of_getLast? last)]
  · intro mem
    rw [utf8EncodeChar_of_ascii (ascii c mem), List.getLast?_singleton] at last
    exact ⟨c, mem, Option.some.inj last⟩

end Encoding

/-- The bytes of some characters. -/
def encode (s : List Char) : List UInt8 := s.flatMap String.utf8EncodeChar

theorem bytesOf_eq (line : String) : bytesOf line = encode line.toList := by
  rw [bytesOf, String.toUTF8_eq_toByteArray, ← String.utf8Encode_toList, List.utf8Encode]
  simp [encode]

/-- In front of a place are a character and its last byte, neither or both of which are part of an operator. -/
def SameFront (before : Option Char) (b : Option UInt8) : Prop :=
  (∀ x ∈ b, x ∉ operators) ↔ ∀ c ∈ before, ¬ Operator c

section Encode

variable {before : Option Char} {b : Option UInt8} {c : Char} {s rest : List Char}

theorem sameFront_none : SameFront none none := by simp [SameFront]

theorem sameFront_some (c : Char) (b : Option UInt8) :
    SameFront (some c) ((String.utf8EncodeChar c).getLast?.or b) := by
  have last := List.getLast?_eq_some_getLast (@String.utf8EncodeChar_ne_nil c)
  rw [SameFront, last, Option.some_or]
  simp [mem_operators_iff last]

theorem encode_cons : encode (c :: rest) = String.utf8EncodeChar c ++ encode rest := rfl

/-- Bytes begin with an equals sign exactly if the text does. -/
theorem head?_encode_iff : (encode s)[0]? = some equalsSign ↔ s.head? = some '=' := by
  cases s with
  | nil => simp [encode]
  | cons c rest =>
    have first : (encode (c :: rest))[0]? = (String.utf8EncodeChar c).head? := by
      rw [encode_cons, ← List.head?_eq_getElem?, List.head?_append,
        List.head?_eq_some_head String.utf8EncodeChar_ne_nil, Option.some_or]
    rw [first, List.head?_cons, Option.some_inj]
    constructor
    · intro first
      exact equalsSign_mem_iff.mp (List.mem_of_head? first)
    · rintro rfl
      rfl

/-- **A comparison of bytes is one of characters.** -/
theorem looseHere_encode_iff (same : SameFront before b) :
    LooseHere b (encode s) ↔ (looseEquality before s).isSome = true := by
  have same : (∀ x ∈ b, x ∉ operators) ↔ ∀ c ∈ before, ¬ Operator c := same
  rw [Option.isSome_iff_exists]
  simp only [looseEquality_eq_some_iff, exists_eq_left]
  rw [LooseHere, same, head?_encode_iff]
  constructor
  · rintro ⟨first, second, third, plain⟩
    obtain ⟨rest, rfl⟩ := List.head?_eq_some_iff.mp first
    obtain ⟨rest, rfl⟩ := List.head?_eq_some_iff.mp (head?_encode_iff.mp second)
    exact ⟨plain, rest, rfl, mt head?_encode_iff.mpr third⟩
  · rintro ⟨plain, rest, rfl, third⟩
    exact ⟨rfl, rfl, mt head?_encode_iff.mp third, plain⟩

/-- Bytes without an equals sign are passed over. -/
theorem placesFrom_append {b : Option UInt8} {u v : List UInt8} {at' : Nat} (absent : equalsSign ∉ u) :
    placesFrom b at' (u ++ v) = placesFrom (u.getLast?.or b) (at' + u.length) v := by
  induction u generalizing b at' with
  | nil => rfl
  | cons x u ih =>
    rw [List.mem_cons, not_or] at absent
    rw [List.cons_append, placesFrom, if_neg (not_looseHere_of_ne (Ne.symm absent.1)), ih absent.2,
      getLast?_cons_or, List.length_cons, Nat.add_assoc, Nat.add_comm 1]

/-- So are those of a character at which no comparison is. -/
theorem placesFrom_encode_of_none {at' : Nat} (same : SameFront before b)
    (missed : looseEquality before (c :: rest) = none) :
    placesFrom b at' (encode (c :: rest)) =
      placesFrom ((String.utf8EncodeChar c).getLast?.or b) (at' + c.utf8Size) (encode rest) := by
  by_cases sign : c = '='
  · subst sign
    have nowhere : ¬ LooseHere b (encode ('=' :: rest)) := by
      rw [looseHere_encode_iff same, missed]
      exact Bool.false_ne_true
    exact if_neg nowhere
  · rw [encode_cons, placesFrom_append (mt equalsSign_mem_iff.mp sign), String.length_utf8EncodeChar]

/-- Where a comparison is, the search goes on behind it. -/
theorem placesFrom_encode_of_some {n : Nat} (at' : Nat) (same : SameFront before b)
    (found : looseEquality before (c :: rest) = some n) :
    ∃ tail, n = 2 ∧ c = '=' ∧ rest = '=' :: tail ∧
      placesFrom b at' (encode (c :: rest)) = at' :: placesFrom (some equalsSign) (at' + 2) (encode tail) := by
  obtain ⟨rfl, -, tail, cut, -⟩ := looseEquality_eq_some_iff.mp found
  obtain ⟨rfl, rfl⟩ := List.cons.inj cut
  have here : LooseHere b (encode ('=' :: '=' :: tail)) := by
    rw [looseHere_encode_iff same, found]
    rfl
  refine ⟨tail, rfl, rfl, rfl, (if_pos here).trans ?_⟩
  exact congrArg (at' :: ·) (if_neg (not_looseHere_behind_equals _))

theorem byteOffset_append (pre s : List Char) : byteOffset (pre ++ s) pre.length = byteLength pre := by
  rw [byteOffset, List.take_left]

/-- **The places in the bytes are those of the matches in the text**, counted in bytes. -/
theorem placesFrom_encode (pre : List Char) (same : SameFront before b) :
    placesFrom b (byteLength pre) (encode s) =
      (startsFrom looseEquality before pre.length 0 s).map (byteOffset (pre ++ s)) := by
  induction before, s using search_induction looseEquality generalizing b pre with
  | nil before => rfl
  | missed before c rest here ih =>
    have next := ih (pre ++ [c]) (sameFront_some c b)
    have shift : byteLength (pre ++ [c]) = byteLength pre + c.utf8Size := byteLength_append _ _
    rw [shift, List.length_append, List.length_singleton, List.append_assoc, List.singleton_append] at next
    rw [placesFrom_encode_of_none same here, startsFrom_of_none here, next]
  | found before c rest n here ih =>
    obtain ⟨tail, rfl, rfl, rfl, places⟩ := placesFrom_encode_of_some (byteLength pre) same here
    have next := ih (pre ++ ['=', '=']) (sameFront_some '=' none)
    have shift : byteLength (pre ++ ['=', '=']) = byteLength pre + 2 := byteLength_append _ _
    rw [shift, List.length_append, List.append_assoc] at next
    rw [places, startsFrom_of_some here, List.map_cons, byteOffset_append]
    exact congrArg (byteLength pre :: ·) next

end Encode

/-! ### Offsets -/

theorem looseOffsets_eq (line : String) : looseOffsets line = placesFrom none 0 (bytesOf line) := by
  have whole := @looseFrom_eq none (bytesOf line) 0 0 (by simp)
  exact whole

theorem mem_looseOffsets_iff {line : String} {p : Nat} :
    p ∈ looseOffsets line ↔ LooseAt (bytesOf line) p := by
  have whole := @mem_placesFrom_iff (bytesOf line) p []
  rw [looseOffsets_eq]
  simpa using whole

/-- **The offsets are those of the matches in the line**, counted in bytes. So each is where a character
begins. -/
theorem looseOffsets_eq_starts (line : String) :
    looseOffsets line = (starts looseEquality line.toList).map (byteOffset line.toList) := by
  rw [looseOffsets_eq, bytesOf_eq]
  exact placesFrom_encode [] sameFront_none

/-- Offsets are counted in bytes, and longer runs and other operators are no comparisons. -/
example : looseOffsets "é == x === y <== z==" = [3, 19] := by decide

/-- There are none exactly if no loose comparison is found on the line. -/
theorem looseOffsets_eq_nil_iff {line : String} :
    looseOffsets line = [] ↔ occurs looseEquality line.toList = false := by
  rw [looseOffsets_eq_starts, List.map_eq_nil_iff, starts_eq_nil_iff]

theorem pairwise_looseOffsets (line : String) : (looseOffsets line).Pairwise (· < ·) := by
  rw [looseOffsets_eq]
  exact pairwise_placesFrom

end SnippetAudit.Finding
