import Mathlib.Data.Nat.Digits.Defs
import SnippetAudit.Config.Environment
import SnippetAudit.Proofs.Text.Lines
import SnippetAudit.Proofs.Text.Lower

/-!
Environment variables that override the configuration.

A variable stands for a number or a truth value if its text is written in a certain way
(`wordNumber?_eq_some_iff`, `truthValue?_eq_some_iff`). A setting becomes what its variable stands for, if it
stands for something, whatever the other variables say, and stays as it was otherwise (`SetBy`). Nothing else is
changed, and a second time nothing is (`override_settings`).
-/

namespace SnippetAudit

namespace Text

/-! ### Numbers -/

/-- The number that a digit stands for. -/
def digitValue (d : Char) : Nat := d.toNat - '0'.toNat

/-- A text that stands for a number below `2^64`: an optional plus sign and digits, with blanks around them. -/
def IsNumeral (text : String) (n : Nat) : Prop :=
  ∃ sign ds, Trimmed text.toList (sign ++ ds) ∧ (sign = [] ∨ sign = ['+']) ∧ ds ≠ [] ∧
    (∀ d ∈ ds, isAsciiDigit d = true) ∧ Nat.ofDigits 10 (ds.reverse.map digitValue) = n ∧
    n < 0x10000000000000000

/-- **Digits are read as in the decimal system.** -/
theorem decimalValue_eq (ds : List Char) : decimalValue ds = Nat.ofDigits 10 (ds.reverse.map digitValue) := by
  induction ds using List.reverseRecOn with
  | nil => rfl
  | append_singleton ds d ih =>
    calc
      decimalValue (ds ++ [d]) = decimalValue ds * 10 + digitValue d := by
        rw [decimalValue, List.foldl_append]
        rfl
      _ = digitValue d + 10 * Nat.ofDigits 10 (ds.reverse.map digitValue) := by
        rw [ih, Nat.mul_comm, Nat.add_comm]
      _ = Nat.ofDigits 10 ((ds ++ [d]).reverse.map digitValue) := by
        rw [List.reverse_append, List.reverse_singleton, List.singleton_append, List.map_cons, Nat.ofDigits_cons]

/-- What is behind a plus sign, if there is one in front. -/
def behindPlus : List Char → List Char
  | '+' :: rest => rest
  | rest => rest

theorem behindPlus_eq_iff {cs ds : List Char} (unsigned : ds.head? ≠ some '+') :
    behindPlus cs = ds ↔ ∃ sign, cs = sign ++ ds ∧ (sign = [] ∨ sign = ['+']) := by
  constructor
  · rintro rfl
    fun_cases behindPlus cs with
    | case1 rest => exact ⟨['+'], rfl, .inr rfl⟩
    | case2 => exact ⟨[], rfl, .inl rfl⟩
  · rintro ⟨sign, rfl, rfl | rfl⟩
    · rw [List.nil_append]
      fun_cases behindPlus ds with
      | case1 rest => exact absurd rfl unsigned
      | case2 => rfl
    · rfl

/-- The digits of a text decide which number it stands for. -/
theorem wordNumber?_eq_some_iff_digits {text : String} {n : Nat} :
    wordNumber? text = some n ↔ ∃ ds, behindPlus (dropEndBlanks (dropBlanks text.toList)) = ds ∧ ds ≠ [] ∧
      (∀ d ∈ ds, isAsciiDigit d = true) ∧ decimalValue ds = n ∧ n < 0x10000000000000000 := by
  have unfolded : wordNumber? text =
      (fun ds => if ds.isEmpty || !ds.all isAsciiDigit then none
        else if decimalValue ds < 0x10000000000000000 then some (decimalValue ds) else none)
      (behindPlus (dropEndBlanks (dropBlanks text.toList))) := rfl
  rw [unfolded, exists_eq_left']
  generalize behindPlus (dropEndBlanks (dropBlanks text.toList)) = ds
  have digits : ¬ (ds.isEmpty || !ds.all isAsciiDigit) = true ↔ ds ≠ [] ∧ ∀ d ∈ ds, isAsciiDigit d = true := by
    simp
  rw [Option.ite_none_left_eq_some, digits, Option.ite_none_right_eq_some, Option.some_inj, and_assoc]
  refine and_congr_right fun _ => and_congr_right fun _ => ?_
  constructor
  · rintro ⟨small, rfl⟩
    exact ⟨rfl, small⟩
  · rintro ⟨rfl, small⟩
    exact ⟨small, rfl⟩

/-- **Which texts are read as numbers.** -/
theorem wordNumber?_eq_some_iff {text : String} {n : Nat} : wordNumber? text = some n ↔ IsNumeral text n := by
  rw [wordNumber?_eq_some_iff_digits]
  have unsigned {ds : List Char} (digits : ∀ d ∈ ds, isAsciiDigit d = true) : ds.head? ≠ some '+' := by
    intro plus
    exact absurd (digits '+' (List.mem_of_head? plus)) (by decide)
  constructor
  · rintro ⟨ds, behind, nonempty, digits, value, small⟩
    obtain ⟨sign, cut, signed⟩ := (behindPlus_eq_iff (unsigned digits)).mp behind
    exact ⟨sign, ds, trimmed_iff.mp cut, signed, nonempty, digits, by rw [← decimalValue_eq, value], small⟩
  · rintro ⟨sign, ds, trimmed, signed, nonempty, digits, value, small⟩
    have behind := (behindPlus_eq_iff (unsigned digits)).mpr ⟨sign, trimmed_iff.mpr trimmed, signed⟩
    exact ⟨ds, behind, nonempty, digits, by rw [decimalValue_eq, value], small⟩

/-! ### Truth values -/

/-- The words for a truth value. -/
def truthWords : Bool → List String
  | true => ["true", "1", "yes", "on"]
  | false => ["false", "0", "no", "off"]

/-- A text that stands for a truth value: one of its words, each letter in either case, with blanks around it. -/
def IsTruthWord (text : String) (b : Bool) : Prop :=
  ∃ core, Trimmed text.toList core ∧ ∃ word ∈ truthWords b, List.Forall₂ InEitherCase core word.toList

theorem isPlain_of_mem_truthWords {b : Bool} {word : String} (mem : word ∈ truthWords b) :
    ∀ d ∈ word.toList, isPlain d = true := by
  have plain : (truthWords b).all (·.toList.all isPlain) = true := by
    cases b <;> decide
  exact List.all_eq_true.mp (List.all_eq_true.mp plain word mem)

theorem truthValue?_eq_some_iff_lower {text : String} {b : Bool} :
    truthValue? text = some b ↔ lower (trim text) ∈ truthWords b := by
  have apart : (truthWords false).all (fun word => !(truthWords true).contains word) = true := by decide
  have unfolded : truthValue? text =
      if (truthWords true).contains (lower (trim text)) then some true
      else if (truthWords false).contains (lower (trim text)) then some false
      else none := rfl
  rw [unfolded]
  by_cases yes : lower (trim text) ∈ truthWords true
  · have other : lower (trim text) ∉ truthWords false := by
      intro no
      have := List.all_eq_true.mp apart _ no
      simp [yes] at this
    cases b <;> simp [yes, other]
  · by_cases no : lower (trim text) ∈ truthWords false
    · cases b <;> simp [yes, no]
    · cases b <;> simp [yes, no]

/-- **Which texts are read as truth values.** -/
theorem truthValue?_eq_some_iff {text : String} {b : Bool} : truthValue? text = some b ↔ IsTruthWord text b := by
  rw [truthValue?_eq_some_iff_lower]
  constructor
  · intro mem
    refine ⟨(trim text).toList, ?_, _, mem, (lower_eq_iff (isPlain_of_mem_truthWords mem) _).mp rfl⟩
    exact trimmed_iff.mp (String.toList_ofList ..).symm
  · rintro ⟨core, trimmed, word, mem, spelled⟩
    have same : (trim text).toList = core := by
      rw [trim, String.toList_ofList]
      exact trimmed_iff.mpr trimmed
    rw [← same] at spelled
    rw [(lower_eq_iff (isPlain_of_mem_truthWords mem) _).mpr spelled]
    exact mem

end Text

namespace Config

/-! ### Settings -/

variable {α : Type}

/-- What a setting is after a variable was read: what the text of the variable stands for, exactly if there is
such a text and it stands for something, and else what it was. -/
structure SetBy (env : Environment) (name : String) (StandsFor : String → α → Prop) (setting : Config → α) :
    Prop where
  set_iff : ∀ v, (∀ c, setting (override env c) = v) ↔ ∃ text, env name = some text ∧ StandsFor text v
  kept : (¬ ∃ text v, env name = some text ∧ StandsFor text v) → ∀ c, setting (override env c) = setting c

/-- A setting that is taken from what a text is read as, if there is a text that can be read. -/
theorem SetBy.of_getD {env : Environment} {name : String} {StandsFor : String → α → Prop} {setting : Config → α}
    {read : String → Option α} (reads : ∀ {text v}, read text = some v ↔ StandsFor text v)
    (after : ∀ c, setting (override env c) = ((env name).bind read).getD (setting c))
    (free : ∃ c d, setting c ≠ setting d) : SetBy env name StandsFor setting := by
  have found (v : α) : (env name).bind read = some v ↔ ∃ text, env name = some text ∧ StandsFor text v := by
    simp only [Option.bind_eq_some_iff, reads]
  constructor
  · intro v
    rw [← found]
    constructor
    · intro all
      cases held : (env name).bind read with
      | some w =>
        have set := all {}
        rw [after, held, Option.getD_some] at set
        rw [set]
      | none =>
        -- The setting stays as it was, so it cannot be the same for all configurations.
        obtain ⟨c, d, different⟩ := free
        have same (c : Config) : setting c = v := by rw [← all c, after, held, Option.getD_none]
        exact absurd ((same c).trans (same d).symm) different
    · intro held c
      rw [after, held, Option.getD_some]
  · intro nothing c
    have none : (env name).bind read = none := by
      rw [Option.eq_none_iff_forall_ne_some]
      intro v held
      obtain ⟨text, set, stands⟩ := (found v).mp held
      exact nothing ⟨text, v, set, stands⟩
    rw [after, none, Option.getD_none]

/-- A setting that is a number. -/
inductive NumberSetting where
  | timeout
  | maxLength
  | idleTimeout
  | maxTokens

/-- The variable of a setting. -/
def NumberSetting.name : NumberSetting → String
  | timeout => "CODEVIBE_ANALYSIS_TIMEOUT"
  | maxLength => "CODEVIBE_MAX_CODE_LENGTH"
  | idleTimeout => "CODEVIBE_ML_IDLE_TIMEOUT"
  | maxTokens => "CODEVIBE_ML_MAX_CODE_LENGTH"

/-- A setting in a configuration. -/
def NumberSetting.value : NumberSetting → Config → Nat
  | timeout, c => c.analysis.timeout
  | maxLength, c => c.analysis.maxLength
  | idleTimeout, c => c.model.idleTimeout
  | maxTokens, c => c.model.maxTokens

/-- A configuration with all numbers the same. -/
def withNumbers (n : Nat) : Config :=
  { analysis := { timeout := n, maxLength := n }, model := { idleTimeout := n, maxTokens := n } }

theorem setBy_number (env : Environment) (s : NumberSetting) : SetBy env s.name Text.IsNumeral s.value := by
  refine .of_getD Text.wordNumber?_eq_some_iff (fun c => ?_) ⟨withNumbers 0, withNumbers 1, ?_⟩
  · cases s <;> rfl
  · cases s <;> exact Nat.zero_ne_one

theorem setBy_enabled (env : Environment) :
    SetBy env "CODEVIBE_ML_ENABLED" Text.IsTruthWord (·.model.enabled) :=
  .of_getD Text.truthValue?_eq_some_iff (fun _ => rfl)
    ⟨{ model := { enabled := false } }, { model := { enabled := true } }, Bool.false_ne_true⟩

theorem getD_getD_self (found : Option α) (old : α) : found.getD (found.getD old) = found.getD old := by
  cases found <;> rfl

theorem override_override (env : Environment) (c : Config) : override env (override env c) = override env c := by
  simp only [override, getD_getD_self]

/-- **Each setting becomes what its variable stands for, if it stands for something, and nothing else is
changed.** A number or a truth value has one variable, and a text that stands for none leaves its setting and all
others alone. Reading the variables again changes nothing. -/
theorem override_settings (env : Environment) :
    (∀ s : NumberSetting, SetBy env s.name Text.IsNumeral s.value) ∧
      SetBy env "CODEVIBE_ML_ENABLED" Text.IsTruthWord (·.model.enabled) ∧
      ∀ c, (override env c).linters = c.linters ∧ (override env c).scoring = c.scoring ∧
        (override env c).model.dimensions = c.model.dimensions ∧
        override env (override env c) = override env c :=
  ⟨setBy_number env, setBy_enabled env, fun c => ⟨rfl, rfl, rfl, override_override env c⟩⟩

end Config

end SnippetAudit
