import SnippetAudit.Fix.Auto
import SnippetAudit.Proofs.Finding.Scan
import SnippetAudit.Proofs.Fix.Edit
import SnippetAudit.Proofs.Fix.Rewrite
import SnippetAudit.Proofs.Python.Module

/-!
What the proposals that may be applied without being asked for do to a text.

Each edits one line that is there, as it is there (`EditsLine`), so it can always be applied. It
puts something lighter in the place of that line (`automatic_mends`): the weight of a line counts
what is to be mended on it, and in Python the line itself, since there lines are deleted. Hence a
text that is not empty loses weight with every fix (`textWeight_apply_lt`), and no text weighs more
than `fixesPerLine` for each line.
-/

namespace SnippetAudit.Fix

open Text Finding Battery

/-! ### Proposals that edit one line -/

/-- A proposal for the line that stands between some lines of a text. -/
structure EditsLine (code : String) (pre post : List String) (p : Proposal) : Prop where
  lines_eq : lines code = pre ++ p.before :: post
  first_eq : p.first = pre.length + 1
  last_eq : p.last = pre.length + 1

/-- The lines that take the place of the line. -/
def replacement (p : Proposal) : List String := if p.after = "" then [] else [p.after]

/-- Such a proposal covers the line, under any number. -/
theorem EditsLine.covers {code : String} {pre post : List String} {p : Proposal}
    (h : EditsLine code pre post p) (n : Nat) : Covers code (p.toFix n) pre [p.before] post where
  lines_eq := by simp [h.lines_eq]
  nonempty := by simp
  first_eq := h.first_eq
  last_eq := h.last_eq

/-- **Such a proposal can be applied**, under any number. -/
theorem EditsLine.apply_eq {code : String} {pre post : List String} {p : Proposal}
    (h : EditsLine code pre post p) (n : Nat) :
    apply code (p.toFix n) = .ok (unlines (pre ++ replacement p ++ post)) := by
  have single : (p.toFix n).first = (p.toFix n).last := by
    rw [(h.covers n).first_eq, (h.covers n).last_eq]
    rfl
  rw [(h.covers n).apply_eq, replacement]
  by_cases empty : p.after = ""
  · rw [newLines_of_single single empty, if_pos empty]
  · rw [newLines_of_after_ne empty, if_neg empty, unlines_append_lines]
    rfl

/-! ### Weights -/

/-- The weight of a line: what is to be mended on it, and one more where lines are deleted. -/
def weight : Language → String → Nat
  | .python, line =>
    1 + (endsBlank line).toNat + (foundOn noneComparison line).toNat +
      (foundOn bareExcept line).toNat
  | .javascript, line | .typescript, line => (foundOn looseEquality line).toNat
  | .java, _ | .cpp, _ => 0

/-- The weight of some lines. -/
def totalWeight (language : Language) : List String → Nat
  | [] => 0
  | l :: ls => weight language l + totalWeight language ls

/-- The weight of a text. The empty text weighs nothing, since its only line cannot be deleted. -/
def textWeight (language : Language) (code : String) : Nat :=
  if code = "" then 0 else totalWeight language (lines code)

/-- The most fixes for one line. -/
def fixesPerLine : Language → Nat
  | .python => 4
  | .javascript | .typescript => 1
  | .java | .cpp => 0

@[simp] theorem totalWeight_cons (language : Language) (l : String) (ls : List String) :
    totalWeight language (l :: ls) = weight language l + totalWeight language ls := rfl

@[simp] theorem totalWeight_nil (language : Language) : totalWeight language [] = 0 := rfl

@[simp] theorem totalWeight_append (language : Language) (ls ls' : List String) :
    totalWeight language (ls ++ ls') = totalWeight language ls + totalWeight language ls' := by
  induction ls with
  | nil => simp
  | cons l ls ih => rw [List.cons_append, totalWeight_cons, totalWeight_cons, ih, Nat.add_assoc]

theorem weight_le (language : Language) (line : String) :
    weight language line ≤ fixesPerLine language := by
  have blank := Bool.toNat_le (endsBlank line)
  have comparison := Bool.toNat_le (foundOn noneComparison line)
  have bare := Bool.toNat_le (foundOn bareExcept line)
  have loose := Bool.toNat_le (foundOn looseEquality line)
  cases language <;> simp only [weight, fixesPerLine] <;> omega

theorem totalWeight_le (language : Language) (ls : List String) :
    totalWeight language ls ≤ fixesPerLine language * ls.length := by
  induction ls with
  | nil => exact Nat.zero_le _
  | cons l ls ih =>
    have head := weight_le language l
    rw [totalWeight_cons, List.length_cons, Nat.mul_succ]
    omega

/-- Nothing is lighter than an empty line. -/
theorem weight_empty_le (language : Language) (line : String) :
    weight language "" ≤ weight language line := by
  have blank : endsBlank "" = false := by decide
  have found : ∀ m, foundOn m "" = false := fun m => by simp [foundOn, occurs, occursFrom]
  cases language <;> simp only [weight, blank, found, Bool.toNat_false] <;> omega

/-- **A text weighs at most `fixesPerLine` for each line.** -/
theorem textWeight_le (language : Language) (code : String) :
    textWeight language code ≤ fixesPerLine language * (lines code).length := by
  rw [textWeight]
  split
  · exact Nat.zero_le _
  · exact totalWeight_le language (lines code)

/-- Lines weigh at least what the text that they make up weighs. -/
theorem textWeight_unlines_le (language : Language) {ls : List String}
    (clean : ∀ l ∈ ls, IsLine l) : textWeight language (unlines ls) ≤ totalWeight language ls := by
  rw [textWeight]
  split
  next => exact Nat.zero_le _
  next nonempty =>
    have some : ls ≠ [] := by
      rintro rfl
      exact nonempty unlines_nil
    rw [lines_unlines some clean]

/-! ### Proposals that mend a line -/

/-- A proposal that puts something lighter in the place of a line. -/
structure Mends (language : Language) (code : String) (pre post : List String) (p : Proposal) : Prop
    extends EditsLine code pre post p where
  clean : IsLine p.after
  lighter : totalWeight language (replacement p) < weight language p.before

namespace Mends

variable {language : Language} {code fixed : String} {pre post : List String} {p : Proposal} {n : Nat}

/-- It suffices that the line that takes the place is lighter. -/
theorem of_weight_lt (edits : EditsLine code pre post p) (clean : IsLine p.after)
    (lighter : weight language p.after < weight language p.before) :
    Mends language code pre post p := by
  refine ⟨edits, clean, ?_⟩
  rw [replacement]
  split
  · exact Nat.zero_lt_of_lt lighter
  · simpa using lighter

/-- What is left are lines. -/
theorem isLine_of_mem (h : Mends language code pre post p) {l : String}
    (mem : l ∈ pre ++ replacement p ++ post) : IsLine l := by
  have old : ∀ l ∈ pre ++ p.before :: post, IsLine l := by
    rw [← h.lines_eq]
    exact fun l mem => isLine_of_mem_lines mem
  rw [List.append_assoc, List.mem_append, List.mem_append] at mem
  rcases mem with mem | mem | mem
  · exact old l (by simp [mem])
  · rw [replacement] at mem
    split at mem
    · cases mem
    · rw [List.mem_singleton.mp mem]
      exact h.clean
  · exact old l (by simp [mem])

/-- **A text that is not empty loses weight.** -/
theorem textWeight_lt (h : Mends language code pre post p) (nonempty : code ≠ "")
    (applied : apply code (p.toFix n) = .ok fixed) :
    textWeight language fixed < textWeight language code := by
  rw [h.apply_eq n] at applied
  cases applied
  calc textWeight language (unlines (pre ++ replacement p ++ post))
      ≤ totalWeight language (pre ++ replacement p ++ post) :=
        textWeight_unlines_le language fun l mem => h.isLine_of_mem mem
    _ < totalWeight language (pre ++ p.before :: post) := by
        have lighter := h.lighter
        simp only [totalWeight_append, totalWeight_cons]
        omega
    _ = textWeight language code := by rw [textWeight, if_neg nonempty, h.lines_eq]

/-- The empty text stays as it is: its line has nothing to mend, and cannot be deleted. -/
theorem eq_empty (h : Mends language "" pre post p) (applied : apply "" (p.toFix n) = .ok fixed) :
    fixed = "" := by
  have only : [""] = pre ++ p.before :: post := lines_empty.symm.trans h.lines_eq
  obtain ⟨rfl, before, rfl⟩ : pre = [] ∧ p.before = "" ∧ post = [] := by
    rcases List.singleton_eq_append_iff.mp only with ⟨rfl, tail⟩ | ⟨-, tail⟩
    · exact ⟨rfl, (List.cons.inj tail).1, (List.cons.inj tail).2⟩
    · cases tail
  have lighter := h.lighter
  rw [h.apply_eq n] at applied
  cases applied
  rw [replacement] at lighter ⊢
  split at lighter
  next deleted => rw [if_pos deleted]; rfl
  next =>
    have least := weight_empty_le language p.after
    rw [before] at lighter
    simp only [totalWeight_cons, totalWeight_nil] at lighter
    omega

end Mends

/-! ### Rules for lines -/

/-- What a rule for lines proposes: whatever it proposes for a line with its number. -/
theorem mem_eachLine {rule : Nat → String → Option Proposal} {code : String} {p : Proposal} :
    p ∈ eachLine rule code ↔
      ∃ pre line post, lines code = pre ++ line :: post ∧ rule (pre.length + 1) line = some p := by
  rw [eachLine, List.mem_filterMap]
  constructor
  · rintro ⟨⟨number, line⟩, mem, found⟩
    obtain ⟨pre, post, cut, rfl⟩ := mem_numberedLines.mp mem
    exact ⟨pre, line, post, cut, found⟩
  · rintro ⟨pre, line, post, cut, found⟩
    exact ⟨(pre.length + 1, line), mem_numberedLines.mpr ⟨pre, post, cut, rfl⟩, found⟩

/-- What is the same in all that a rule for lines can propose is so in what it does propose. -/
theorem field_of_mem_eachLine {α : Type} (field : Proposal → α) {a : α} {flaw : String → Bool}
    {rule : Nat → String → Option Proposal} {q : Nat → String → Proposal} {code : String} {p : Proposal}
    (rule_eq : ∀ number line, rule number line = if flaw line = true then some (q number line) else none)
    (all : ∀ number line, field (q number line) = a) (mem : p ∈ eachLine rule code) : field p = a := by
  obtain ⟨_, _, _, -, found⟩ := mem_eachLine.mp mem
  rw [rule_eq] at found
  split at found <;> cases found
  exact all _ _

/-- A rule that makes lines lighter: it proposes the rewrite by `f` for exactly the lines with a
flaw, and the rewrite takes that away and brings in no other. -/
structure Lightens (language : Language) (flaw : String → Bool) (f : String → String)
    (rule : Nat → String → Option Proposal) : Prop where
  fires : ∀ number {line}, flaw line = true →
    ∃ p, rule number line = some p ∧ p.automatic = true
  edits : ∀ {number line p}, rule number line = some p →
    flaw line = true ∧ p.first = number ∧ p.last = number ∧ p.before = line ∧ p.after = f line
  clean : ∀ {line}, IsLine line → IsLine (f line)
  lighter : ∀ {line}, flaw line = true → weight language (f line) < weight language line

namespace Lightens

variable {language : Language} {flaw : String → Bool} {f : String → String}
  {rule : Nat → String → Option Proposal} {code : String}

/-- The usual form of such a rule. -/
theorem of_ite {q : Nat → String → Proposal}
    (rule_eq : ∀ number line, rule number line = if flaw line = true then some (q number line) else none)
    (automatic : ∀ number line, (q number line).automatic = true)
    (edits : ∀ number line, (q number line).first = number ∧ (q number line).last = number ∧
      (q number line).before = line ∧ (q number line).after = f line)
    (clean : ∀ {line}, IsLine line → IsLine (f line))
    (lighter : ∀ {line}, flaw line = true → weight language (f line) < weight language line) :
    Lightens language flaw f rule where
  fires := by
    intro number line flawed
    exact ⟨q number line, by rw [rule_eq, if_pos flawed], automatic number line⟩
  edits := by
    intro number line p found
    rw [rule_eq] at found
    split at found <;> cases found
    next flawed => exact ⟨flawed, edits number line⟩
  clean := clean
  lighter := lighter

/-- What such a rule proposes for a line mends that line. -/
theorem mends_at (h : Lightens language flaw f rule) {pre post : List String} {line : String}
    {p : Proposal} (cut : lines code = pre ++ line :: post)
    (found : rule (pre.length + 1) line = some p) : Mends language code pre post p := by
  obtain ⟨flawed, first, last, rfl, after⟩ := h.edits found
  have inside : p.before ∈ lines code := by
    rw [cut]
    simp
  refine Mends.of_weight_lt ⟨cut, first, last⟩ ?_ ?_
  · rw [after]
    exact h.clean (isLine_of_mem_lines inside)
  · rw [after]
    exact h.lighter flawed

/-- What such a rule proposes mends a line. -/
theorem mends (h : Lightens language flaw f rule) {p : Proposal} (mem : p ∈ eachLine rule code) :
    ∃ pre post, Mends language code pre post p := by
  obtain ⟨pre, line, post, cut, found⟩ := mem_eachLine.mp mem
  exact ⟨pre, post, h.mends_at cut found⟩

/-- Such a rule overlooks no line with its flaw. -/
theorem exists_automatic (h : Lightens language flaw f rule) {line : String}
    (mem : line ∈ lines code) (flawed : flaw line = true) :
    ∃ p ∈ eachLine rule code, p.automatic = true := by
  obtain ⟨pre, post, cut⟩ := List.append_of_mem mem
  obtain ⟨p, found, automatic⟩ := h.fires (pre.length + 1) flawed
  exact ⟨p, mem_eachLine.mpr ⟨pre, line, post, cut, found⟩, automatic⟩

/-- Such a rule has nothing to propose for the empty text, which could not be lighter. -/
theorem eachLine_empty (h : Lightens language flaw f rule) : eachLine rule "" = [] := by
  rw [List.eq_nil_iff_forall_not_mem]
  intro p mem
  obtain ⟨pre, line, post, cut, found⟩ := mem_eachLine.mp mem
  obtain rfl : line = "" := by
    have mem : line ∈ lines "" := by rw [cut]; simp
    simpa [lines_empty] using mem
  obtain ⟨flawed, -⟩ := h.edits found
  exact Nat.not_lt.mpr (weight_empty_le language (f "")) (h.lighter flawed)

end Lightens

/-- A property that is not gained counts no more. -/
theorem toNat_le_of_imp {a b : Bool} (h : a = true → b = true) : a.toNat ≤ b.toNat := by
  cases a
  · exact Nat.zero_le _
  · rw [h rfl]

theorem trailingBlanks_eq (number : Nat) (line : String) :
    trailingBlanks number line = if endsBlank line = true then
      some (onLine .style number ("Remove trailing whitespace on line " ++ toString number)
        "Trailing whitespace should be removed" line (trimEnd line)) else none := by
  simp only [endsBlank, decide_eq_true_eq]
  exact (ite_not _ _ _).symm

theorem lightens_trailingBlanks : Lightens .python endsBlank trimEnd trailingBlanks := by
  apply Lightens.of_ite
  case rule_eq => exact trailingBlanks_eq
  case automatic => exact fun _ _ => rfl
  case edits => exact fun _ _ => ⟨rfl, rfl, rfl, rfl⟩
  case clean => exact isLine_trimEnd
  case lighter =>
    intro line flawed
    have comparison :
        (foundOn noneComparison (trimEnd line)).toNat ≤ (foundOn noneComparison line).toNat :=
      toNat_le_of_imp foundOn_noneComparison_of_trimEnd
    have bare : (foundOn bareExcept (trimEnd line)).toNat ≤ (foundOn bareExcept line).toNat :=
      toNat_le_of_imp foundOn_bareExcept_of_trimEnd
    simp only [weight, endsBlank_trimEnd, flawed, Bool.toNat_true, Bool.toNat_false]
    omega

theorem lightens_noneComparisonFix :
    Lightens .python (foundOn noneComparison) compareByIdentity noneComparisonFix := by
  refine .of_ite (fun _ _ => rfl) (fun _ _ => rfl) (fun _ _ => ⟨rfl, rfl, rfl, rfl⟩)
    isLine_compareByIdentity ?_
  intro line flawed
  have blank : (endsBlank (compareByIdentity line)).toNat ≤ (endsBlank line).toNat :=
    toNat_le_of_imp endsBlank_of_compareByIdentity
  have bare :
      (foundOn bareExcept (compareByIdentity line)).toNat ≤ (foundOn bareExcept line).toNat :=
    toNat_le_of_imp foundOn_bareExcept_of_compareByIdentity
  simp only [weight, foundOn_noneComparison_compareByIdentity, flawed, Bool.toNat_true,
    Bool.toNat_false]
  omega

theorem lightens_bareExceptFix :
    Lightens .python (foundOn bareExcept) nameException bareExceptFix := by
  refine .of_ite (fun _ _ => rfl) (fun _ _ => rfl) (fun _ _ => ⟨rfl, rfl, rfl, rfl⟩)
    isLine_nameException ?_
  intro line flawed
  have blank : (endsBlank (nameException line)).toNat ≤ (endsBlank line).toNat :=
    toNat_le_of_imp endsBlank_of_nameException
  have comparison :
      (foundOn noneComparison (nameException line)).toNat ≤ (foundOn noneComparison line).toNat :=
    toNat_le_of_imp foundOn_noneComparison_of_nameException
  simp only [weight, foundOn_bareExcept_nameException, flawed, Bool.toNat_true, Bool.toNat_false]
  omega

theorem lightens_looseEqualityFix {language : Language}
    (script : language = .javascript ∨ language = .typescript) :
    Lightens language (foundOn looseEquality) compareStrictly looseEqualityFix := by
  refine .of_ite (fun _ _ => rfl) (fun _ _ => rfl) (fun _ _ => ⟨rfl, rfl, rfl, rfl⟩)
    isLine_compareStrictly ?_
  intro line flawed
  rcases script with rfl | rfl <;>
    simp [weight, foundOn_looseEquality_compareStrictly, flawed]

/-! ### Unused imports -/

/-- What is proposed for an import: to delete its line, if its name is on no other. -/
theorem unusedImport_eq_some_iff {ls : List String} {b : Python.ImportBinding} {p : Proposal} :
    unusedImport ls b = some p ↔ ls.countP (contains b.name) = 1 ∧ ∃ before,
      line? ls b.line = some before ∧
        { onLine .simple b.line ("Remove unused import '" ++ b.name ++ "'")
            ("Import '" ++ b.name ++ "' is not used in the code") before "" with
          confidence := 0.9 } = p := by
  rw [unusedImport]
  split
  next once => simp only [once, true_and, Option.map_eq_some_iff]
  next other => simp only [other, false_and, reduceCtorEq]

/-- The removal of an import deletes its line, whatever the line is. -/
theorem mends_of_unusedImport {code : String} {b : Python.ImportBinding} {p : Proposal}
    (inside : 1 ≤ b.line) (found : unusedImport (lines code) b = some p) :
    ∃ pre post, Mends .python code pre post p := by
  obtain ⟨-, before, at_line, rfl⟩ := unusedImport_eq_some_iff.mp found
  obtain ⟨pre, post, cut, above⟩ := getElem?_eq_some_iff_append.mp at_line
  have place : b.line = pre.length + 1 := by omega
  refine ⟨pre, post, ⟨cut, place, place⟩, isLine_empty, ?_⟩
  simp only [replacement, onLine, if_true, totalWeight_nil, weight]
  omega

/-! ### Proposals that have to be asked for -/

/-- Documentation is proposed for a definition that has none, on a line that is there. -/
theorem missingDocumentation_eq_some_iff {ls : List String} {d : Python.Definition} {p : Proposal} :
    missingDocumentation ls d = some p ↔ d.documented = false ∧ ∃ before,
      line? ls d.line = some before ∧
        { onLine .style d.line ("Add docstring to " ++ d.name)
            (noun d.kind ++ " '" ++ d.name ++ "' is missing a docstring")
            before (withDocumentation before (placeholder d.kind)) with
          confidence := 0.8
          automatic := false } = p := by
  rw [missingDocumentation, Option.ite_none_left_eq_some, Option.map_eq_some_iff, Bool.not_eq_true]

/-- What a comprehension is proposed as. -/
theorem fields_of_comprehensionFix {number : Nat} {head body : String} {p : Proposal}
    (found : comprehensionFix number head body = some p) :
    p.kind = .performance ∧ p.title = "Use list comprehension on line " ++ toString number ∧
      p.automatic = false := by
  rw [comprehensionFix] at found
  split at found
  next => cases found
  next =>
    obtain ⟨⟨_, _⟩, -, found⟩ := Option.bind_eq_some_iff.mp found
    obtain ⟨_, -, found⟩ := Option.bind_eq_some_iff.mp found
    cases found
    exact ⟨rfl, rfl, rfl⟩

/-- Comprehensions are proposed for neighbours that are not the last two lines. -/
theorem mem_comprehensions {number : Nat} {ls : List String} {p : Proposal}
    (mem : p ∈ comprehensions number ls) :
    ∃ pre head body post, ls = pre ++ head :: body :: post ∧ post ≠ [] ∧
      comprehensionFix (number + pre.length) head body = some p := by
  induction number, ls using comprehensions.induct with
  | case1 number head body next rest ih =>
    rw [comprehensions, List.mem_append, Option.mem_toList] at mem
    rcases mem with mem | mem
    · exact ⟨[], head, body, next :: rest, rfl, List.cons_ne_nil _ _, mem⟩
    · obtain ⟨pre, head', body', post, cut, nonempty, found⟩ := ih mem
      refine ⟨head :: pre, head', body', post, by rw [cut, List.cons_append], nonempty, ?_⟩
      rw [List.length_cons, ← found]
      congr 1
      omega
  | case2 number ls short =>
    rw [comprehensions] at mem
    · cases mem
    · exact short

/-! ### The batteries -/

section Battery

variable {read : Python.Reader} {language : Language} {code : String} {p : Proposal}

/-- What a Python text may have proposed without being asked for. -/
theorem cases_of_mem_python (mem : p ∈ Battery.python read code) :
    (∃ b ∈ (read.outline code).imports, unusedImport (lines code) b = some p) ∨
      p ∈ eachLine trailingBlanks code ∨ p ∈ eachLine noneComparisonFix code ∨
      p ∈ eachLine bareExceptFix code ∨ p.automatic = false := by
  simp only [Battery.python, List.mem_append] at mem
  rcases mem with (((((mem | mem) | mem) | mem) | mem) | mem) | mem
  · exact .inl (List.mem_filterMap.mp mem)
  · exact .inr (.inl mem)
  · obtain ⟨d, -, found⟩ := List.mem_filterMap.mp mem
    obtain ⟨-, _, -, rfl⟩ := missingDocumentation_eq_some_iff.mp found
    exact .inr (.inr (.inr (.inr rfl)))
  · exact .inr (.inr (.inl mem))
  · exact .inr (.inr (.inr (.inl mem)))
  · obtain ⟨_, _, _, _, -, -, found⟩ := mem_comprehensions mem
    exact .inr (.inr (.inr (.inr (fields_of_comprehensionFix found).2.2)))
  · exact .inr (.inr (.inr (.inr (field_of_mem_eachLine Proposal.automatic (fun _ _ => rfl) (fun _ _ => rfl) mem))))

/-- What a text in JavaScript or TypeScript may have proposed without being asked for. -/
theorem cases_of_mem_script (mem : p ∈ Battery.script code) :
    p ∈ eachLine looseEqualityFix code ∨ p.automatic = false := by
  simp only [Battery.script, List.mem_append] at mem
  rcases mem with (mem | mem) | mem
  · exact .inl mem
  · exact .inr (field_of_mem_eachLine Proposal.automatic (fun _ _ => rfl) (fun _ _ => rfl) mem)
  · exact .inr (field_of_mem_eachLine Proposal.automatic (fun _ _ => rfl) (fun _ _ => rfl) mem)

/-- **A proposal that may be applied without being asked for mends a line.** -/
theorem automatic_mends (mem : p ∈ proposalsBy read language code) (automatic : p.automatic = true) :
    ∃ pre post, Mends language code pre post p := by
  have script (which : language = .javascript ∨ language = .typescript)
      (mem : p ∈ Battery.script code) : ∃ pre post, Mends language code pre post p := by
    rcases cases_of_mem_script mem with mem | manual
    · exact (lightens_looseEqualityFix which).mends mem
    · exact absurd automatic (by simp [manual])
  cases language with
  | python =>
    rcases cases_of_mem_python mem with ⟨b, mem, found⟩ | mem | mem | mem | manual
    · exact mends_of_unusedImport (Python.Reader.one_le_line_of_mem_imports mem) found
    · exact lightens_trailingBlanks.mends mem
    · exact lightens_noneComparisonFix.mends mem
    · exact lightens_bareExceptFix.mends mem
    · exact absurd automatic (by simp [manual])
  | javascript => exact script (.inl rfl) mem
  | typescript => exact script (.inr rfl) mem
  | java => cases mem
  | cpp => cases mem

/-- For the empty text there is no such proposal, unless something is imported on its one line. -/
theorem automatic_of_mem_empty (unimported : (read.outline "").imports = [])
    (mem : p ∈ proposalsBy read language "") : p.automatic = false := by
  have script (which : language = .javascript ∨ language = .typescript)
      (mem : p ∈ Battery.script "") : p.automatic = false := by
    have cases := cases_of_mem_script mem
    simpa [(lightens_looseEqualityFix which).eachLine_empty] using cases
  cases language with
  | python =>
    have cases := cases_of_mem_python mem
    simpa [unimported, lightens_trailingBlanks.eachLine_empty,
      lightens_noneComparisonFix.eachLine_empty, lightens_bareExceptFix.eachLine_empty] using cases
  | javascript => exact script (.inl rfl) mem
  | typescript => exact script (.inr rfl) mem
  | java => cases mem
  | cpp => cases mem

/-- **Where a pattern for bugs matches, there is something to be applied without being asked for.** -/
theorem exists_automatic_of_bug (read : Python.Reader) {line : String} {b : BugPattern} (mem : line ∈ lines code)
    (known : b ∈ bugPatterns language) (found : occurs b.matcher line.toList = true) :
    ∃ p ∈ proposalsBy read language code, p.automatic = true := by
  have script (known : b ∈ bugPatterns .javascript) :
      ∃ p ∈ Battery.script code, p.automatic = true := by
    rw [bugPatterns, List.mem_singleton] at known
    subst known
    obtain ⟨p, mem, automatic⟩ :=
      (lightens_looseEqualityFix (.inl rfl)).exists_automatic mem found
    exact ⟨p, by simp [Battery.script, mem], automatic⟩
  cases language with
  | python =>
    rw [bugPatterns, List.mem_pair] at known
    rcases known with rfl | rfl
    · obtain ⟨p, mem, automatic⟩ := lightens_noneComparisonFix.exists_automatic mem found
      exact ⟨p, by simp [proposalsBy, Battery.python, mem], automatic⟩
    · obtain ⟨p, mem, automatic⟩ := lightens_bareExceptFix.exists_automatic mem found
      exact ⟨p, by simp [proposalsBy, Battery.python, mem], automatic⟩
  | javascript => exact script known
  | typescript => exact script known
  | java => cases known
  | cpp => cases known

end Battery

end SnippetAudit.Fix
