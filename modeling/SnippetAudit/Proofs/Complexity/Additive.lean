import SnippetAudit.Linter.Analyzer
import SnippetAudit.Proofs.Complexity.Metrics
import SnippetAudit.Proofs.Text.Lines
import SnippetAudit.Proofs.Text.Piecewise

/-!
Counts add up over lines.

A text below another one has its own lines, and no fragment that is counted has a newline, so none stands
across the break between the two. So each count of the whole is the sum of the counts of both parts
(`Additive`). Only the cyclomatic complexity starts from one, which the sum counts twice. A count of types
is left out where a script has no mark of types; there the fragments are not in the script either, and the
missing count may be read as zero (`getOrZero_ofScript`).
-/

namespace SnippetAudit

/-- A count, or zero where it is missing. -/
def Metrics.getOrZero (m : Metrics) (name : String) : Nat := (m.get? name).getD 0

namespace Complexity

open Text

/-- A number that adds up over texts below one another. -/
def Additive (counter : String → Nat) : Prop := ∀ a b, counter (a ++ "\n" ++ b) = counter a + counter b

/-! ### Lines and fragments -/

theorem additive_lineCount : Additive lineCount := fun a b => by
  rw [lineCount, lines_append_newline, List.length_append]
  rfl

theorem additive_codeLineCount (comment : String) : Additive (codeLineCount comment) := fun a b => by
  rw [codeLineCount, lines_append_newline, List.countP_append]
  rfl

/-- A fragment that can be counted on one line. -/
def Inline (fragment : String) : Prop := fragment ≠ "" ∧ IsLine fragment

theorem Inline.sized {fragment : String} (inline : Inline fragment) : Sized (literal fragment.toList) :=
  sized_literal fun empty => inline.1 (String.toList_eq_nil_iff.mp empty)

/-- **No fragment stands across the break between two texts.** -/
theorem Inline.additive_count {fragment : String} (inline : Inline fragment) :
    Additive (count fragment) := fun a b => by
  have parts : (a ++ "\n" ++ b).toList = a.toList ++ '\n' :: b.toList := by simp
  rw [count, parts]
  exact countMatches_append_cons (stopsAt_literal inline.2) inline.sized a.toList b.toList

/-- What does not stand in a text is counted zero times. -/
theorem count_eq_zero {fragment code : String} (absent : contains fragment code = false) :
    count fragment code = 0 := by
  rw [contains, Bool.or_eq_false_iff] at absent
  rw [count, countMatches, starts_eq_nil_iff.mpr absent.2, List.length_nil]

theorem additive_occurrences {fragments : List String} (inline : ∀ fragment ∈ fragments, Inline fragment) :
    Additive (occurrences fragments) := fun a b => by
  induction fragments with
  | nil => rfl
  | cons fragment fragments ih =>
    have first := (inline fragment List.mem_cons_self).additive_count a b
    have others := ih fun other mem => inline other (List.mem_cons_of_mem fragment mem)
    simp only [occurrences, List.foldr_cons] at others ⊢
    omega

/-! ### The counts of a language -/

/-- The counts for a language by their names. -/
def counters (f : Fragments) : List (String × (String → Nat)) := [
  ("total_lines", lineCount),
  ("code_lines", codeLineCount f.comment),
  ("num_functions", occurrences f.functions),
  ("num_classes", count "class "),
  ("num_imports", occurrences f.imports),
  ("cyclomatic_complexity", fun code => 1 + occurrences f.conditionals code + occurrences f.loops code),
  ("num_conditionals", occurrences f.conditionals),
  ("num_loops", occurrences f.loops)]

theorem measure_eq (f : Fragments) (code : String) :
    measure f code = .ofList ((counters f).map fun counter => (counter.1, counter.2 code)) := rfl

/-- Every fragment can be counted on one line. -/
def Fragments.Inline (f : Fragments) : Prop :=
  ∀ fragment ∈ f.functions ++ f.imports ++ f.conditionals ++ f.loops, Complexity.Inline fragment

theorem inline_python : Fragments.python.Inline := by
  simp [Fragments.Inline, Fragments.python, Complexity.Inline, IsLine]

theorem inline_script : Fragments.script.Inline := by
  simp [Fragments.Inline, Fragments.script, Complexity.Inline, IsLine]

/-- **Each count of a language adds up**, but for the cyclomatic complexity. -/
theorem additive_of_mem_counters {f : Fragments} (inline : f.Inline) {name : String}
    {counter : String → Nat} (mem : (name, counter) ∈ counters f) (plain : name ≠ "cyclomatic_complexity") :
    Additive counter := by
  have part : ∀ fragments, (∀ fragment ∈ fragments,
      fragment ∈ f.functions ++ f.imports ++ f.conditionals ++ f.loops) →
      Additive (occurrences fragments) := fun _ sub =>
    additive_occurrences fun fragment mem => inline fragment (sub fragment mem)
  simp only [counters, List.mem_cons, Prod.mk.injEq, List.not_mem_nil, or_false] at mem
  rcases mem with ⟨-, rfl⟩ | ⟨-, rfl⟩ | ⟨-, rfl⟩ | ⟨-, rfl⟩ | ⟨-, rfl⟩ | ⟨rfl, -⟩ | ⟨-, rfl⟩ | ⟨-, rfl⟩
  · exact additive_lineCount
  · exact additive_codeLineCount f.comment
  · exact part f.functions (by simp +contextual)
  · exact Inline.additive_count ⟨by decide, by simp [IsLine]⟩
  · exact part f.imports (by simp +contextual)
  · exact absurd rfl plain
  · exact part f.conditionals (by simp +contextual)
  · exact part f.loops (by simp +contextual)

theorem lookup_map {α : Type} (g : α → Nat) (name : String) (entries : List (String × α)) :
    (entries.map fun e => (e.1, g e.2)).lookup name = (entries.lookup name).map g := by
  induction entries with
  | nil => rfl
  | cons e entries ih =>
    rw [List.map_cons, List.lookup_cons, List.lookup_cons, ih]
    cases name == e.1 <;> rfl

/-- **A name stands for the same counter in all texts.** -/
theorem get?_measure (f : Fragments) (code name : String) :
    (measure f code).get? name = ((counters f).reverse.lookup name).map (· code) := by
  rw [measure_eq, Metrics.get?_ofList, ← List.map_reverse]
  exact lookup_map (fun counter : String → Nat => counter code) name _

theorem additive_measure {f : Fragments} (inline : f.Inline) {name : String}
    (plain : name ≠ "cyclomatic_complexity") : Additive fun code => (measure f code).getOrZero name := by
  intro a b
  simp only [Metrics.getOrZero, get?_measure]
  cases found : (counters f).reverse.lookup name with
  | none => rfl
  | some counter =>
    obtain ⟨before, after, split, -⟩ := List.lookup_eq_some_iff.mp found
    have mem : (name, counter) ∈ counters f := by
      rw [← List.mem_reverse, split]
      exact List.mem_append_right before List.mem_cons_self
    exact additive_of_mem_counters inline mem plain a b

theorem getOrZero_cyclomatic (f : Fragments) (code : String) :
    (measure f code).getOrZero "cyclomatic_complexity" =
      1 + occurrences f.conditionals code + occurrences f.loops code := by
  rw [Metrics.getOrZero, get?_measure]
  rfl

/-- **Branches add up**; what the complexity of a text without any starts from is counted twice. -/
theorem cyclomatic_append {f : Fragments} (inline : f.Inline) (a b : String) :
    (measure f (a ++ "\n" ++ b)).getOrZero "cyclomatic_complexity" + 1 =
      (measure f a).getOrZero "cyclomatic_complexity" +
        (measure f b).getOrZero "cyclomatic_complexity" := by
  have conditionals : Additive (occurrences f.conditionals) :=
    additive_occurrences fun fragment mem => inline fragment (by simp [mem])
  have loops : Additive (occurrences f.loops) :=
    additive_occurrences fun fragment mem => inline fragment (by simp [mem])
  rw [getOrZero_cyclomatic, getOrZero_cyclomatic, getOrZero_cyclomatic, conditionals a b, loops a b]
  omega

/-! ### Counts of types -/

/-- **A missing count of types stands for zero**: a script without marks of types has nothing to count. -/
theorem getOrZero_ofScript (code name : String) :
    (ofScript code).getOrZero name =
      if name = "num_types" then count "type " code
      else if name = "num_interfaces" then count "interface " code
      else (measure .script code).getOrZero name := by
  rw [ofScript]
  split
  next marked =>
    simp only [Metrics.getOrZero, Metrics.get?_set]
    split
    · rfl
    · split <;> rfl
  next unmarked =>
    -- The fragments that are counted are marks themselves.
    have absent : ∀ mark ∈ typescriptMarks, count mark code = 0 := fun mark mem =>
      count_eq_zero (by simpa using fun found => unmarked (List.any_eq_true.mpr ⟨mark, mem, found⟩))
    split
    next types =>
      rw [types, absent "type " (by simp [typescriptMarks]), Metrics.getOrZero, get?_measure]
      rfl
    next =>
      split
      next interfaces =>
        rw [interfaces, absent "interface " (by simp [typescriptMarks]), Metrics.getOrZero, get?_measure]
        rfl
      next => rfl

theorem additive_ofScript {name : String} (plain : name ≠ "cyclomatic_complexity") :
    Additive fun code => (ofScript code).getOrZero name := by
  intro a b
  simp only [getOrZero_ofScript]
  split
  · exact Inline.additive_count ⟨by decide, by simp [IsLine]⟩ a b
  · split
    · exact Inline.additive_count ⟨by decide, by simp [IsLine]⟩ a b
    · exact additive_measure inline_script plain a b

/-! ### Analyzers -/

/-- **The counts of an analyzer add up over texts below one another**, where a missing count stands for
zero. Only the cyclomatic complexity of the whole is one less than the sum. -/
theorem complexity_append (kind : Linter.Kind) (a b : String) :
    (∀ name, name ≠ "cyclomatic_complexity" →
      (kind.complexity (a ++ "\n" ++ b)).getOrZero name =
        (kind.complexity a).getOrZero name + (kind.complexity b).getOrZero name) ∧
    (kind.complexity (a ++ "\n" ++ b)).getOrZero "cyclomatic_complexity" + 1 =
      (kind.complexity a).getOrZero "cyclomatic_complexity" +
        (kind.complexity b).getOrZero "cyclomatic_complexity" := by
  cases kind with
  | pylint =>
    exact ⟨fun _ plain => additive_measure inline_python plain a b, cyclomatic_append inline_python a b⟩
  | eslint =>
    have branches : ∀ code, (ofScript code).getOrZero "cyclomatic_complexity" =
        (measure .script code).getOrZero "cyclomatic_complexity" := fun code => by
      rw [getOrZero_ofScript, if_neg (by decide), if_neg (by decide)]
    refine ⟨fun _ plain => additive_ofScript plain a b, ?_⟩
    simp only [Linter.Kind.complexity, branches]
    exact cyclomatic_append inline_script a b

end Complexity

end SnippetAudit
