import SnippetAudit.Proofs.Complexity.Metrics
import SnippetAudit.Proofs.Service.Submit
import SnippetAudit.Proofs.Text.Search

/-!
Which language a report speaks of.

A report names the language that a hint or a guess gives, and its analysis carries a language of its
own. The analyzer for JavaScript and TypeScript is handed a snippet and no language: it takes the
snippet for TypeScript where a mark of types stands in it, whatever the report says. The counts of types
follow these marks in any case, the language of the analysis only where a linter was run
(`Service.analyze_eq`). So a report speaks of one language exactly where the marks agree with the hint
or the guess (`oneLanguage_iff`).
-/

namespace SnippetAudit

/-! ### Marks of types -/

namespace Complexity

variable {code : String}

/-- Some mark of types stands in a snippet. -/
def Typed (code : String) : Prop := ∃ mark ∈ typescriptMarks, mark.toList <:+: code.toList

theorem isTypescript_iff : isTypescript code = true ↔ Typed code := by
  simp only [isTypescript, List.any_eq_true, Text.contains_iff, Typed]

instance (code : String) : Decidable (Typed code) := decidable_of_iff _ isTypescript_iff

/-- The counts that only snippets with types have. -/
def typeCounts : List String := ["num_interfaces", "num_types"]

theorem get?_measure_eq_none {name : String} (special : name ∈ typeCounts) (f : Fragments) :
    (measure f code).get? name = none := by
  refine Metrics.get?_ofList_eq_none fun e mem same => ?_
  subst same
  simp only [List.mem_cons, List.not_mem_nil, or_false] at mem
  rcases mem with rfl | rfl | rfl | rfl | rfl | rfl | rfl | rfl <;> simp [typeCounts] at special

/-- **A script has the counts of types exactly where a mark of types stands in it.** -/
theorem isSome_ofScript_iff {name : String} (special : name ∈ typeCounts) :
    ((ofScript code).get? name).isSome = true ↔ Typed code := by
  rw [← isTypescript_iff, ofScript]
  split
  next marked =>
    refine iff_of_true ?_ marked
    simp only [typeCounts, List.mem_cons, List.not_mem_nil, or_false] at special
    rw [Metrics.get?_set, Metrics.get?_set]
    rcases special with rfl | rfl <;> rfl
  next unmarked =>
    rw [get?_measure_eq_none special]
    exact iff_of_false (by simp) unmarked

end Complexity

/-! ### Analyzers -/

theorem Language.isScript_iff {l : Language} :
    l.isScript = true ↔ l = .javascript ∨ l = .typescript := by
  cases l <;> decide

namespace Linter

open Complexity

/-- What the analyzers of the standard registry are there for. -/
inductive Kind.Serves : Kind → Language → Prop where
  | pylint : Serves .pylint .python
  | eslint {l : Language} (script : l.isScript = true) : Serves .eslint l

theorem serves_of_get_standard {pylint eslint : List String} {timeout : Nat} {l : Language}
    {a : Analyzer} (found : (Registry.standard pylint eslint timeout).get l = .ok a) :
    a.kind.Serves l := by
  cases l <;> cases found
  · exact .pylint
  · exact .eslint rfl
  · exact .eslint rfl

namespace Kind.Serves

variable {kind : Kind} {l : Language} (serves : kind.Serves l)

include serves

theorem python_or_isScript : l = .python ∨ l.isScript = true := by
  cases serves with
  | pylint => exact .inl rfl
  | eslint script => exact .inr script

/-- **An analyzer tells the two kinds of scripts apart by marks of types.** -/
theorem languageOf_eq (code : String) :
    kind.languageOf code =
      if l.isScript = true then (if Typed code then .typescript else .javascript) else l := by
  cases serves with
  | pylint => rfl
  | eslint script =>
    rw [if_pos script, Kind.languageOf]
    simp only [isTypescript_iff]

theorem isSome_complexity_iff (code : String) {name : String} (special : name ∈ typeCounts) :
    ((kind.complexity code).get? name).isSome = true ↔ l.isScript = true ∧ Typed code := by
  cases serves with
  | pylint =>
    rw [complexity, ofPython, get?_measure_eq_none special]
    exact iff_of_false Bool.false_ne_true fun both => Bool.false_ne_true both.1
  | eslint script => rw [complexity, isSome_ofScript_iff special, and_iff_right script]

end Kind.Serves

end Linter

/-! ### Reports -/

/-- An analysis in a report carries the language of the report, and has the counts of types exactly
where this is TypeScript. -/
structure OneLanguage (r : Submission) (a : Analysis) : Prop where
  tag : a.language = r.language
  counts : ∀ name ∈ Complexity.typeCounts,
    ((a.metrics.get? name).isSome = true ↔ r.language = .typescript)

open Complexity Linter

/-- A report speaks of one language where the marks of types agree with it about scripts. -/
theorem oneLanguage_iff {lint : Bool} {code : String} {r : Submission} {a : Analysis}
    (tag : a.language = if lint = true ∧ r.language.isScript = true then
      (if Typed code then .typescript else .javascript) else r.language)
    (counts : ∀ name ∈ typeCounts, ((a.metrics.get? name).isSome = true ↔
      r.language.isScript = true ∧ Typed code)) :
    OneLanguage r a ↔ (r.language.isScript = true → (r.language = .typescript ↔ Typed code)) := by
  constructor
  · intro one script
    have special : "num_types" ∈ typeCounts := by simp [typeCounts]
    rw [← one.counts "num_types" special, counts "num_types" special, and_iff_right script]
  · intro agree
    have scripted : r.language = .typescript → r.language.isScript = true := fun is =>
      Language.isScript_iff.mpr (.inr is)
    refine ⟨?_, fun name special => ?_⟩
    · rw [tag]
      split
      next both =>
        -- a script that is not TypeScript is JavaScript
        split
        next typed => exact ((agree both.2).mpr typed).symm
        next untyped =>
          refine ((Language.isScript_iff.mp both.2).resolve_right fun is => ?_).symm
          exact untyped ((agree both.2).mp is)
      next => rfl
    · rw [counts name special]
      exact ⟨fun both => (agree both.1).mpr both.2, fun is =>
        ⟨scripted is, (agree (scripted is)).mp is⟩⟩

namespace Service

variable {host : Host} {now : Nat} {code : String} {hint : Option String}

/-- **An analysis has the counts of an analyzer, and its language where the linter was run.** -/
theorem analyze_eq {s : Service} {l : Language} {a : Analysis}
    (analyzed : s.analyze host code l = .ok (some a)) :
    ∃ analyzer, s.registry.get l = .ok analyzer ∧ a.metrics = analyzer.kind.complexity code ∧
      a.language = if s.lint = true then analyzer.kind.languageOf code else l := by
  rw [analyze] at analyzed
  split at analyzed
  next analyzer found linting =>
    cases analyzed
    exact ⟨analyzer, found, rfl, (if_pos linting).symm⟩
  next analyzer found silent =>
    cases analyzed
    exact ⟨analyzer, found, rfl, (if_neg (Bool.eq_false_iff.mp silent)).symm⟩
  next => cases analyzed
  next => cases analyzed

/-- The analysis in a report is that of the language that the report names. -/
theorem analyze_of_submit {s s' : Service} {r : Submission}
    (submitted : s.submit host now code hint = .ok (r, s')) :
    s.analyze host code r.language = .ok r.analysis := by
  rw [submit_eq, inspect] at submitted
  cases checked : (s.config.analysis.check code).mapError Refusal.tooLong with
  | error e =>
    rw [checked] at submitted
    cases submitted
  | ok _ =>
    cases analyzed : s.analyze host code (Language.detect code hint) with
    | error e =>
      rw [checked, analyzed] at submitted
      cases submitted
    | ok analysis =>
      rw [checked, analyzed] at submitted
      cases submitted
      exact analyzed

/-- **Which language the analysis in a report carries, and which counts it has.** A report with an
analysis is about Python, JavaScript or TypeScript. Its analysis has the counts of types exactly where
it is about a script with a mark of types in it. The analysis carries the language of the report, unless
a linter was run on a script: then the marks decide. So a report speaks of one language exactly where
the marks agree with the hint or the guess. -/
theorem language_of_submit {s s' : Service} {pylint eslint : List String} {timeout : Nat}
    {r : Submission} {a : Analysis} (standard : s.registry = .standard pylint eslint timeout)
    (submitted : s.submit host now code hint = .ok (r, s')) (analyzed : r.analysis = some a) :
    (r.language = .python ∨ r.language = .javascript ∨ r.language = .typescript) ∧
      a.language = (if s.lint = true ∧ r.language.isScript = true then
        (if Typed code then .typescript else .javascript) else r.language) ∧
      (∀ name ∈ typeCounts, ((a.metrics.get? name).isSome = true ↔
        r.language.isScript = true ∧ Typed code)) ∧
      (OneLanguage r a ↔ (r.language.isScript = true → (r.language = .typescript ↔ Typed code))) := by
  have inspected := analyze_of_submit submitted
  rw [analyzed] at inspected
  obtain ⟨analyzer, found, metrics, tagged⟩ := analyze_eq inspected
  have serves : analyzer.kind.Serves r.language := by
    rw [standard] at found
    exact serves_of_get_standard found
  have tag : a.language = if s.lint = true ∧ r.language.isScript = true then
      (if Typed code then .typescript else .javascript) else r.language := by
    rw [tagged, serves.languageOf_eq code, ite_and]
  have counts : ∀ name ∈ typeCounts, ((a.metrics.get? name).isSome = true ↔
      r.language.isScript = true ∧ Typed code) := by
    intro name special
    rw [metrics]
    exact serves.isSome_complexity_iff code special
  exact ⟨serves.python_or_isScript.imp_right Language.isScript_iff.mp, tag, counts,
    oneLanguage_iff tag counts⟩

/-- Without a hint and without a linter, an annotation is enough to bring in the counts of types. -/
theorem language_of_submit_annotated :
    ∃ r s' a, ({ Service.new {} with lint := false }).submit
        (fun _ => .ok ⟨"[]", "", some 0⟩) 0 "let x: number = 1" none = .ok (r, s') ∧
      r.analysis = some a ∧ r.language = .javascript ∧ a.language = .javascript ∧
      (a.metrics.get? "num_types").isSome = true ∧ ¬ OneLanguage r a := by
  have standard : ({ Service.new {} with lint := false }).registry =
      .standard ["pylint"] [] 30000 := rfl
  have inspected : ({ Service.new {} with lint := false }).inspect
      (fun _ => .ok ⟨"[]", "", some 0⟩) "let x: number = 1" none =
      .ok (some ⟨[], ofScript "let x: number = 1", .javascript, none⟩) := rfl
  have submitted := submit_of_inspect _ 0 _ _ inspected
  have guessed : Language.guess "let x: number = 1" = .javascript := by decide
  have typed : Typed "let x: number = 1" := by decide
  obtain ⟨-, tag, counts, one⟩ := language_of_submit standard submitted rfl
  refine ⟨_, _, _, submitted, rfl, guessed, tag, ?_, ?_⟩
  · exact (counts "num_types" (by simp [typeCounts])).mpr ⟨congrArg Language.isScript guessed, typed⟩
  · intro speaks
    have same := (one.mp speaks (congrArg Language.isScript guessed)).mpr typed
    cases guessed.symm.trans same

/-- A snippet that is hinted to be TypeScript and has no mark of types is linted as JavaScript. -/
theorem language_of_submit_hinted :
    ∃ r s' a, (Service.new {}).submit (fun _ => .ok ⟨"[]", "", some 0⟩) 0 "x" (some "typescript") =
        .ok (r, s') ∧
      (Service.new {}).registry = .standard ["pylint"] [] 30000 ∧ r.analysis = some a ∧
      r.language = .typescript ∧ a.language = .javascript ∧
      (∀ name ∈ typeCounts, a.metrics.get? name = none) ∧ ¬ OneLanguage r a := by
  have inspected : (Service.new {}).inspect (fun _ => .ok ⟨"[]", "", some 0⟩) "x"
      (some "typescript") = .ok (some ⟨[], ofScript "x", .javascript, none⟩) := rfl
  have hinted : Language.detect "x" (some "typescript") = .typescript := by decide
  have untyped : ¬ Typed "x" := by decide
  refine ⟨_, _, _, submit_of_inspect _ 0 _ _ inspected, rfl, rfl, hinted, rfl, ?_, ?_⟩
  · intro name special
    exact Option.not_isSome_iff_eq_none.mp fun counted =>
      untyped ((isSome_ofScript_iff special).mp counted)
  · intro speaks
    cases hinted.symm.trans speaks.tag.symm

end Service

end SnippetAudit
