import Mathlib.Data.List.Nodup
import Mathlib.Data.List.Pairwise
import SnippetAudit.Proofs.Fix.Proposal

/-!
Proposals are told apart by how their titles begin.

A battery is a list of rules (`proposalsBy_eq`), and no title of one rule begins like one of another
(`leads_apart`). So the title of a proposal names the rule that it comes from (`mem_of_titled`). A
rule for lines proposes something for exactly the lines with a flaw, and its titles end in the number of
the line (`Answers`).
-/

namespace SnippetAudit.Fix

open Text Battery

/-- How the title of a removal of an import begins. -/
def removalLead : String := "Remove unused import '"

/-- How the title of a rewrite of comparisons with `None` begins. -/
def identityLead : String := "Use 'is None' instead of '== None' on line "

/-- How the title of a proposal begins that names an exception. -/
def exceptionLead : String := "Replace bare except on line "

/-- How the title of a proposal begins that evaluates literals only. -/
def literalsLead : String := "Replace eval() with ast.literal_eval() on line "

/-- How the title of a rewrite of loose comparisons begins. -/
def strictLead : String := "Use strict equality (===) on line "

/-- How the title of a proposal begins that assigns text in place of markup. -/
def textLead : String := "Use textContent instead of innerHTML on line "

/-- A title that begins in a given way. -/
def Titled (lead title : String) : Prop := lead.toList <+: title.toList

instance (lead title : String) : Decidable (Titled lead title) := by
  unfold Titled
  infer_instance

theorem titled_append (lead rest : String) : Titled lead (lead ++ rest) := by
  rw [Titled, String.toList_append]
  exact List.prefix_append _ _

/-- One title does not begin in two ways neither of which begins the other. -/
theorem Titled.meets {lead lead' title : String} (h : Titled lead title) (h' : Titled lead' title) :
    Meets lead.toList lead'.toList :=
  meets_of_isPrefix h h'

/-! ### Rules -/

/-- Some proposals whose titles all begin in one way. -/
structure Rule where
  lead : String
  proposals : List Proposal
  titled : ∀ p ∈ proposals, Titled lead p.title

/-- A rule for lines that proposes one thing for every line with a flaw, and says in the title which line
this is. -/
structure Answers (flaw : String → Bool) (lead : String) (rule : Nat → String → Option Proposal) :
    Prop where
  fires : ∀ number {line}, flaw line = true → ∃ p, rule number line = some p
  names : ∀ {number line p}, rule number line = some p →
    flaw line = true ∧ p.title = lead ++ toString number ∧ p.first = number ∧ p.last = number

namespace Answers

variable {flaw : String → Bool} {lead : String} {rule : Nat → String → Option Proposal}

theorem of_ite {q : Nat → String → Proposal}
    (rule_eq : ∀ number line, rule number line = if flaw line = true then some (q number line) else none)
    (names : ∀ number line, (q number line).title = lead ++ toString number ∧
      (q number line).first = number ∧ (q number line).last = number) : Answers flaw lead rule where
  fires := by
    intro number line flawed
    exact ⟨q number line, by rw [rule_eq, if_pos flawed]⟩
  names := by
    intro number line p found
    rw [rule_eq] at found
    split at found <;> cases found
    next flawed => exact ⟨flawed, names number line⟩

theorem titled (h : Answers flaw lead rule) {code : String} {p : Proposal}
    (mem : p ∈ eachLine rule code) : Titled lead p.title := by
  obtain ⟨pre, line, _, -, found⟩ := mem_eachLine.mp mem
  rw [(h.names found).2.1]
  exact titled_append _ _

/-- What is proposed for the lines of a text. -/
def toRule (h : Answers flaw lead rule) (code : String) : Rule :=
  ⟨lead, eachLine rule code, fun _ mem => h.titled mem⟩

end Answers

theorem answers_trailingBlanks :
    Answers endsBlank "Remove trailing whitespace on line " trailingBlanks :=
  .of_ite trailingBlanks_eq fun _ _ => ⟨rfl, rfl, rfl⟩

theorem answers_noneComparisonFix :
    Answers (foundOn Finding.noneComparison) identityLead noneComparisonFix :=
  .of_ite (fun _ _ => rfl) fun _ _ => ⟨rfl, rfl, rfl⟩

theorem answers_bareExceptFix : Answers (foundOn Finding.bareExcept) exceptionLead bareExceptFix :=
  .of_ite (fun _ _ => rfl) fun _ _ => ⟨rfl, rfl, rfl⟩

theorem answers_evalCallFix : Answers (foundOn plainEvalCall) literalsLead evalCallFix :=
  .of_ite (fun _ _ => rfl) fun _ _ => ⟨rfl, rfl, rfl⟩

theorem answers_looseEqualityFix :
    Answers (foundOn Finding.looseEquality) strictLead looseEqualityFix :=
  .of_ite (fun _ _ => rfl) fun _ _ => ⟨rfl, rfl, rfl⟩

theorem answers_varWordFix :
    Answers (foundOn varWord) "Replace 'var' with 'const' on line " varWordFix :=
  .of_ite (fun _ _ => rfl) fun _ _ => ⟨rfl, rfl, rfl⟩

theorem answers_innerHtmlFix :
    Answers (foundOn Finding.innerHtmlAssignment) textLead innerHtmlFix :=
  .of_ite (fun _ _ => rfl) fun _ _ => ⟨rfl, rfl, rfl⟩

theorem titled_of_unusedImport {ls : List String} {b : Python.ImportBinding} {p : Proposal}
    (found : unusedImport ls b = some p) : Titled removalLead p.title := by
  obtain ⟨-, _, -, rfl⟩ := unusedImport_eq_some_iff.mp found
  rw [onLine, String.append_assoc]
  exact titled_append _ _

theorem titled_of_missingDocumentation {ls : List String} {d : Python.Definition} {p : Proposal}
    (found : missingDocumentation ls d = some p) : Titled "Add docstring to " p.title := by
  obtain ⟨-, before, -, rfl⟩ := missingDocumentation_eq_some_iff.mp found
  exact titled_append _ _

theorem titled_of_comprehensionFix {number : Nat} {head body : String} {p : Proposal}
    (found : comprehensionFix number head body = some p) :
    Titled "Use list comprehension on line " p.title := by
  rw [(fields_of_comprehensionFix found).2.1]
  exact titled_append _ _

/-! ### Batteries -/

section Batteries

variable (read : Python.Reader) (code : String)

/-- The removals of imports. -/
def removals : Rule where
  lead := removalLead
  proposals := (read.outline code).imports.filterMap (unusedImport (lines code))
  titled := by
    intro p mem
    obtain ⟨b, -, found⟩ := List.mem_filterMap.mp mem
    exact titled_of_unusedImport found

/-- The additions of documentation. -/
def documentation : Rule where
  lead := "Add docstring to "
  proposals := (read.outline code).definitions.filterMap (missingDocumentation (lines code))
  titled := by
    intro p mem
    obtain ⟨d, -, found⟩ := List.mem_filterMap.mp mem
    exact titled_of_missingDocumentation found

/-- The comprehensions in place of loops. -/
def loopRewrites : Rule where
  lead := "Use list comprehension on line "
  proposals := comprehensions 1 (lines code)
  titled := by
    intro p mem
    obtain ⟨_, _, _, _, -, -, found⟩ := mem_comprehensions mem
    exact titled_of_comprehensionFix found

/-- The rules for a language, in the order of their proposals. -/
def rulesOf : Language → List Rule
  | .python => [removals read code, answers_trailingBlanks.toRule code, documentation read code,
      answers_noneComparisonFix.toRule code, answers_bareExceptFix.toRule code, loopRewrites code,
      answers_evalCallFix.toRule code]
  | .javascript | .typescript => [answers_looseEqualityFix.toRule code,
      answers_varWordFix.toRule code, answers_innerHtmlFix.toRule code]
  | .java | .cpp => []

/-- How the titles for a language begin. -/
def leadsOf : Language → List String
  | .python => [removalLead, "Remove trailing whitespace on line ", "Add docstring to ",
      identityLead, exceptionLead, "Use list comprehension on line ", literalsLead]
  | .javascript | .typescript => [strictLead, "Replace 'var' with 'const' on line ", textLead]
  | .java | .cpp => []

theorem map_lead_rulesOf (language : Language) :
    (rulesOf read code language).map Rule.lead = leadsOf language := by
  cases language <;> rfl

/-- **What is proposed for a text is what the rules for its language propose.** -/
theorem proposalsBy_eq (language : Language) :
    proposalsBy read language code = (rulesOf read code language).flatMap Rule.proposals := by
  cases language <;>
    simp [proposalsBy, Battery.python, Battery.script, rulesOf, removals, documentation, loopRewrites,
      Answers.toRule, List.flatMap_cons, List.append_assoc]

end Batteries

/-! ### Rules by title -/

/-- How titles begin. -/
def leads : List String := leadsOf .python ++ leadsOf .javascript

/-- No title of one rule begins like one of another. -/
theorem leads_apart : leads.Pairwise fun a b => ¬ Meets a.toList b.toList := by
  decide

theorem eq_of_meets {a b : String} (ha : a ∈ leads) (hb : b ∈ leads) (meets : Meets a.toList b.toList) :
    a = b := by
  by_contra different
  have : Std.Symm fun a b : String => ¬ Meets a.toList b.toList := ⟨fun _ _ h meets => h meets.symm⟩
  exact leads_apart.forall ha hb different meets

theorem nodup_leads : leads.Nodup := by
  refine leads_apart.imp ?_
  rintro a _ apart rfl
  exact apart (.inl List.prefix_rfl)

theorem leadsOf_sublist (language : Language) : (leadsOf language).Sublist leads := by
  cases language with
  | python => exact List.sublist_append_left _ _
  | javascript | typescript => exact List.sublist_append_right _ _
  | java | cpp => exact List.nil_sublist _

variable {read : Python.Reader} {language : Language} {code : String} {p : Proposal}

theorem lead_mem_leadsOf {r : Rule} (known : r ∈ rulesOf read code language) :
    r.lead ∈ leadsOf language := by
  rw [← map_lead_rulesOf read code]
  exact List.mem_map_of_mem known

/-- A title that begins like those of some rule begins like those of a rule for the language. -/
theorem exists_rule_of_titled {lead : String} (mem : p ∈ proposalsBy read language code)
    (known : lead ∈ leads) (titled : Titled lead p.title) :
    ∃ r ∈ rulesOf read code language, r.lead = lead ∧ p ∈ r.proposals := by
  rw [proposalsBy_eq] at mem
  obtain ⟨r, rule, inside⟩ := List.mem_flatMap.mp mem
  have spoken : r.lead ∈ leads := (leadsOf_sublist language).subset (lead_mem_leadsOf rule)
  exact ⟨r, rule, eq_of_meets spoken known ((r.titled p inside).meets titled), inside⟩

/-- **A proposal comes from the rule that its title names.** -/
theorem mem_of_titled {r : Rule} (mem : p ∈ proposalsBy read language code)
    (known : r ∈ rulesOf read code language) (titled : Titled r.lead p.title) : p ∈ r.proposals := by
  have nodup : ((rulesOf read code language).map Rule.lead).Nodup := by
    rw [map_lead_rulesOf]
    exact nodup_leads.sublist (leadsOf_sublist language)
  have spoken : r.lead ∈ leads := (leadsOf_sublist language).subset (lead_mem_leadsOf known)
  obtain ⟨r', known', same, inside⟩ := exists_rule_of_titled mem spoken titled
  rwa [List.inj_on_of_nodup_map nodup known known' same.symm]

/-- A proposal with the title of a removal is one. -/
theorem exists_unusedImport_of_titled (mem : p ∈ Battery.python read code)
    (titled : Titled removalLead p.title) :
    ∃ b ∈ (read.outline code).imports, unusedImport (lines code) b = some p := by
  have known : removals read code ∈ rulesOf read code .python := by simp [rulesOf]
  exact List.mem_filterMap.mp (mem_of_titled mem known titled)

/-- A proposal with the title of a rewrite of comparisons with `None` is one. -/
theorem mem_noneComparisonFix_of_titled (mem : p ∈ Battery.python read code)
    (titled : Titled identityLead p.title) : p ∈ eachLine noneComparisonFix code := by
  have known : answers_noneComparisonFix.toRule code ∈ rulesOf read code .python := by simp [rulesOf]
  exact mem_of_titled mem known titled

end SnippetAudit.Fix
