import SnippetAudit.Proofs.Style.Merge
import SnippetAudit.Style.Recommend

/-!
Recommendations measure against the first snippet.

A profile keeps of each trait the value that was seen first, however many snippets are merged behind it
(`exists_entry_new`). It keeps words, numbers and indentations in one type of values, and two snippets
have the same value of a trait exactly if they have the same trait (`Patterns.value_eq_iff`). So a
snippet is compared with the first one, trait by trait, and what was merged later does not count
(`recommend_of_first`).
-/

namespace SnippetAudit.Style

/-! ### Values -/

theorem Naming.name_inj {a b : Naming} : a.name = b.name ↔ a = b := by
  cases a <;> cases b <;> decide

theorem Quotes.name_inj {a b : Quotes} : a.name = b.name ↔ a = b := by
  cases a <;> cases b <;> decide

theorem Comments.name_inj {a b : Comments} : a.name = b.name ↔ a = b := by
  cases a <;> cases b <;> decide

theorem Imports.name_inj {a b : Imports} : a.name = b.name ↔ a = b := by
  cases a <;> cases b <;> decide

/-- Two snippets have the same trait. -/
def Patterns.Agree (p s : Patterns) : Trait → Prop
  | .naming => p.naming = s.naming
  | .indentation => p.indentation = s.indentation
  | .quotes => p.quotes = s.quotes
  | .lineLength => p.lineLength = s.lineLength
  | .comments => p.comments = s.comments
  | .imports => p.imports = s.imports

/-- **The values of a trait are the same exactly if the traits are.** -/
theorem Patterns.value_eq_iff (p s : Patterns) (t : Trait) : p.value t = s.value t ↔ p.Agree s t := by
  cases t with
  | naming => rw [value, value, Value.text.injEq, Naming.name_inj, Agree]
  | indentation => rw [value, value, Value.indentation.injEq, Agree]
  | quotes => rw [value, value, Value.text.injEq, Quotes.name_inj, Agree]
  | lineLength => rw [value, value, Value.number.injEq, Agree]
  | comments => rw [value, value, Value.text.injEq, Comments.name_inj, Agree]
  | imports => rw [value, value, Value.text.injEq, Imports.name_inj, Agree]

/-! ### Differences -/

/-- What is recommended for a snippet whose names, indentation or quotation marks differ from those of a
user's first one. -/
def differences (p first : Patterns) : List Recommendation :=
  (if p.naming = first.naming then [] else [{
    line := 1
    kind := "naming_convention"
    current := p.naming.name
    preferred := first.naming.name
    description := "Consider using " ++ first.naming.name ++ " to match your usual style"
    confidence := 0.7 }]) ++
  ((if p.indentation = first.indentation then [] else [{
    line := 1
    kind := "indentation"
    current := p.indentation.display
    preferred := first.indentation.display
    description := "Your usual indentation is " ++ toString first.indentation.size ++ " " ++
      first.indentation.kind.name
    confidence := 0.9 }]) ++
  (if p.quotes = first.quotes then [] else [{
    line := 1
    kind := "quote_style"
    current := p.quotes.name
    preferred := first.quotes.name
    description := "You typically use " ++ first.quotes.name ++ " quotes"
    confidence := 0.6 }]))

/-- The value that a profile keeps is that of the first snippet. -/
theorem Profile.exists_entry_new (user : String) (s : Patterns) (rest : List Patterns) (t : Trait) :
    ∃ e, ((s :: rest).foldl merge (new user)).entries t = some e ∧ e.value = s.value t :=
  ⟨_, entries_foldl (new user) s rest t, Entry.value_after _ _⟩

/-- What is recommended on a trait depends on the kept value only. -/
theorem toList_recommendOn {p first : Patterns} {profile : Profile} {t : Trait} {e : Entry}
    (known : profile.entries t = some e) (kept : e.value = first.value t) (confidence : Float) :
    (recommendOn p profile t confidence).toList =
      if p.value t = first.value t then []
      else [{
        line := 1
        kind := (advice t (first.value t)).1
        current := (p.value t).display
        preferred := (first.value t).display
        description := (advice t (first.value t)).2
        confidence }] := by
  simp only [recommendOn, known, Option.bind_eq_bind, Option.bind_some, ← kept]
  by_cases same : p.value t = e.value
  · rw [if_pos same, if_pos same]
    rfl
  · rw [if_neg same, if_neg same]
    rfl

/-- The traits are looked at one by one, names first and quotation marks last. -/
theorem recommend_eq (p : Patterns) (profile : Profile) :
    recommend p profile =
      (recommendOn p profile .naming 0.7).toList ++
        ((recommendOn p profile .indentation 0.9).toList ++
          (recommendOn p profile .quotes 0.6).toList) := by
  simp only [recommend, recommended, List.filterMap_cons, List.filterMap_nil]
  cases recommendOn p profile .naming 0.7 <;> cases recommendOn p profile .indentation 0.9 <;>
    cases recommendOn p profile .quotes 0.6 <;> rfl

/-- **A snippet is compared with the values that a profile keeps.** -/
theorem recommend_eq_differences {p first : Patterns} {profile : Profile}
    (kept : ∀ t, ∃ e, profile.entries t = some e ∧ e.value = first.value t) :
    recommend p profile = differences p first := by
  obtain ⟨_, names, namesKept⟩ := kept .naming
  obtain ⟨_, indents, indentsKept⟩ := kept .indentation
  obtain ⟨_, marks, marksKept⟩ := kept .quotes
  rw [recommend_eq, toList_recommendOn names namesKept, toList_recommendOn indents indentsKept,
    toList_recommendOn marks marksKept]
  simp only [Patterns.value_eq_iff, Patterns.Agree]
  rfl

section Kinds

variable (p first : Patterns)

/-- The kinds of recommendations come in one order, and each at most once. -/
theorem kinds_differences_sublist :
    ((differences p first).map (·.kind)).Sublist ["naming_convention", "indentation", "quote_style"] := by
  simp only [differences, List.map_append]
  change List.Sublist _ (["naming_convention"] ++ (["indentation"] ++ ["quote_style"]))
  refine List.Sublist.append ?_ (List.Sublist.append ?_ ?_)
  · split <;> simp
  · split <;> simp
  · split <;> simp

theorem exists_mem_ite_iff {same : Prop} [Decidable same] {r : Recommendation} {kind : String} :
    (∃ r' ∈ (if same then [] else [r]), r'.kind = kind) ↔ kind = r.kind ∧ ¬ same := by
  by_cases h : same <;> simp [h, eq_comm]

/-- **A kind of recommendation is made exactly where its trait differs.** -/
theorem exists_kind_iff (kind : String) :
    (∃ r ∈ differences p first, r.kind = kind) ↔
      (kind = "naming_convention" ∧ p.naming ≠ first.naming) ∨
      (kind = "indentation" ∧ p.indentation ≠ first.indentation) ∨
      (kind = "quote_style" ∧ p.quotes ≠ first.quotes) := by
  simp only [differences, List.mem_append, or_and_right, exists_or]
  exact or_congr exists_mem_ite_iff (or_congr exists_mem_ite_iff exists_mem_ite_iff)

theorem differences_eq_nil (naming : p.naming = first.naming) (indentation : p.indentation = first.indentation)
    (quotes : p.quotes = first.quotes) : differences p first = [] := by
  rw [differences, if_pos naming, if_pos indentation, if_pos quotes]
  rfl

end Kinds

/-- **Recommendations measure against the first snippet only.** Whatever is merged behind it, a snippet gets
the recommendations for what differs from the first one: on names, indentation and quotation marks, in this
order, each at most once and exactly where the two differ. A snippet that agrees with the first one on
these gets none. -/
theorem recommend_of_first (user : String) (first : Patterns) (rest : List Patterns) (p : Patterns) :
    let made := recommend p ((first :: rest).foldl Profile.merge (.new user))
    made = differences p first ∧
    (made.map (·.kind)).Sublist ["naming_convention", "indentation", "quote_style"] ∧
    (∀ kind, (∃ r ∈ made, r.kind = kind) ↔
      (kind = "naming_convention" ∧ p.naming ≠ first.naming) ∨
      (kind = "indentation" ∧ p.indentation ≠ first.indentation) ∨
      (kind = "quote_style" ∧ p.quotes ≠ first.quotes)) ∧
    (p.naming = first.naming → p.indentation = first.indentation → p.quotes = first.quotes →
      made = []) := by
  intro made
  have same : made = differences p first :=
    recommend_eq_differences (Profile.exists_entry_new user first rest)
  rw [same]
  exact ⟨rfl, kinds_differences_sublist p first, exists_kind_iff p first, differences_eq_nil p first⟩

end SnippetAudit.Style
