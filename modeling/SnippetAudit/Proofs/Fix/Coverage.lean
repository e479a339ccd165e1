import SnippetAudit.Proofs.Fix.Fit
import SnippetAudit.Proofs.Fix.Loop
import SnippetAudit.Proofs.Fix.Title

/-!
Which findings have a fix on their line.

A scan reports a kind on a line exactly where the pattern for it is found there (`bugOn_iff`,
`weaknessOn_iff`), and a rule for lines proposes its fix exactly where its own pattern is found
(`fixOn_iff`). Comparisons with `None`, bare excepts, loose comparisons and assignments of markup are
sought with one pattern on both sides. Calls of `eval` are not: the scan takes every call of a name that
ends in `eval`, the fix only one that stands for itself (`occurs_plainEvalCall_iff`). So the scan reports
even what this fix puts in place (`occurs_evalCall_of_evalCallFix`).
-/

namespace SnippetAudit

/-! ### Findings by line -/

namespace Finding

open Text

/-- Something is found on the line with a given number. -/
def FoundAt (m : Matcher) (code : String) (i : Nat) : Prop :=
  ∃ line, (i, line) ∈ numberedLines code ∧ occurs m line.toList = true

/-- A bug of some kind is reported on a line. -/
def BugOn (code : String) (language : Language) (kind : String) (i : Nat) : Prop :=
  ∃ b ∈ bugs code language, b.kind = kind ∧ b.line = i

/-- A weakness of some kind is reported on a line. -/
def WeaknessOn (code : String) (language : Language) (kind : String) (i : Nat) : Prop :=
  ∃ w ∈ weaknesses code language, w.kind = kind ∧ w.line = i

variable {code : String} {language : Language} {kind : String} {i : Nat}

/-- **A bug is reported exactly where a pattern of its kind is found.** -/
theorem bugOn_iff :
    BugOn code language kind i ↔
      ∃ p ∈ bugPatterns language, p.kind = kind ∧ FoundAt p.matcher code i := by
  constructor
  · rintro ⟨b, mem, rfl, rfl⟩
    obtain ⟨⟨number, line⟩, numbered, reported⟩ := List.mem_flatMap.mp mem
    obtain ⟨p, pattern, found⟩ := List.mem_filterMap.mp reported
    split at found <;> cases found
    next here => exact ⟨p, pattern, rfl, line, numbered, here⟩
  · rintro ⟨p, pattern, rfl, line, numbered, here⟩
    exact ⟨_, List.mem_flatMap.mpr ⟨(i, line), numbered,
      List.mem_filterMap.mpr ⟨p, pattern, if_pos here⟩⟩, rfl, rfl⟩

/-- **A weakness is reported exactly where a pattern of its kind is found.** -/
theorem weaknessOn_iff :
    WeaknessOn code language kind i ↔
      ∃ p ∈ weaknessPatterns language, p.kind = kind ∧ FoundAt p.matcher code i := by
  constructor
  · rintro ⟨w, mem, rfl, rfl⟩
    obtain ⟨⟨number, line⟩, numbered, reported⟩ := List.mem_flatMap.mp mem
    obtain ⟨p, pattern, found⟩ := List.mem_flatMap.mp reported
    obtain ⟨start, here, rfl⟩ := List.mem_map.mp found
    refine ⟨p, pattern, rfl, line, numbered, ?_⟩
    rw [← Bool.not_eq_false, ← starts_eq_nil_iff]
    exact List.ne_nil_of_mem here
  · rintro ⟨p, pattern, rfl, line, numbered, here⟩
    have some : starts p.matcher line.toList ≠ [] := by
      rwa [ne_eq, starts_eq_nil_iff, Bool.not_eq_false]
    obtain ⟨start, here⟩ := List.exists_mem_of_ne_nil _ some
    exact ⟨_, List.mem_flatMap.mpr ⟨(i, line), numbered,
      List.mem_flatMap.mpr ⟨p, pattern, List.mem_map.mpr ⟨start, here, rfl⟩⟩⟩, rfl, rfl⟩

end Finding

/-! ### Fixes by line -/

namespace Fix

open Text Finding Battery

/-- A fix for a line whose title begins in a given way and says which line it is for. -/
def FixOn (fixes : List Fix) (lead : String) (i : Nat) : Prop :=
  ∃ f ∈ fixes, f.title = lead ++ toString i ∧ f.first = i ∧ f.last = i

section Lines

variable {read : Python.Reader} {counter : Nat} {code : String} {language : Language} {lead : String}
  {i : Nat}

theorem exists_proposal_of_fixOn (h : FixOn (generateBy read counter code language).1 lead i) :
    ∃ p ∈ proposalsBy read language code, Titled lead p.title ∧ p.first = i := by
  obtain ⟨f, mem, title, first, -⟩ := h
  obtain ⟨p, proposed, n, rfl⟩ := exists_of_mem_numbered mem
  have title : p.title = lead ++ toString i := title
  refine ⟨p, proposed, ?_, first⟩
  rw [title]
  exact titled_append _ _

/-- **A rule for lines fixes exactly the lines on which its pattern is found.** -/
theorem fixOn_iff {m : Matcher} {rule : Nat → String → Option Proposal}
    (answers : Answers (foundOn m) lead rule)
    (known : answers.toRule code ∈ rulesOf read code language) :
    FixOn (generateBy read counter code language).1 lead i ↔ FoundAt m code i := by
  constructor
  · intro h
    obtain ⟨p, proposed, titled, first⟩ := exists_proposal_of_fixOn h
    obtain ⟨⟨number, line⟩, numbered, found⟩ :=
      List.mem_filterMap.mp (mem_of_titled proposed known titled)
    obtain ⟨here, -, first', -⟩ := answers.names found
    exact ⟨line, by rwa [← first, first'], here⟩
  · rintro ⟨line, numbered, here⟩
    obtain ⟨p, found⟩ := answers.fires i here
    obtain ⟨-, title, first, last⟩ := answers.names found
    have inside : p ∈ eachLine rule code := List.mem_filterMap.mpr ⟨(i, line), numbered, found⟩
    have proposed : p ∈ proposalsBy read language code := by
      rw [proposalsBy_eq]
      exact List.mem_flatMap.mpr ⟨_, known, inside⟩
    obtain ⟨n, mem⟩ := exists_mem_numbered counter proposed
    exact ⟨p.toFix n, mem, title, first, last⟩

/-- The fixes for a language are those of its own rules. -/
theorem not_fixOn (known : lead ∈ leads) (foreign : lead ∉ leadsOf language) :
    ¬ FixOn (generateBy read counter code language).1 lead i := by
  intro h
  obtain ⟨p, proposed, titled, -⟩ := exists_proposal_of_fixOn h
  obtain ⟨r, rule, rfl, -⟩ := exists_rule_of_titled proposed known titled
  exact foreign (lead_mem_leadsOf rule)

end Lines

/-! ### Calls that stand for themselves -/

/-- A text begins with `eval` and the parenthesis of a call, with any blanks between them. -/
def CallFirst (s : List Char) : Prop := ∃ call, Gapped "eval" "(" call ∧ call <+: s

/-- A call of a name that ends in `eval` is on a line. -/
def SomeCall (line : List Char) : Prop := ∃ pre rest, line = pre ++ rest ∧ CallFirst rest

/-- A character behind which a name stands for itself: it is part of no name, and looks up none. -/
def Separates (c : Char) : Prop := isWordChar c = false ∧ c ≠ '.'

/-- A call of `eval` that stands for itself is on a line. -/
def PlainCall (line : List Char) : Prop :=
  ∃ pre rest, line = pre ++ rest ∧ CallFirst rest ∧ ∀ c ∈ pre.getLast?, Separates c

instance (c : Char) : Decidable (Separates c) :=
  inferInstanceAs (Decidable (isWordChar c = false ∧ c ≠ '.'))

theorem separates_iff {c : Char} : Separates c ↔ (isWordChar c || decide (c = '.')) = false := by
  rw [Bool.or_eq_false_iff, decide_eq_false_iff_not, Separates]

theorem CallFirst.ne_nil {s : List Char} (h : CallFirst s) : s ≠ [] := by
  obtain ⟨call, word, post, rfl⟩ := h
  simp [word.ne_nil visible_parenthesis]

/-- A call is a word with a parenthesis behind it. -/
theorem exists_of_gapped_eval {call : List Char} (word : Gapped "eval" "(" call) :
    ∃ gap, (∀ c ∈ gap, isBlank c = true) ∧ call = "eval".toList ++ gap ++ ['('] := by
  obtain ⟨gap, blank, rfl⟩ := word
  exact ⟨gap, blank, (List.append_assoc _ _ _).symm⟩

theorem CallFirst.head? {s : List Char} (h : CallFirst s) : s.head? = some 'e' := by
  obtain ⟨call, word, post, rfl⟩ := h
  obtain ⟨gap, -, rfl⟩ := exists_of_gapped_eval word
  rfl

theorem isSome_evalCall_iff {before : Option Char} {s : List Char} :
    (evalCall before s).isSome = true ↔ CallFirst s :=
  isSome_gapped_iff visible_parenthesis

theorem isSome_plainEvalCall_some_iff {before : Char} {s : List Char} :
    (plainEvalCall (some before) s).isSome = true ↔
      ∃ c rest, s = c :: rest ∧ Separates c ∧ CallFirst rest := by
  cases s with
  | nil => simp [plainEvalCall]
  | cons c rest =>
    simp only [plainEvalCall]
    split
    next joined =>
      have together : ¬ Separates c := fun apart => by
        rw [separates_iff.mp apart] at joined
        cases joined
      simp [together]
    next apart =>
      have apart : Separates c := separates_iff.mpr (Bool.eq_false_iff.mpr apart)
      simp [isSome_evalCall_iff, apart]

/-- **What the fix takes in**: a call at the beginning of a line, or else one behind a character that
separates, together with that character. -/
theorem plainEvalCall_eq_some_iff {before : Option Char} {s : List Char} {n : Nat} :
    plainEvalCall before s = some n ↔ ∃ lead call rest, s = lead ++ (call ++ rest) ∧
      Gapped "eval" "(" call ∧ n = lead.length + call.length ∧
      (lead = [] ∧ before = none ∨ ∃ c, lead = [c] ∧ Separates c) := by
  constructor
  · intro found
    unfold plainEvalCall at found
    split at found
    next k first =>
      cases found
      obtain ⟨call, word, ⟨rest, rfl⟩, rfl⟩ := (gapped_eq_some_iff visible_parenthesis).mp first
      exact ⟨[], call, rest, rfl, word, (Nat.zero_add _).symm, .inl ⟨rfl, rfl⟩⟩
    next =>
      split at found
      next c behind _ =>
        split at found
        next => cases found
        next apart =>
          obtain ⟨k, later, rfl⟩ := Option.map_eq_some_iff.mp found
          obtain ⟨call, word, ⟨rest, rfl⟩, rfl⟩ := (gapped_eq_some_iff visible_parenthesis).mp later
          exact ⟨[c], call, rest, rfl, word, Nat.add_comm _ _,
            .inr ⟨c, rfl, separates_iff.mpr (Bool.eq_false_iff.mpr apart)⟩⟩
      next => cases found
  · rintro ⟨lead, call, rest, rfl, word, rfl, ⟨rfl, rfl⟩ | ⟨c, rfl, apart⟩⟩
    · have first : evalCall none (call ++ rest) = some call.length :=
        (gapped_eq_some_iff visible_parenthesis).mpr ⟨call, word, List.prefix_append _ _, rfl⟩
      simp [plainEvalCall, first]
    · have later : evalCall (some c) (call ++ rest) = some call.length :=
        (gapped_eq_some_iff visible_parenthesis).mpr ⟨call, word, List.prefix_append _ _, rfl⟩
      have elsewhere : evalCall none (c :: (call ++ rest)) = none := by
        rw [← Option.not_isSome_iff_eq_none, isSome_evalCall_iff]
        intro first
        obtain rfl : c = 'e' := Option.some.inj first.head?
        exact absurd apart (by decide)
      have behind : plainEvalCall before (c :: (call ++ rest)) =
          (evalCall (some c) (call ++ rest)).map (· + 1) := by
        cases before <;> simp [plainEvalCall, elsewhere, apart.1, apart.2]
      exact behind.trans (by simp [later, Nat.add_comm])

/-- The pattern of the fix matches a call at the beginning of a line, or else the character in front of
a call. -/
theorem isSome_plainEvalCall_iff {before : Option Char} {s : List Char} :
    (plainEvalCall before s).isSome = true ↔
      before = none ∧ CallFirst s ∨ ∃ c rest, s = c :: rest ∧ Separates c ∧ CallFirst rest := by
  cases before with
  | some d => exact isSome_plainEvalCall_some_iff.trans (or_iff_right (by simp)).symm
  | none =>
    cases first : evalCall none s with
    | some n =>
      have matched : plainEvalCall none s = some n := by simp only [plainEvalCall, first]
      rw [matched]
      exact iff_of_true rfl (.inl ⟨rfl, isSome_evalCall_iff.mp (by rw [first]; rfl)⟩)
    | none =>
      -- what is left is what the pattern does behind any character
      have behind : plainEvalCall none s = plainEvalCall (some 'e') s := by
        simp only [plainEvalCall, first]
      have elsewhere : ¬ CallFirst s := by
        rw [← @isSome_evalCall_iff none, first]
        exact Bool.false_ne_true
      rw [behind, isSome_plainEvalCall_some_iff, or_iff_right fun both => elsewhere both.2]

/-- **The fix finds exactly the calls that stand for themselves.** -/
theorem occurs_plainEvalCall_iff {s : List Char} : occurs plainEvalCall s = true ↔ PlainCall s := by
  rw [occurs, occursFrom_iff_append]
  simp only [Option.or_none, isSome_plainEvalCall_iff]
  constructor
  · rintro ⟨pre, rest, rfl, -, ⟨start, here⟩ | ⟨c, rest, rfl, apart, here⟩⟩
    · refine ⟨pre, rest, rfl, here, ?_⟩
      rw [start]
      rintro c ⟨⟩
    · refine ⟨pre ++ [c], rest, by simp, here, ?_⟩
      rw [List.getLast?_concat]
      rintro d ⟨⟩
      exact apart
  · rintro ⟨pre, rest, rfl, here, apart⟩
    rcases List.eq_nil_or_concat pre with rfl | ⟨pre, c, rfl⟩
    · exact ⟨[], rest, rfl, here.ne_nil, .inl ⟨rfl, here⟩⟩
    · exact ⟨pre, c :: rest, by simp, List.cons_ne_nil _ _,
        .inr ⟨c, rest, rfl, apart c (by simp), here⟩⟩

/-- The scan finds every call. -/
theorem occurs_evalCall_iff {s : List Char} : occurs evalCall s = true ↔ SomeCall s := by
  rw [occurs, occursFrom_iff_append]
  simp only [isSome_evalCall_iff]
  exact exists₂_congr fun pre rest =>
    and_congr_right fun _ => and_iff_right_of_imp CallFirst.ne_nil

theorem PlainCall.someCall {s : List Char} (h : PlainCall s) : SomeCall s := by
  obtain ⟨pre, rest, cut, here, -⟩ := h
  exact ⟨pre, rest, cut, here⟩

/-! ### Findings and fixes -/

section Coverage

variable {read : Python.Reader} {counter : Nat} {code : String} {language : Language} {i : Nat}

theorem comparison_iff : BugOn code language "comparison_error" i ↔
    FixOn (generateBy read counter code language).1 identityLead i := by
  rw [bugOn_iff]
  cases language with
  | python =>
    rw [fixOn_iff answers_noneComparisonFix (by simp [rulesOf])]
    simp [bugPatterns]
  | javascript | typescript | java | cpp =>
    exact iff_of_false (by simp [bugPatterns]) (not_fixOn (by decide) (by decide))

theorem bareExcept_iff : BugOn code language "bare_except" i ↔
    FixOn (generateBy read counter code language).1 exceptionLead i := by
  rw [bugOn_iff]
  cases language with
  | python =>
    rw [fixOn_iff answers_bareExceptFix (by simp [rulesOf])]
    simp [bugPatterns]
  | javascript | typescript | java | cpp =>
    exact iff_of_false (by simp [bugPatterns]) (not_fixOn (by decide) (by decide))

theorem looseEquality_iff : BugOn code language "loose_equality" i ↔
    FixOn (generateBy read counter code language).1 strictLead i := by
  rw [bugOn_iff]
  cases language with
  | javascript | typescript =>
    rw [fixOn_iff answers_looseEqualityFix (by simp [rulesOf])]
    simp [bugPatterns]
  | python | java | cpp =>
    exact iff_of_false (by simp [bugPatterns]) (not_fixOn (by decide) (by decide))

theorem markup_iff : WeaknessOn code language "xss_vulnerability" i ↔
    FixOn (generateBy read counter code language).1 textLead i := by
  rw [weaknessOn_iff]
  cases language with
  | javascript | typescript =>
    rw [fixOn_iff answers_innerHtmlFix (by simp [rulesOf])]
    simp [weaknessPatterns]
  | python | java | cpp =>
    exact iff_of_false (by simp [weaknessPatterns]) (not_fixOn (by decide) (by decide))

theorem injection_iff : WeaknessOn code language "code_injection" i ↔
    language = .python ∧ ∃ line, (i, line) ∈ numberedLines code ∧ SomeCall line.toList := by
  rw [weaknessOn_iff]
  cases language with
  | python => simp [weaknessPatterns, FoundAt, occurs_evalCall_iff]
  | javascript | typescript | java | cpp => simp [weaknessPatterns]

/-- A fix for a call of `eval` is for a line with a weakness, on which some call stands for itself. -/
theorem evaluation_iff : FixOn (generateBy read counter code language).1 literalsLead i ↔
    WeaknessOn code language "code_injection" i ∧
      ∃ line, (i, line) ∈ numberedLines code ∧ PlainCall line.toList := by
  rw [injection_iff]
  cases language with
  | python =>
    rw [fixOn_iff answers_evalCallFix (by simp [rulesOf])]
    simp only [FoundAt, occurs_plainEvalCall_iff, true_and]
    rw [iff_and_self]
    rintro ⟨line, numbered, plain⟩
    exact ⟨line, numbered, plain.someCall⟩
  | javascript | typescript | java | cpp =>
    exact iff_of_false (not_fixOn (by decide) (by decide)) (by simp)

end Coverage

/-- **Which findings have a fix on their line.** Comparisons with `None`, bare excepts, loose comparisons
and assignments of markup are reported on exactly the lines that have the fix for them. A weakness is
reported on every line of Python with a call of a name that ends in `eval`, but the fix for it is
proposed only for those on which some call stands for itself, and not where every such name is longer
or is looked up in something else. -/
theorem findings_covered (read : Python.Reader) (counter : Nat) (code : String) (language : Language)
    (i : Nat) :
    (BugOn code language "comparison_error" i ↔
        FixOn (generateBy read counter code language).1
          "Use 'is None' instead of '== None' on line " i) ∧
      (BugOn code language "bare_except" i ↔
        FixOn (generateBy read counter code language).1 "Replace bare except on line " i) ∧
      (BugOn code language "loose_equality" i ↔
        FixOn (generateBy read counter code language).1 "Use strict equality (===) on line " i) ∧
      (WeaknessOn code language "xss_vulnerability" i ↔
        FixOn (generateBy read counter code language).1
          "Use textContent instead of innerHTML on line " i) ∧
      (WeaknessOn code language "code_injection" i ↔
        language = .python ∧ ∃ line, (i, line) ∈ numberedLines code ∧ SomeCall line.toList) ∧
      (FixOn (generateBy read counter code language).1
          "Replace eval() with ast.literal_eval() on line " i ↔
        WeaknessOn code language "code_injection" i ∧
          ∃ line, (i, line) ∈ numberedLines code ∧ PlainCall line.toList) :=
  ⟨comparison_iff, bareExcept_iff, looseEquality_iff, markup_iff, injection_iff, evaluation_iff⟩

/-- A call that evaluates literals only is reported like one of `eval`, and has no fix. -/
theorem literal_evaluation_reported :
    WeaknessOn "ok = ast.literal_eval(text)" .python "code_injection" 1 ∧
      ¬ FixOn (generate 0 "ok = ast.literal_eval(text)" .python).1
        "Replace eval() with ast.literal_eval() on line " 1 := by
  have fixes : (generate 0 "ok = ast.literal_eval(text)" .python).1 = [] := by decide +kernel
  have line : (1, "ok = ast.literal_eval(text)") ∈ numberedLines "ok = ast.literal_eval(text)" := by
    decide
  refine ⟨weaknessOn_iff.mpr ⟨_, List.mem_cons_self, rfl, _, line, by decide⟩, ?_⟩
  rw [fixes]
  rintro ⟨f, mem, -⟩
  cases mem

/-! ### What the fix for calls leaves -/

/-- What is replaced is a call, with at most one character in front of it. -/
theorem exists_of_plainEvalCall {before : Option Char} {s : List Char} {n : Nat}
    (found : plainEvalCall before s = some n) :
    ∃ front call, s.take n = front ++ call ∧ (∀ c ∈ front, isWordChar c = false) ∧
      Gapped "eval" "(" call := by
  obtain ⟨lead, call, rest, rfl, word, rfl, begins⟩ := plainEvalCall_eq_some_iff.mp found
  refine ⟨lead, call, ?_, ?_, word⟩
  · rw [← List.append_assoc, ← List.length_append, List.take_left]
  · rcases begins with ⟨rfl, -⟩ | ⟨c, rfl, apart⟩
    · simp
    · simp [apart.1]

/-- What takes the place of a call, behind what is in front of it. -/
theorem evaluateLiterals_append {front call : List Char} (apart : ∀ c ∈ front, isWordChar c = false)
    (word : Gapped "eval" "(" call) :
    evaluateLiterals (front ++ call) = front ++ "ast.literal_".toList ++ call := by
  have lead : (front ++ call).takeWhile (fun c => !isWordChar c) = front := by
    obtain ⟨gap, -, rfl⟩ := word
    have first : isWordChar 'e' = true := by decide
    rw [List.takeWhile_append_of_pos (by simpa using apart)]
    simp [first]
  rw [evaluateLiterals, lead, List.drop_left]

/-- The call stays as it is, behind what is put in front of it. -/
theorem infix_evaluateLiterals {front call : List Char} (apart : ∀ c ∈ front, isWordChar c = false)
    (word : Gapped "eval" "(" call) : call <:+: evaluateLiterals (front ++ call) := by
  rw [evaluateLiterals_append apart word]
  exact (List.suffix_append _ call).isInfix

/-- **The fix for calls of `eval` leaves the weakness that it is for**: what it puts in place is reported
again. -/
theorem occurs_evalCall_of_evalCallFix {number : Nat} {line : String} {p : Proposal}
    (found : evalCallFix number line = some p) : occurs evalCall p.after.toList = true := by
  rw [evalCallFix] at found
  split at found <;> cases found
  next plain =>
    obtain ⟨_, rest, n, matched, inside⟩ := exists_infix_replaceFrom evaluateLiterals plain
    obtain ⟨front, call, cut, apart, word⟩ := exists_of_plainEvalCall matched
    rw [cut] at inside
    have stays : call <:+: replace plainEvalCall evaluateLiterals line.toList :=
      (infix_evaluateLiterals apart word).trans inside
    show occurs evalCall (rewriteLine plainEvalCall evaluateLiterals line).toList = true
    rw [toList_rewriteLine]
    exact (occurs_gapped_iff visible_parenthesis).mpr ⟨call, word, stays⟩

end Fix

end SnippetAudit
