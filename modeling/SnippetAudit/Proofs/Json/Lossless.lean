import SnippetAudit.Proofs.Complexity.Metrics
import SnippetAudit.Proofs.Style.File
import SnippetAudit.Style.Recommend
import SnippetAudit.Submission

/-!
Every record is decoded from what it is encoded as.

A record is taken apart field by field, by the rule for the type of each field: words of an enumeration
are told apart by their spelling, a missing value is written as `null` and a value that is there as
something else, and counts come back in the order of their names. Only numbers that are not finite are
lost, since they are all written as `null`; so a record is given back if all its numbers are finite
(`allFinite`), and one without such numbers always.
-/

namespace SnippetAudit

open Json

/-! ### Words -/

theorem decode_encode_language (l : Language) : decode (encode l) = some l :=
  ofWord_word (by decide) (by cases l <;> decide)

theorem decode_encode_issueSeverity (s : Issue.Severity) : decode (encode s) = some s :=
  ofWord_word (by decide) (by cases s <;> decide)

theorem decode_encode_findingSeverity (s : Finding.Severity) : decode (encode s) = some s :=
  ofWord_word (by decide) (by cases s <;> decide)

theorem decode_encode_fixKind (k : Fix.Kind) : decode (encode k) = some k :=
  ofWord_word (by decide) (by cases k <;> decide)

theorem decode_encode_naming (n : Style.Naming) : decode (encode n) = some n :=
  ofWord_word (by decide) (by cases n <;> decide)

theorem decode_encode_quotes (q : Style.Quotes) : decode (encode q) = some q :=
  ofWord_word (by decide) (by cases q <;> decide)

theorem decode_encode_comments (c : Style.Comments) : decode (encode c) = some c :=
  ofWord_word (by decide) (by cases c <;> decide)

theorem decode_encode_imports (i : Style.Imports) : decode (encode i) = some i :=
  ofWord_word (by decide) (by cases i <;> decide)

/-! ### Counts -/

theorem decode_encode_metrics (m : Metrics) : decode (encode m) = some m := by
  have names : (m.entries.map fun e => (e.1, Json.int e.2)).map (·.1) = m.entries.map (·.1) := by
    rw [List.map_map]
    rfl
  have numbers : (m.entries.map fun e => (e.1, Json.int e.2)).map (·.2) =
      (m.entries.map (·.2)).map encode := by
    rw [List.map_map, List.map_map]
    rfl
  have counts : decodeAll ((m.entries.map (·.2)).map encode) = some (m.entries.map (·.2)) :=
    decodeAll_map_encode fun n _ => decode_encode_nat n
  have pairs : (m.entries.map (·.1)).zip (m.entries.map (·.2)) = m.entries := by
    rw [List.zip_map']
    exact List.map_id m.entries
  show (decodeAll ((m.entries.map fun e => (e.1, Json.int e.2)).map (·.2))).bind (fun counts =>
    some (Metrics.ofList (((m.entries.map fun e => (e.1, Json.int e.2)).map (·.1)).zip counts))) =
      some m
  rw [numbers, counts, names, Option.bind_some, pairs, Metrics.ofList_entries]

/-! ### Numbers -/

/-- Whether every one of some numbers is finite. -/
def allFinite (xs : List Float) : Bool := xs.all (·.isFinite)

theorem allFinite_append {xs ys : List Float} :
    allFinite (xs ++ ys) = true ↔ allFinite xs = true ∧ allFinite ys = true := by
  rw [allFinite, List.all_append, Bool.and_eq_true]
  rfl

theorem allFinite_cons {x : Float} {xs : List Float} :
    allFinite (x :: xs) = true ↔ x.isFinite = true ∧ allFinite xs = true := by
  rw [allFinite, List.all_cons, Bool.and_eq_true]
  rfl

theorem allFinite_flatMap {α : Type} {f : α → List Float} {as : List α} :
    allFinite (as.flatMap f) = true ↔ ∀ a ∈ as, allFinite (f a) = true := by
  rw [allFinite, List.all_flatMap, List.all_eq_true]
  rfl

/-- A number that is there is not written as `null` if it is finite. -/
theorem decode_encode_penalty {o : Option Float} (finite : allFinite o.toList = true) :
    decode (encode o) = some o := by
  have kept : ∀ x ∈ o, x.isFinite = true :=
    fun x mem => List.all_eq_true.mp finite x (Option.mem_toList.mpr mem)
  refine decode_encode_option (fun x mem => ?_) fun x mem => decode_encode_float (kept x mem)
  show (if _ then _ else _) ≠ _
  rw [if_pos (kept x mem)]
  exact Json.noConfusion

/-! ### Findings -/

/-- The floating-point numbers in a bug. -/
def Bug.floats (b : Bug) : List Float := [b.confidence]

/-- The floating-point numbers in a smell. -/
def Smell.floats (s : Smell) : List Float := [s.confidence]

/-- The floating-point numbers in a weakness. -/
def Weakness.floats (w : Weakness) : List Float := [w.confidence]

theorem decode_encode_bug {b : Bug} (finite : allFinite b.floats = true) :
    decode (encode b) = some b := by
  refine decode_row rfl (by decide) ?_
  refine decode_required rfl (decode_encode_nat b.line) ?_
  refine decode_required rfl (decode_encode_findingSeverity b.severity) ?_
  refine decode_required rfl (decode_encode_string b.kind) ?_
  refine decode_required rfl (decode_encode_string b.description) ?_
  refine decode_required rfl (decode_encode_float (allFinite_cons.mp finite).1) ?_
  refine decode_optional rfl (decode_encode_text b.suggestion) ?_
  rfl

theorem decode_encode_smell {s : Smell} (finite : allFinite s.floats = true) :
    decode (encode s) = some s := by
  refine decode_row rfl (by decide) ?_
  refine decode_required rfl (decode_encode_nat s.line) ?_
  refine decode_required rfl (decode_encode_string s.kind) ?_
  refine decode_required rfl (decode_encode_string s.description) ?_
  refine decode_required rfl (decode_encode_findingSeverity s.severity) ?_
  refine decode_required rfl (decode_encode_float (allFinite_cons.mp finite).1) ?_
  refine decode_optional rfl (decode_encode_text s.suggestion) ?_
  rfl

theorem decode_encode_weakness {w : Weakness} (finite : allFinite w.floats = true) :
    decode (encode w) = some w := by
  refine decode_row rfl (by decide) ?_
  refine decode_required rfl (decode_encode_nat w.line) ?_
  refine decode_required rfl (decode_encode_string w.kind) ?_
  refine decode_required rfl (decode_encode_string w.description) ?_
  refine decode_required rfl (decode_encode_findingSeverity w.severity) ?_
  refine decode_required rfl (decode_encode_float (allFinite_cons.mp finite).1) ?_
  refine decode_optional rfl (decode_encode_text w.cwe) ?_
  refine decode_optional rfl (decode_encode_text w.suggestion) ?_
  rfl

/-! ### Analyses -/

theorem decode_encode_issue (i : Issue) : decode (encode i) = some i := by
  refine decode_row rfl (by decide) ?_
  refine decode_required rfl (decode_encode_string i.category) ?_
  refine decode_withDefault rfl (decode_encode_string i.symbol) ?_
  refine decode_withDefault rfl (decode_encode_string i.message) ?_
  refine decode_withDefault rfl (decode_encode_word i.line) ?_
  refine decode_withDefault rfl (decode_encode_word i.column) ?_
  refine decode_withDefault rfl (decode_encode_issueSeverity i.severity) ?_
  rfl

theorem decode_encode_analysis (a : Analysis) : decode (encode a) = some a := by
  refine decode_row rfl (by decide) ?_
  refine decode_required rfl (decode_encode_list fun i _ => decode_encode_issue i) ?_
  refine decode_required rfl (decode_encode_metrics a.metrics) ?_
  refine decode_required rfl (decode_encode_language a.language) ?_
  refine decode_optional rfl (decode_encode_text a.error) ?_
  rfl

/-! ### Fixes -/

/-- The floating-point numbers in a fix. -/
def Fix.floats (f : Fix) : List Float := [f.confidence]

theorem decode_encode_fix {f : Fix} (finite : allFinite f.floats = true) :
    decode (encode f) = some f := by
  refine decode_row rfl (by decide) ?_
  refine decode_required rfl (decode_encode_string f.id) ?_
  refine decode_required rfl (decode_encode_fixKind f.kind) ?_
  refine decode_required rfl (decode_encode_string f.title) ?_
  refine decode_required rfl (decode_encode_string f.description) ?_
  refine decode_required rfl (decode_encode_nat f.first) ?_
  refine decode_required rfl (decode_encode_nat f.last) ?_
  refine decode_required rfl (decode_encode_string f.before) ?_
  refine decode_required rfl (decode_encode_string f.after) ?_
  refine decode_required rfl (decode_encode_string f.diff) ?_
  refine decode_required rfl (decode_encode_float (allFinite_cons.mp finite).1) ?_
  refine decode_required rfl (decode_encode_bool f.automatic) ?_
  rfl

/-! ### Styles -/

theorem decode_encode_patterns (p : Style.Patterns) : decode (encode p) = some p := by
  refine decode_row rfl (by decide) ?_
  refine decode_required rfl (decode_encode_naming p.naming) ?_
  refine decode_required rfl (Style.decode_encode_indentation p.indentation) ?_
  refine decode_required rfl (decode_encode_quotes p.quotes) ?_
  refine decode_required rfl (decode_encode_nat p.lineLength) ?_
  refine decode_required rfl (decode_encode_comments p.comments) ?_
  refine decode_required rfl (decode_encode_imports p.imports) ?_
  rfl

/-- The floating-point numbers in a recommendation. -/
def Style.Recommendation.floats (r : Style.Recommendation) : List Float := [r.confidence]

/-- The floating-point numbers in an entry of a profile. -/
def Style.Entry.floats (e : Style.Entry) : List Float := [e.confidence]

theorem decode_encode_recommendation {r : Style.Recommendation} (finite : allFinite r.floats = true) :
    decode (encode r) = some r := by
  refine decode_row rfl (by decide) ?_
  refine decode_required rfl (decode_encode_nat r.line) ?_
  refine decode_required rfl (decode_encode_string r.kind) ?_
  refine decode_required rfl (decode_encode_string r.current) ?_
  refine decode_required rfl (decode_encode_string r.preferred) ?_
  refine decode_required rfl (decode_encode_string r.description) ?_
  refine decode_required rfl (decode_encode_float (allFinite_cons.mp finite).1) ?_
  rfl

/-! ### Scores and submissions -/

/-- The floating-point numbers in a score. -/
def Score.floats (s : Score) : List Float := [s.total, s.issuePenalty, s.bugPenalty]

theorem decode_encode_score {s : Score} (finite : allFinite s.floats = true) :
    decode (encode s) = some s := by
  simp only [Score.floats, allFinite_cons] at finite
  obtain ⟨total, issues, bugs, -⟩ := finite
  refine decode_row rfl (by decide) ?_
  refine decode_required rfl (decode_encode_float total) ?_
  refine decode_required rfl (decode_encode_string s.grade) ?_
  refine decode_required rfl (decode_encode_float issues) ?_
  refine decode_required rfl (decode_encode_float bugs) ?_
  rfl

/-- The floating-point numbers in a submission. -/
def Submission.floats (s : Submission) : List Float :=
  s.bugs.flatMap Bug.floats ++ s.smells.flatMap Smell.floats ++
    s.weaknesses.flatMap Weakness.floats ++ s.fixes.flatMap Fix.floats ++ s.score.floats

/-- The embedding is never written, so it has to be missing. -/
theorem decode_encode_submission {s : Submission} (finite : allFinite s.floats = true)
    (plain : s.embedding = none) : decode (encode s) = some s := by
  simp only [Submission.floats, allFinite_append, allFinite_flatMap] at finite
  obtain ⟨⟨⟨⟨bugs, smells⟩, weaknesses⟩, fixes⟩, score⟩ := finite
  refine decode_row rfl (by decide) ?_
  refine decode_required rfl (decode_encode_language s.language) ?_
  refine decode_optional rfl (decode_encode_option ?_ fun a _ => decode_encode_analysis a) ?_
  · exact fun _ _ => Json.noConfusion
  refine decode_required rfl (decode_encode_list fun b mem => decode_encode_bug (bugs b mem)) ?_
  refine decode_required rfl (decode_encode_list fun s mem => decode_encode_smell (smells s mem)) ?_
  refine decode_required rfl
    (decode_encode_list fun w mem => decode_encode_weakness (weaknesses w mem)) ?_
  refine decode_required rfl (decode_encode_list fun f mem => decode_encode_fix (fixes f mem)) ?_
  refine decode_required rfl (decode_encode_patterns s.style) ?_
  refine decode_required rfl (decode_encode_score score) ?_
  rw [← plain]

/-! ### Configurations -/

/-- The floating-point numbers among the penalties. -/
def Config.Scoring.floats (c : Config.Scoring) : List Float :=
  c.base :: c.issuePenalty :: c.bugPenalty ::
    (c.errorPenalty.toList ++ c.warningPenalty.toList ++ c.infoPenalty.toList)

/-- The floating-point numbers in a configuration. -/
def Config.floats (c : Config) : List Float := c.scoring.floats

theorem decode_encode_limits (c : Config.Limits) : decode (encode c) = some c := by
  refine decode_row rfl (by decide) ?_
  refine decode_withDefault rfl (decode_encode_nat c.timeout) ?_
  refine decode_withDefault rfl (decode_encode_nat c.maxLength) ?_
  rfl

theorem decode_encode_linters (c : Config.Linters) : decode (encode c) = some c := by
  refine decode_row rfl (by decide) ?_
  refine decode_withDefault rfl (decode_encode_list fun w _ => decode_encode_string w) ?_
  refine decode_withDefault rfl (decode_encode_list fun w _ => decode_encode_string w) ?_
  rfl

theorem decode_encode_model (c : Config.Model) : decode (encode c) = some c := by
  refine decode_row rfl (by decide) ?_
  refine decode_withDefault rfl (decode_encode_bool c.enabled) ?_
  refine decode_withDefault rfl (decode_encode_nat c.idleTimeout) ?_
  refine decode_withDefault rfl (decode_encode_nat c.maxTokens) ?_
  refine decode_withDefault rfl (decode_encode_nat c.dimensions) ?_
  rfl

theorem decode_encode_scoring {c : Config.Scoring} (finite : allFinite c.floats = true) :
    decode (encode c) = some c := by
  simp only [Config.Scoring.floats, allFinite_cons, allFinite_append] at finite
  obtain ⟨base, issue, bug, ⟨error, warning⟩, info⟩ := finite
  refine decode_row rfl (by decide) ?_
  refine decode_withDefault rfl (decode_encode_float base) ?_
  refine decode_withDefault rfl (decode_encode_float issue) ?_
  refine decode_withDefault rfl (decode_encode_float bug) ?_
  refine decode_withDefault rfl (decode_encode_penalty error) ?_
  refine decode_withDefault rfl (decode_encode_penalty warning) ?_
  refine decode_withDefault rfl (decode_encode_penalty info) ?_
  rfl

theorem decode_encode_config {c : Config} (finite : allFinite c.floats = true) :
    decode (encode c) = some c := by
  refine decode_row rfl (by decide) ?_
  refine decode_withDefault rfl (decode_encode_limits c.analysis) ?_
  refine decode_withDefault rfl (decode_encode_linters c.linters) ?_
  refine decode_withDefault rfl (decode_encode_model c.model) ?_
  refine decode_withDefault rfl (decode_encode_scoring finite) ?_
  rfl

/-! ### All records -/

/-- **Decoding undoes encoding.** Every record whose numbers are all finite is given back by its JSON, a
submission if it has no embedding. -/
theorem decode_encode_records :
    (∀ i : Issue, decode (encode i) = some i) ∧
    (∀ a : Analysis, decode (encode a) = some a) ∧
    (∀ b : Bug, allFinite b.floats = true → decode (encode b) = some b) ∧
    (∀ s : Smell, allFinite s.floats = true → decode (encode s) = some s) ∧
    (∀ w : Weakness, allFinite w.floats = true → decode (encode w) = some w) ∧
    (∀ f : Fix, allFinite f.floats = true → decode (encode f) = some f) ∧
    (∀ p : Style.Patterns, decode (encode p) = some p) ∧
    (∀ r : Style.Recommendation, allFinite r.floats = true → decode (encode r) = some r) ∧
    (∀ e : Style.Entry, allFinite e.floats = true → decode (encode e) = some e) ∧
    (∀ s : Score, allFinite s.floats = true → decode (encode s) = some s) ∧
    (∀ s : Submission, allFinite s.floats = true → s.embedding = none →
      decode (encode s) = some s) ∧
    ∀ c : Config, allFinite c.floats = true → decode (encode c) = some c := by
  refine ⟨decode_encode_issue, decode_encode_analysis, ?_, ?_, ?_, ?_, decode_encode_patterns, ?_, ?_,
    ?_, ?_, ?_⟩
  · exact fun _ finite => decode_encode_bug finite
  · exact fun _ finite => decode_encode_smell finite
  · exact fun _ finite => decode_encode_weakness finite
  · exact fun _ finite => decode_encode_fix finite
  · exact fun _ finite => decode_encode_recommendation finite
  · exact fun _ finite => Style.decode_encode_entry (allFinite_cons.mp finite).1
  · exact fun _ finite => decode_encode_score finite
  · exact fun _ finite plain => decode_encode_submission finite plain
  · exact fun _ finite => decode_encode_config finite

/-- A submission with something in every list, and with a score of minus zero. -/
def mixedSubmission : Submission where
  language := .typescript
  analysis := some {
    issues := [⟨"unknown", "", "\"quoted\"", 0xFFFFFFFF, 0, .warning⟩]
    metrics := .ofList [("total_lines", 2), ("code_lines", 1)]
    language := .javascript
    error := some "" }
  bugs := [⟨1, .medium, "loose_equality", "", 0.8, none⟩]
  smells := [⟨2, "deep_nesting", "", .low, 0.7, some "null"⟩]
  weaknesses := [⟨1, "xss_vulnerability", "", .critical, 1e300, some "CWE-79", none⟩]
  fixes := [⟨"fix_1", .security, "", "", 1, 2, "a", "", "- a", 0.30000000000000004, true⟩]
  style := ⟨.mixed, ⟨.tabs, 1⟩, .single, 0, .unknown, .none⟩
  score := ⟨-0.0, "F", 5e-324, 100⟩

theorem decode_encode_mixed :
    allFinite mixedSubmission.floats = true ∧ mixedSubmission.embedding = none ∧
      decode (encode mixedSubmission) = some mixedSubmission ∧
      allFinite (Config.mk {} ⟨[], ["npx", "eslint"]⟩ {} { errorPenalty := some 0.1 }).floats = true ∧
      decode (encode (Config.mk {} ⟨[], ["npx", "eslint"]⟩ {} { errorPenalty := some 0.1 })) =
        some (Config.mk {} ⟨[], ["npx", "eslint"]⟩ {} { errorPenalty := some 0.1 }) := by
  have finite : allFinite mixedSubmission.floats = true := by decide +kernel
  have penalties :
      allFinite (Config.mk {} ⟨[], ["npx", "eslint"]⟩ {} { errorPenalty := some 0.1 }).floats = true := by
    decide +kernel
  obtain ⟨-, -, -, -, -, -, -, -, -, -, submission, config⟩ := decode_encode_records
  exact ⟨finite, rfl, submission _ finite rfl, penalties, config _ penalties⟩

end SnippetAudit
