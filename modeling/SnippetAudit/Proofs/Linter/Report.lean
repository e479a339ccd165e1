import SnippetAudit.Linter.Analyzer

/-!
What an analyzer makes of whatever a linter does.

A report is read after members that are written twice were settled, which changes no message
(`issueOf_settled`). So the issues are those of the messages in the array that the linter wrote, one
for each and in their order (`issuesOf_eq_ok_iff`). Every other outcome of a run is a failure: it is
told in the result, with no issue beside it, and the counts are there all the same.
-/

namespace SnippetAudit

/-! ### Settled values -/

namespace Json

theorem settledItems_eq (items : List Json) : settledItems items = items.map settled := by
  induction items with
  | nil => rw [settledItems, List.map_nil]
  | cons j items ih => rw [settledItems, List.map_cons, ih]

theorem lastOf_settledMembers (name : String) (members : List (String × Json)) :
    lastOf name (settledMembers members) = (lastOf name members).map settled := by
  induction members with
  | nil => rw [settledMembers, lastOf]; rfl
  | cons m members ih =>
    obtain ⟨n, v⟩ := m
    rw [settledMembers, lastOf, lastOf, ih]
    cases lastOf name members with
    | some j => rfl
    | none =>
      simp only [Option.map_none, Option.none_or]
      split <;> rfl

theorem isSome_lastOf {name : String} {members : List (String × Json)}
    (present : members.any (·.1 == name) = true) : (lastOf name members).isSome = true := by
  induction members with
  | nil => cases present
  | cons m members ih =>
    rw [List.any_cons, Bool.or_eq_true] at present
    rw [lastOf, Option.isSome_or, Bool.or_eq_true]
    rcases present with here | later
    · right
      rw [if_pos here]
      rfl
    · exact .inl (ih later)

/-- What a later member of the same name hides is never found. -/
theorem lastOf_withoutEarlier (name : String) (members : List (String × Json)) :
    lastOf name (withoutEarlier members) = lastOf name members := by
  induction members with
  | nil => rfl
  | cons m members ih =>
    obtain ⟨n, v⟩ := m
    rw [withoutEarlier, lastOf]
    split
    next hidden =>
      rw [ih]
      by_cases same : n == name
      · rw [beq_iff_eq.mp same] at hidden
        obtain ⟨j, found⟩ := Option.isSome_iff_exists.mp (isSome_lastOf hidden)
        rw [found, Option.some_or]
      · rw [if_neg same, Option.or_none]
    next => rw [lastOf, ih]

/-- **A member of a settled value is the settled member.** -/
theorem member?_settled (name : String) (j : Json) :
    j.settled.member? name = (j.member? name).map settled := by
  cases j with
  | object members =>
    rw [settled, member?, member?, lastOf_withoutEarlier, lastOf_settledMembers]
  | array items => rw [settled]; rfl
  | null | bool | int | float | string => rfl

end Json

namespace Linter

open Json Text

variable (message : Json)

theorem textAt_settled (name : String) : textAt name message.settled = textAt name message := by
  rw [textAt, textAt, member?_settled]
  cases message.member? name with
  | none => rfl
  | some j => cases j <;> simp only [Option.map_some, settled]

theorem positionAt_settled (name : String) :
    positionAt name message.settled = positionAt name message := by
  rw [positionAt, positionAt, member?_settled]
  cases message.member? name with
  | none => rfl
  | some j => cases j <;> simp only [Option.map_some, settled]

theorem severityOfLevel_settled (level : Option Json) :
    severityOfLevel (level.map settled) = severityOfLevel level := by
  cases level with
  | none => rfl
  | some j => cases j <;> simp only [Option.map_some, settled, severityOfLevel]

/-! ### Messages -/

/-- The issue for a message. -/
def Kind.issueOf : Kind → Json → Issue
  | pylint => pylintIssue
  | eslint => eslintIssue

theorem issueOf_settled (kind : Kind) : kind.issueOf message.settled = kind.issueOf message := by
  cases kind with
  | pylint => simp only [Kind.issueOf, pylintIssue, textAt_settled, positionAt_settled]
  | eslint =>
    simp only [Kind.issueOf, eslintIssue, textAt_settled, positionAt_settled, member?_settled,
      severityOfLevel_settled]

theorem map_issueOf_settledItems (kind : Kind) (messages : List Json) :
    (settledItems messages).map kind.issueOf = messages.map kind.issueOf := by
  rw [settledItems_eq, List.map_map]
  exact List.map_congr_left fun message _ => issueOf_settled message kind

/-- Which messages an array holds: for pylint its items; for ESLint the items of the array called
`messages` in its first item, and none where there is no such array. -/
inductive Messages : Kind → List Json → List Json → Prop
  | pylint (items : List Json) : Messages .pylint items items
  | noFile : Messages .eslint [] []
  | file {first : Json} {messages : List Json} (rest : List Json) :
      first.member? "messages" = some (.array messages) → Messages .eslint (first :: rest) messages
  | noMessages {first : Json} (rest : List Json) :
      (∀ messages, first.member? "messages" ≠ some (.array messages)) →
        Messages .eslint (first :: rest) []

/-- An array holds some messages, and no others. -/
theorem Messages.exists (kind : Kind) (items : List Json) : ∃ messages, Messages kind items messages := by
  cases kind with
  | pylint => exact ⟨items, .pylint items⟩
  | eslint =>
    cases items with
    | nil => exact ⟨[], .noFile⟩
    | cons first rest =>
      by_cases named : ∃ messages, first.member? "messages" = some (.array messages)
      · obtain ⟨messages, named⟩ := named
        exact ⟨messages, .file rest named⟩
      · exact ⟨[], .noMessages rest fun messages found => named ⟨messages, found⟩⟩

/-- **The issues in a report are those of its messages**, if the report is an array. -/
theorem issues?_array {kind : Kind} {items messages : List Json} (held : Messages kind items messages) :
    kind.issues? (settled (.array items)) = some (messages.map kind.issueOf) := by
  rw [settled]
  cases held with
  | pylint => exact congrArg some (map_issueOf_settledItems .pylint items)
  | noFile => rw [settledItems]; rfl
  | file rest found =>
    rw [settledItems, Kind.issues?, eslintMessages, member?_settled, found, Option.map_some, settled]
    exact congrArg some (map_issueOf_settledItems .eslint messages)
  | @noMessages first rest missing =>
    rw [settledItems, Kind.issues?, eslintMessages, member?_settled]
    cases found : first.member? "messages" with
    | none => rfl
    | some j =>
      cases j with
      | array messages => exact absurd found (missing messages)
      | object => rw [Option.map_some, settled]; rfl
      | null | bool | int | float | string => rfl

/-- Any other report is unreadable. -/
theorem issues?_of_not_array {kind : Kind} {report : Json}
    (other : ∀ items, report ≠ .array items) : kind.issues? report.settled = none := by
  cases report with
  | array items => exact absurd rfl (other items)
  | object members => rw [settled]; cases kind <;> rfl
  | null | bool | int | float | string => cases kind <;> rfl

/-! ### Outcomes -/

/-- Whether a program wrote a report: an array, or nothing but blanks. -/
def Output.Readable (o : Output) : Prop :=
  trim o.stdout = "" ∨ ∃ items, Json.parse? (trim o.stdout) = some (.array items)

variable {kind : Kind} {o : Output}

theorem issuesOf_blank (blank : trim o.stdout = "") : issuesOf kind (.ok o) = .ok [] := by
  have empty : (trim o.stdout).isEmpty = true := String.isEmpty_iff.mpr blank
  have nothing : o.json kind.title = .ok none := by rw [Output.json, if_pos empty]
  simp only [issuesOf, bind, Except.bind, nothing]

theorem issuesOf_report {report : Json} (written : Json.parse? (trim o.stdout) = some report) :
    issuesOf kind (.ok o) =
      ((kind.issues? report.settled).map .ok).getD (.error (.unreadable kind.title)) := by
  have nonempty : ¬ (trim o.stdout).isEmpty = true := by
    intro empty
    rw [String.isEmpty_iff.mp empty] at written
    cases written
  have read : o.json kind.title = .ok (some report.settled) := by
    rw [Output.json, if_neg nonempty, written]
  simp only [issuesOf, bind, Except.bind, read]
  cases kind.issues? report.settled <;> rfl

theorem issuesOf_array {items messages : List Json}
    (written : Json.parse? (trim o.stdout) = some (.array items)) (held : Messages kind items messages) :
    issuesOf kind (.ok o) = .ok (messages.map kind.issueOf) := by
  rw [issuesOf_report written, issues?_array held]
  rfl

/-- A program that wrote no report is told to be unreadable. -/
theorem issuesOf_of_not_readable (garbled : ¬ o.Readable) :
    issuesOf kind (.ok o) = .error (.unreadable kind.title) := by
  rw [Output.Readable, not_or, not_exists] at garbled
  obtain ⟨nonblank, noArray⟩ := garbled
  cases written : Json.parse? (trim o.stdout) with
  | some report =>
    have other : ∀ items, report ≠ .array items := fun items same => noArray items (same ▸ written)
    rw [issuesOf_report written, issues?_of_not_array other]
    rfl
  | none =>
    have nonempty : ¬ (trim o.stdout).isEmpty = true := mt String.isEmpty_iff.mp nonblank
    have unread : o.json kind.title = .error (.unreadable kind.title) := by
      rw [Output.json, if_neg nonempty, written]
    simp only [issuesOf, bind, Except.bind, unread]

/-- **Which outcomes have issues.** -/
theorem issuesOf_eq_ok_iff {outcome : Outcome} :
    (∃ issues, issuesOf kind outcome = .ok issues) ↔ ∃ o, outcome = .ok o ∧ o.Readable := by
  constructor
  · rintro ⟨issues, found⟩
    cases outcome with
    | error failure => cases found
    | ok o =>
      by_cases readable : o.Readable
      · exact ⟨o, rfl, readable⟩
      · rw [issuesOf_of_not_readable readable] at found
        cases found
  · rintro ⟨o, rfl, blank | ⟨items, written⟩⟩
    · exact ⟨[], issuesOf_blank blank⟩
    · obtain ⟨messages, held⟩ := Messages.exists kind items
      exact ⟨messages.map kind.issueOf, issuesOf_array written held⟩

/-! ### Analyses -/

/-- An analysis tells of a failure unless there are issues to read. -/
theorem error_read_eq_none_iff {a : Analyzer} {code : String} {outcome : Outcome} :
    (a.read code outcome).error = none ↔ ∃ found, issuesOf a.kind outcome = .ok found := by
  rw [Analyzer.read]
  cases issuesOf a.kind outcome with
  | ok found => exact ⟨fun _ => ⟨found, rfl⟩, fun _ => rfl⟩
  | error failure => exact ⟨nofun, nofun⟩

/-- **No failure of a linter loses data.** Whatever comes of the run, the counts are those of the
snippet. The result has no error exactly if the program ended and wrote a report; then there is one
issue for each message, in order, and otherwise there is none. All that counts of a program that ended
is what it wrote to its standard output. -/
theorem analyze_keeps_data (host : Host) (a : Analyzer) (code : String) :
    let r := a.analyze host code
    r.metrics = a.kind.complexity code ∧
    (r.error = none ↔ ∃ o, host (a.job code) = .ok o ∧ o.Readable) ∧
    (r.error ≠ none → r.issues = []) ∧
    (∀ o, host (a.job code) = .ok o → trim o.stdout = "" → r.issues = []) ∧
    (∀ o items, host (a.job code) = .ok o → Json.parse? (trim o.stdout) = some (.array items) →
      ∃ messages, Messages a.kind items messages ∧ r.issues = messages.map a.kind.issueOf) ∧
    ∀ host' o o', host (a.job code) = .ok o → host' (a.job code) = .ok o' → o.stdout = o'.stdout →
      a.analyze host' code = r := by
  intro r
  have issues : r.issues = (issuesOf a.kind (host (a.job code))).toOption.getD [] := rfl
  have error : r.error = none ↔ ∃ found, issuesOf a.kind (host (a.job code)) = .ok found :=
    error_read_eq_none_iff
  refine ⟨rfl, error.trans issuesOf_eq_ok_iff, ?_, ?_, ?_, ?_⟩
  · intro failed
    rw [issues]
    cases outcome : issuesOf a.kind (host (a.job code)) with
    | ok found => exact absurd (error.mpr ⟨found, outcome⟩) failed
    | error failure => rfl
  · intro o ended blank
    rw [issues, ended, issuesOf_blank blank]
    rfl
  · intro o items ended written
    obtain ⟨messages, held⟩ := Messages.exists a.kind items
    refine ⟨messages, held, ?_⟩
    rw [issues, ended, issuesOf_array written held]
    rfl
  · intro host' o o' ended ended' same
    have read : issuesOf a.kind (.ok o') = issuesOf a.kind (.ok o) := by
      rw [issuesOf, issuesOf]
      simp only [bind, Except.bind, Output.json, same]
    show a.read code (host' (a.job code)) = a.read code (host (a.job code))
    rw [ended, ended', Analyzer.read, Analyzer.read, read]

/-- Two messages without any member are two issues, though the program ended with an error. -/
theorem analyze_keeps_bare_messages :
    Json.parse? (trim " [\x7b\"messages\": [null, 7]\x7d]\n") =
        some (.array [.object [("messages", .array [.null, .int 7])]]) ∧
      ∃ messages, Messages .eslint [.object [("messages", .array [.null, .int 7])]] messages ∧
        (Analyzer.analyze
          (fun _ => .ok ⟨" [\x7b\"messages\": [null, 7]\x7d]\n", "noise", some 2⟩)
          ⟨.eslint, [], 0⟩ "x").issues = messages.map (Kind.issueOf .eslint) := by
  have written : Json.parse? (trim " [\x7b\"messages\": [null, 7]\x7d]\n") =
      some (.array [.object [("messages", .array [.null, .int 7])]]) := rfl
  obtain ⟨-, -, -, -, kept, -⟩ := analyze_keeps_data
    (fun _ => .ok ⟨" [\x7b\"messages\": [null, 7]\x7d]\n", "noise", some 2⟩) ⟨.eslint, [], 0⟩ "x"
  exact ⟨written, kept _ _ rfl written⟩

end Linter

end SnippetAudit
