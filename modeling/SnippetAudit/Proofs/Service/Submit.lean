import SnippetAudit.Proofs.Embedding.Slot
import SnippetAudit.Proofs.Fix.Number
import SnippetAudit.Session

/-!
What a call does to a service.

A snippet is first inspected, which may refuse it and looks at neither the slot nor the number of the
last fix. The answer is then a report, with an embedding put in (`submit_eq`). Whatever is called, a
service keeps its configuration, its registry and its setting for linters (`answer_eq`).
-/

namespace SnippetAudit

namespace Service

variable (host : Linter.Host) (now : Nat) (code : String) (hint : Option String)

/-! ### Reports -/

/-- The static analysis of a snippet, unless the snippet is refused. -/
def inspect (s : Service) : Except Refusal (Option Analysis) := do
  (s.config.analysis.check code).mapError .tooLong
  (s.analyze host code (Language.detect code hint)).mapError .unserved

/-- What a service says about a snippet, given its analysis and its embedding. -/
def report (s : Service) (analysis : Option Analysis) (embedding : Option Embedding.Vector) :
    Submission :=
  let language := Language.detect code hint
  let bugs := Finding.bugs code language
  { language
    analysis
    bugs
    smells := Finding.smells code
    weaknesses := Finding.weaknesses code language
    fixes := (Fix.generateBy s.read s.counter code language).1
    style := Style.extractBy s.read code language
    score := Score.compute s.config.scoring ((analysis.map (·.issues)).getD []) bugs.length
    embedding }

/-- The slot as embedding a snippet leaves it. -/
def slotAfter (s : Service) : Option Embedding.Slot :=
  s.slot.map fun slot => (slot.embed now code).2

theorem embed_fst (s : Service) :
    (s.embed now code).1 = s.slot.bind fun slot => (slot.embed now code).1.vector? := by
  rcases s with ⟨config, registry, lint, _ | slot, counter, read⟩
  · rfl
  · rw [embed]
    rcases embedded : slot.embed now code with ⟨_ | _ | _, slot'⟩ <;>
      simp [embedded, Embedding.Slot.Answer.vector?]

/-- Embedding a snippet changes nothing but the slot. -/
theorem embed_snd (s : Service) :
    (s.embed now code).2 = { s with slot := s.slotAfter now code } := by
  rcases s with ⟨config, registry, lint, _ | slot, counter, read⟩
  · rfl
  · rw [embed, slotAfter]
    rcases embedded : slot.embed now code with ⟨_ | _ | _, slot'⟩ <;> simp [embedded]

/-- The service that reported on a snippet. -/
def reported (s : Service) : Service :=
  { (s.embed now code).2 with
    counter := (Fix.generateBy s.read s.counter code (Language.detect code hint)).2 }.cleanup now

/-- **A snippet that is not refused is answered by a report.** -/
theorem submit_eq (s : Service) :
    s.submit host now code hint = (s.inspect host code hint).map fun analysis =>
      (s.report code hint analysis (s.embed now code).1, s.reported now code hint) := by
  have embedded : s.embed now code =
      ((s.embed now code).1, { s with slot := s.slotAfter now code }) :=
    Prod.ext rfl (s.embed_snd now code)
  rw [submit, inspect, reported, embedded]
  cases (s.config.analysis.check code).mapError Refusal.tooLong with
  | error e => rfl
  | ok _ =>
    cases analyzed : (s.analyze host code (Language.detect code hint)).mapError Refusal.unserved with
    | error e =>
      simp only [bind, Except.bind, analyzed]
      rfl
    | ok analysis =>
      simp only [bind, Except.bind, analyzed, Except.map]
      rfl

theorem submit_of_inspect {s : Service} {analysis : Option Analysis}
    (inspected : s.inspect host code hint = .ok analysis) :
    s.submit host now code hint =
      .ok (s.report code hint analysis (s.embed now code).1, s.reported now code hint) := by
  rw [submit_eq, inspected]
  rfl

/-! ### Calls -/

theorem answer_submit (s : Service) :
    s.answer host (.submit now code hint) =
      match s.inspect host code hint with
      | .ok analysis => (.submission (s.report code hint analysis (s.embed now code).1),
          s.reported now code hint)
      | .error e => (.refused e, s) := by
  rw [answer, submit_eq]
  cases s.inspect host code hint with
  | ok analysis => rfl
  | error e => rfl

theorem answer_auto (s : Service) (language : Language) :
    ∃ o, Fix.autoBy s.read s.counter code language = .ok o ∧
      s.answer host (.auto code language) = (.fixed o, { s with counter := o.counter }) := by
  obtain ⟨o, ran, -⟩ := Fix.autoBy_runs s.read s.counter code language
  refine ⟨o, ran, ?_⟩
  simp only [answer, ran]

theorem similarity_snd (a b : String) (s : Service) :
    (s.similarity now a b).2 =
      if (s.embed now a).1.isSome then ((s.embed now a).2.embed now b).2 else (s.embed now a).2 := by
  rw [similarity]
  rcases s.embed now a with ⟨_ | v, s'⟩ <;> rfl

theorem similarity_counter (a b : String) (s : Service) :
    (s.similarity now a b).2.counter = s.counter := by
  rw [similarity_snd, embed_snd, embed_snd]
  split <;> rfl

/-- **A call changes nothing but the slot and the number of the last fix.** -/
theorem answer_eq (s : Service) (c : Call) :
    ∃ slot counter, (s.answer host c).2 = { s with slot, counter } := by
  cases c with
  | submit now code hint =>
    rw [answer_submit, reported, embed_snd]
    cases s.inspect host code hint with
    | ok analysis => exact ⟨_, _, rfl⟩
    | error e => exact ⟨_, _, rfl⟩
  | generate code language => exact ⟨_, _, rfl⟩
  | auto code language =>
    obtain ⟨o, -, answered⟩ := s.answer_auto host code language
    rw [answered]
    exact ⟨_, _, rfl⟩
  | similarity now a b =>
    show ∃ slot counter, (s.similarity now a b).2 = { s with slot, counter }
    rw [similarity_snd, embed_snd, embed_snd]
    split <;> exact ⟨_, _, rfl⟩
  | cleanup now => exact ⟨_, _, rfl⟩

end Service

end SnippetAudit
