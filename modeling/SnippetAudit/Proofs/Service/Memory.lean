import SnippetAudit.Proofs.Service.Submit

/-!
What a service remembers.

Two services that agree in their settings refuse the same snippets, and report the same on the others,
up to the numbers of fixes and the embedding (`Agree.report_eq`). No call changes the settings
(`agree_session`), the number of the last fix counts the fixes that were generated
(`counter_session`), and the embedding slot stays steady (`SlotFor`), whenever the model is loaded and
unloaded. So after any calls a service answers like a new one, with all numbers shifted by the
number of fixes that were generated, and nothing but the embedding depends on the settings of the
model.
-/

namespace SnippetAudit

/-- A submission with all numbers of fixes greater by a given one. -/
def Submission.renumbered (n : Nat) (r : Submission) : Submission :=
  { r with fixes := r.fixes.map (Fix.renumbered n) }

namespace Service

variable {s t : Service} (host : Linter.Host) (now : Nat) (code : String) (hint : Option String)

/-! ### Settings -/

/-- Services with the same settings, those of the model excepted. -/
structure Agree (s t : Service) : Prop where
  limits : s.config.analysis = t.config.analysis
  scoring : s.config.scoring = t.config.scoring
  registry : s.registry = t.registry
  lint : s.lint = t.lint
  read : s.read = t.read

theorem Agree.symm (agree : s.Agree t) : t.Agree s :=
  ⟨agree.limits.symm, agree.scoring.symm, agree.registry.symm, agree.lint.symm, agree.read.symm⟩

theorem Agree.trans {u : Service} (first : s.Agree t) (second : t.Agree u) : s.Agree u where
  limits := first.limits.trans second.limits
  scoring := first.scoring.trans second.scoring
  registry := first.registry.trans second.registry
  lint := first.lint.trans second.lint
  read := first.read.trans second.read

theorem Agree.inspect_eq (agree : s.Agree t) : s.inspect host code hint = t.inspect host code hint := by
  have analyzed (language : Language) :
      s.analyze host code language = t.analyze host code language := by
    rw [analyze, analyze, agree.registry, agree.lint]
  rw [inspect, inspect, agree.limits, analyzed]

/-- **A report depends on the settings and the number of the last fix only**, the embedding
excepted. -/
theorem Agree.report_eq (agree : s.Agree t) (same : s.counter = t.counter)
    (analysis : Option Analysis) (v w : Option Embedding.Vector) :
    s.report code hint analysis v = { t.report code hint analysis w with embedding := v } := by
  rw [report, agree.scoring, agree.read, same]
  rfl

/-- The number of the last fix only shifts the numbers in a report. -/
theorem report_add (s : Service) (n : Nat) (analysis : Option Analysis)
    (v : Option Embedding.Vector) :
    { s with counter := s.counter + n }.report code hint analysis v =
      (s.report code hint analysis v).renumbered n := by
  rw [report, Fix.generateBy_add]
  rfl

/-- No call changes the settings. -/
theorem agree_answer (s : Service) (c : Call) : (s.answer host c).2.Agree s := by
  obtain ⟨slot, counter, answered⟩ := s.answer_eq host c
  rw [answered]
  exact ⟨rfl, rfl, rfl, rfl, rfl⟩

theorem agree_session (s : Service) (calls : List Call) : (s.session host calls).2.Agree s := by
  induction calls generalizing s with
  | nil => exact ⟨rfl, rfl, rfl, rfl, rfl⟩
  | cons c calls ih => exact (ih (s.answer host c).2).trans (s.agree_answer host c)

/-! ### Numbers -/

/-- **A call moves the number of the last fix by the fixes that it generates.** -/
theorem counter_answer (s : Service) (c : Call) :
    (s.answer host c).2.counter = s.counter + Answer.generated s.read c (s.answer host c).1 := by
  cases c with
  | submit now code hint =>
    rw [answer_submit]
    cases s.inspect host code hint with
    | ok analysis => exact Fix.generateBy_counter s.read s.counter code (Language.detect code hint)
    | error e => rfl
  | generate code language => exact Fix.generateBy_counter s.read s.counter code language
  | auto code language =>
    obtain ⟨o, ran, answered⟩ := s.answer_auto host code language
    obtain ⟨first, begun, counted⟩ := Fix.autoBy_counter ran
    rw [answered, counted]
    simp only [Answer.generated, begun]
  | similarity now a b => exact s.similarity_counter now a b
  | cleanup now => rfl

theorem counter_session (s : Service) (calls : List Call) :
    (s.session host calls).2.counter =
      s.counter + generated s.read calls (s.session host calls).1 := by
  induction calls generalizing s with
  | nil => rfl
  | cons c calls ih =>
    calc (s.session host (c :: calls)).2.counter
        = (s.answer host c).2.counter +
            generated (s.answer host c).2.read calls ((s.answer host c).2.session host calls).1 :=
          ih (s.answer host c).2
      _ = s.counter + generated s.read (c :: calls) (s.session host (c :: calls)).1 := by
          rw [counter_answer, (s.agree_answer host c).read, Nat.add_assoc]
          rfl

/-- Services that agree use up the same numbers. -/
theorem Agree.counter_answer (agree : s.Agree t) (same : s.counter = t.counter) (c : Call) :
    (s.answer host c).2.counter = (t.answer host c).2.counter := by
  cases c with
  | submit now code hint =>
    rw [answer_submit, answer_submit, agree.inspect_eq]
    cases t.inspect host code hint with
    | ok analysis =>
      show (Fix.generateBy s.read s.counter code _).2 = (Fix.generateBy t.read t.counter code _).2
      rw [agree.read, same]
    | error e => exact same
  | generate code language =>
    show (Fix.generateBy s.read s.counter code language).2 =
      (Fix.generateBy t.read t.counter code language).2
    rw [agree.read, same]
  | auto code language =>
    obtain ⟨o, ran, answered⟩ := s.answer_auto host code language
    obtain ⟨o', ran', answered'⟩ := t.answer_auto host code language
    rw [agree.read, same, ran'] at ran
    cases ran
    rw [answered, answered']
  | similarity now a b =>
    show (s.similarity now a b).2.counter = (t.similarity now a b).2.counter
    rw [similarity_counter, similarity_counter, same]
  | cleanup now => exact same

theorem Agree.counter_session (agree : s.Agree t) (same : s.counter = t.counter)
    (calls : List Call) :
    (s.session host calls).2.counter = (t.session host calls).2.counter := by
  induction calls generalizing s t with
  | nil => exact same
  | cons c calls ih =>
    refine ih ?_ (agree.counter_answer host same c)
    exact ((s.agree_answer host c).trans agree).trans (t.agree_answer host c).symm

/-! ### The slot -/

/-- The slots that a service may have whose model is configured in a given way. -/
def SlotFor (c : Config.Model) : Option Embedding.Slot → Prop
  | none => c.enabled = false
  | some slot => slot.SteadyWith Embedding.Hash.ofChars c

theorem SlotFor.map {c : Config.Model} {slot : Option Embedding.Slot}
    {f : Embedding.Slot → Embedding.Slot} (h : SlotFor c slot)
    (keeps : ∀ s, s.SteadyWith Embedding.Hash.ofChars c → (f s).SteadyWith Embedding.Hash.ofChars c) :
    SlotFor c (slot.map f) := by
  cases slot with
  | none => exact h
  | some s => exact keeps s h

theorem slotFor_fresh (read : Python.Reader) (c : Config) (registry : Linter.Registry) (lint : Bool) :
    SlotFor c.model (fresh read c registry lint).slot := by
  show SlotFor c.model (if _ then _ else _)
  split
  next => exact Embedding.Slot.steady_standardBy _ c.model
  next disabled => exact Bool.eq_false_of_not_eq_true disabled

variable {c : Config.Model}

theorem slotFor_embed (h : SlotFor c s.slot) : SlotFor c (s.embed now code).2.slot := by
  rw [embed_snd]
  exact h.map fun _ steady => steady.embed_snd now code

theorem slotFor_cleanup (h : SlotFor c s.slot) : SlotFor c (s.cleanup now).slot :=
  h.map fun _ steady => steady.cleanup_snd now

/-- **Every call keeps the slot steady**, whether it loads the model, uses it or unloads it. -/
theorem slotFor_answer (h : SlotFor c s.slot) (call : Call) :
    SlotFor c (s.answer host call).2.slot := by
  cases call with
  | submit now code hint =>
    rw [answer_submit]
    cases s.inspect host code hint with
    | ok analysis =>
      have embedded := slotFor_embed now code h
      exact slotFor_cleanup now (s := { (s.embed now code).2 with
        counter := (Fix.generateBy s.read s.counter code (Language.detect code hint)).2 }) embedded
    | error e => exact h
  | generate code language => exact h
  | auto code language =>
    obtain ⟨o, -, answered⟩ := s.answer_auto host code language
    rw [answered]
    exact h
  | similarity now a b =>
    have first := slotFor_embed now a h
    show SlotFor c (s.similarity now a b).2.slot
    rw [similarity_snd]
    split
    · exact slotFor_embed now b first
    · exact first
  | cleanup now => exact slotFor_cleanup now h

theorem slotFor_session (h : SlotFor c s.slot) (calls : List Call) :
    SlotFor c (s.session host calls).2.slot := by
  induction calls generalizing s with
  | nil => exact h
  | cons call calls ih => exact ih (slotFor_answer host h call)

/-- The embedding that a model with a given configuration gives. -/
def embedding (c : Config.Model) (code : String) : Option Embedding.Vector :=
  (Embedding.Slot.steadyAnswer code c.enabled
    (Embedding.tokenBackend Embedding.Hash.ofChars c.dimensions c.maxTokens 0)).vector?

theorem embedding_of_disabled (disabled : c.enabled = false) : embedding c code = none := by
  rw [embedding, disabled]
  cases Embedding.tokenBackend Embedding.Hash.ofChars c.dimensions c.maxTokens 0 <;> rfl

/-- **The embedding depends on the configuration of the model only.** -/
theorem embed_of_slotFor (h : SlotFor c s.slot) : (s.embed now code).1 = embedding c code := by
  rw [embed_fst]
  cases held : s.slot with
  | none =>
    rw [held] at h
    exact (embedding_of_disabled code h).symm
  | some slot =>
    rw [held] at h
    exact congrArg Embedding.Slot.Answer.vector? (Embedding.Slot.Steady.embed_fst h now code)

/-! ### Sessions -/

/-- **A service remembers nothing but the number of the last fix.** After any calls a snippet is
answered as by a new service: it is refused for the same reason, or the report and its embedding are
the same, with each number greater by the number of fixes that were generated. A refusal leaves the
service as it was. And whatever the configuration says of the model, after the same calls only the
embedding may differ. -/
theorem submit_session (read : Python.Reader) (c : Config) (registry : Linter.Registry) (lint : Bool)
    (calls : List Call) (now' : Nat) :
    let before := fresh read c registry lint
    let after := (before.session host calls).2
    let n := generated read calls (before.session host calls).1
    after.counter = n ∧
    (∀ e, after.submit host now code hint = .error e →
      (after.answer host (.submit now code hint)).2 = after) ∧
    (after.submit host now code hint).map (·.1) =
      (before.submit host now' code hint).map (·.1.renumbered n) ∧
    ∀ model : Config.Model,
      ((((fresh read { c with model } registry lint).session host calls).2.submit host now code hint).map
        fun (r, _) => { r with embedding := none }) =
      (after.submit host now code hint).map fun (r, _) => { r with embedding := none } := by
  intro before after n
  have counted : after.counter = before.counter + n := before.counter_session host calls
  have agree : after.Agree before := before.agree_session host calls
  have slot : SlotFor c.model before.slot := slotFor_fresh read c registry lint
  have embedded : (after.embed now code).1 = (before.embed now' code).1 := by
    rw [embed_of_slotFor now code (slotFor_session host slot calls), embed_of_slotFor now' code slot]
  refine ⟨?_, ?_, ?_, ?_⟩
  · rw [counted]
    exact Nat.zero_add n
  · intro e refused
    rw [answer, refused]
  · rw [submit_eq, submit_eq, agree.inspect_eq]
    cases before.inspect host code hint with
    | error e => rfl
    | ok analysis =>
      have shifted : after.Agree { before with counter := before.counter + n } :=
        ⟨agree.limits, agree.scoring, agree.registry, agree.lint, agree.read⟩
      show Except.ok (after.report code hint analysis (after.embed now code).1) =
        .ok ((before.report code hint analysis (before.embed now' code).1).renumbered n)
      rw [embedded, shifted.report_eq code hint counted analysis _ (before.embed now' code).1,
        report_add]
      rfl
  · intro model
    have other : (fresh read { c with model } registry lint).Agree before := ⟨rfl, rfl, rfl, rfl, rfl⟩
    have agree' := ((agree_session host _ calls).trans other).trans agree.symm
    have same := other.counter_session host rfl calls
    rw [submit_eq, submit_eq, agree'.inspect_eq]
    cases after.inspect host code hint with
    | error e => rfl
    | ok analysis =>
      have report := agree'.report_eq code hint same analysis none none
      exact congrArg Except.ok report

end Service

end SnippetAudit
