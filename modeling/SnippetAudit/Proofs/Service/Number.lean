import SnippetAudit.Proofs.Service.Submit

/-!
The numbers of fixes along a session.

Each call takes its numbers from those behind the last one of the service, and leaves the service at
or behind the greatest that it used (`numbered_answer`). So the numbers ascend from call to call
(`inOrder_session`), and no identifier is given twice, although automatic runs leave numbers out and
list what they applied apart from what they rejected.
-/

namespace SnippetAudit.Service

variable (host : Linter.Host)

/-- **A call numbers its fixes behind all earlier ones.** -/
theorem numbered_answer (s : Service) (c : Call) :
    Fix.Numbered s.counter (s.answer host c).2.counter (s.answer host c).1.fixLists := by
  cases c with
  | submit now code hint =>
    rw [answer_submit]
    cases s.inspect host code hint with
    | ok analysis => exact Fix.numbered_generateBy _ s.counter code (Language.detect code hint)
    | error e => exact .nil s.counter
  | generate code language => exact Fix.numbered_generateBy _ s.counter code language
  | auto code language =>
    obtain ⟨o, ran, answered⟩ := s.answer_auto host code language
    rw [answered]
    exact Fix.numbered_autoBy ran
  | similarity now a b =>
    show Fix.Numbered s.counter (s.similarity now a b).2.counter []
    rw [similarity_counter]
    exact .nil s.counter
  | cleanup now => exact .nil s.counter

/-! ### Sessions -/

/-- Answers whose fixes got their numbers between two points, each behind the one before. -/
structure InOrder (low high : Nat) (answers : List Answer) : Prop where
  bounded : low ≤ high
  each : ∀ a ∈ answers, Fix.Numbered low high a.fixLists
  ordered : answers.Pairwise fun a b => ∀ f ∈ a.allFixes, ∀ g ∈ b.allFixes, f.number < g.number

variable {low middle high : Nat} {a : Answer} {answers : List Answer}

theorem mem_allFixes (lists : Fix.Numbered low high a.fixLists) {f : Fix} (mem : f ∈ a.allFixes) :
    f.Named ∧ low < f.number ∧ f.number ≤ high := by
  obtain ⟨fs, list, mem⟩ := List.mem_flatten.mp mem
  exact lists.mem fs list f mem

theorem InOrder.cons (first : Fix.Numbered low middle a.fixLists)
    (others : InOrder middle high answers) : InOrder low high (a :: answers) where
  bounded := Nat.le_trans first.bounded others.bounded
  each := by
    intro b mem
    rcases List.mem_cons.mp mem with rfl | mem
    · exact first.mono (Nat.le_refl low) others.bounded
    · exact (others.each b mem).mono first.bounded (Nat.le_refl high)
  ordered := by
    refine .cons ?_ others.ordered
    intro b memB f memF g memG
    have before := (mem_allFixes first memF).2.2
    have behind := (mem_allFixes (others.each b memB) memG).2.1
    exact Nat.lt_of_le_of_lt before behind

/-- **A session numbers its fixes in the order of its calls.** -/
theorem inOrder_session (s : Service) (calls : List Call) :
    InOrder s.counter (s.session host calls).2.counter (s.session host calls).1 := by
  induction calls generalizing s with
  | nil => exact ⟨Nat.le_refl _, fun _ mem => (List.not_mem_nil mem).elim, .nil⟩
  | cons c calls ih => exact .cons (s.numbered_answer host c) (ih (s.answer host c).2)

/-- The fixes of one answer have different numbers. -/
theorem pairwise_allFixes (lists : Fix.Numbered low high a.fixLists) :
    a.allFixes.Pairwise fun f g => f.number ≠ g.number := by
  refine List.pairwise_flatten.mpr ⟨?_, lists.apart⟩
  exact fun fs mem => (lists.ascending fs mem).imp Nat.ne_of_lt

/-- **No identifier is given twice, and numbers ascend.** In every session each fix has the identifier
of its number. The numbers ascend along each list of fixes, and from one answer to the next. So the
identifiers of all fixes in all answers are different. -/
theorem session_numbered (s : Service) (calls : List Call) :
    (∀ a ∈ (s.session host calls).1, ∀ fs ∈ a.fixLists,
      (∀ f ∈ fs, f.id = Proposal.idOf f.number) ∧
        fs.Pairwise fun f g => f.number < g.number) ∧
    ((s.session host calls).1.Pairwise fun a b =>
      ∀ f ∈ a.allFixes, ∀ g ∈ b.allFixes, f.number < g.number) ∧
    (((s.session host calls).1.flatMap Answer.allFixes).map (·.id)).Nodup := by
  have order := s.inOrder_session host calls
  refine ⟨?_, order.ordered, ?_⟩
  · intro a mem fs list
    have lists := order.each a mem
    exact ⟨fun f mem => (lists.mem fs list f mem).1, lists.ascending fs list⟩
  · rw [List.nodup_iff_pairwise_ne, List.pairwise_map]
    have distinct : ((s.session host calls).1.flatMap Answer.allFixes).Pairwise
        fun f g => f.number ≠ g.number := by
      refine List.pairwise_flatMap.mpr ⟨fun a mem => pairwise_allFixes (order.each a mem), ?_⟩
      exact order.ordered.imp fun before f memF g memG => Nat.ne_of_lt (before f memF g memG)
    -- The number can be read off the identifier.
    exact distinct.imp fun different same => different (congrArg Proposal.numberOf same)

end SnippetAudit.Service
