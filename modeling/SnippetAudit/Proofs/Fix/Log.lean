import SnippetAudit.Proofs.Fix.Loop

/-!
What the loop reports about itself is what happened: `Faithful` says so of a state of the loop, every
turn keeps it (`Faithful.turn`), and so it holds of the outcome (`Runs.faithful`).
-/

namespace SnippetAudit.Fix

/-- A text after some fixes, one applied after the other. -/
def replay (code : String) (fs : List Fix) : Except EditError String := fs.foldlM apply code

/-- The texts on the way: what the first few of the fixes make of the text. -/
def OnTheWay (code : String) (fs : List Fix) (t : String) : Prop :=
  ∃ front, front <+: fs ∧ replay code front = .ok t

/-! ### Replaying -/

section Replay

variable {code t u : String} {f : Fix} {fs gs : List Fix}

theorem replay_nil (code : String) : replay code [] = .ok code := rfl

theorem replay_concat (before : replay code fs = .ok t) (last : apply t f = .ok u) :
    replay code (fs ++ [f]) = .ok u := by
  rw [replay] at before ⊢
  rw [List.foldlM_append, before]
  simp [bind, Except.bind, last, pure, Except.pure]

theorem OnTheWay.of_replay (h : replay code fs = .ok t) : OnTheWay code fs t :=
  ⟨fs, List.prefix_refl fs, h⟩

theorem OnTheWay.append (h : OnTheWay code fs t) (gs : List Fix) : OnTheWay code (fs ++ gs) t := by
  obtain ⟨front, first, replayed⟩ := h
  exact ⟨front, first.trans (List.prefix_append fs gs), replayed⟩

theorem onTheWay_nil_iff : OnTheWay code [] t ↔ t = code := by
  constructor
  · rintro ⟨front, first, replayed⟩
    rw [List.prefix_nil.mp first, replay_nil] at replayed
    cases replayed
    rfl
  · rintro rfl
    exact .of_replay (replay_nil t)

/-- With one more fix there is one more text on the way. -/
theorem onTheWay_concat (h : OnTheWay code (fs ++ [f]) t) :
    OnTheWay code fs t ∨ replay code (fs ++ [f]) = .ok t := by
  obtain ⟨front, first, replayed⟩ := h
  rcases List.prefix_concat_iff.mp first with rfl | first
  · exact .inr replayed
  · exact .inl ⟨front, first, replayed⟩

end Replay

/-! ### Faithful states -/

section Faithful

variable (propose : String → List Proposal) (accepts : String → Bool)

/-- A fix that is proposed for a text, may be applied to it without being asked for, and makes
something of it that is not acceptable. -/
structure Breaks (t : String) (f : Fix) : Prop where
  proposed : ∃ n, f ∈ Proposal.numbered n (propose t)
  automatic : f.automatic = true
  broken : ∃ u, apply t f = .ok u ∧ accepts u = false

/-- The state is what the fixes that were applied make of the text one after the other, every text on
the way was acceptable, and each fix that was rejected broke one of them, each for the first time. -/
structure Faithful (code : String) (m : AutoOutcome) : Prop where
  replayed : replay code m.applied = .ok m.code
  accepted : ∀ t, OnTheWay code m.applied t → t = code ∨ accepts t = true
  broke : ∀ f ∈ m.rejected, ∃ t, OnTheWay code m.applied t ∧ Breaks propose accepts t f
  distinct : m.rejected.Pairwise fun f g => ¬ Alike f g

variable {propose accepts}

theorem faithful_start (code : String) (counter : Nat) :
    Faithful propose accepts code ⟨code, [], [], counter⟩ where
  replayed := replay_nil code
  accepted := fun _ way => .inl (onTheWay_nil_iff.mp way)
  broke := fun _ mem => by cases mem
  distinct := .nil

/-- **A turn keeps the report faithful.** -/
theorem Faithful.turn {code : String} {m m' : AutoOutcome} (turn : Turn propose accepts m m')
    (h : Faithful propose accepts code m) : Faithful propose accepts code m' := by
  cases turn with
  | @accept f fixed next applied accepted changed =>
    have replayed := replay_concat h.replayed applied
    refine ⟨replayed, ?_, ?_, h.distinct⟩
    · intro t way
      rcases onTheWay_concat way with way | last
      · exact h.accepted t way
      · rw [replayed] at last
        cases last
        exact .inr accepted
    · intro g mem
      obtain ⟨t, way, breaks⟩ := h.broke g mem
      exact ⟨t, way.append [f], breaks⟩
  | @reject f broken next applied refused =>
    have breaks : Breaks propose accepts m.code f :=
      ⟨⟨m.counter, List.mem_of_find?_eq_some next⟩, (isOpen_of_next? next).1, broken, applied,
        refused⟩
    refine ⟨h.replayed, h.accepted, ?_, ?_⟩
    · intro g mem
      rcases List.mem_append.mp mem with mem | mem
      · exact h.broke g mem
      · rw [List.mem_singleton.mp mem]
        exact ⟨m.code, .of_replay h.replayed, breaks⟩
    · rw [List.pairwise_append]
      refine ⟨h.distinct, List.pairwise_singleton _ f, ?_⟩
      intro r mem g same
      rw [List.mem_singleton.mp same]
      exact (isOpen_of_next? next).2 r mem

/-- **So the report at the end of a run is faithful.** -/
theorem Runs.faithful {most : Nat} {code : String} {counter : Nat} {o : AutoOutcome}
    (run : Runs propose accepts most ⟨code, [], [], counter⟩ o) : Faithful propose accepts code o :=
  run.invariant (faithful_start code counter) Faithful.turn
    fun _ h => ⟨h.replayed, h.accepted, h.broke, h.distinct⟩

end Faithful

end SnippetAudit.Fix
