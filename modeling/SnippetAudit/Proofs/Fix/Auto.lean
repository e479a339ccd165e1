import SnippetAudit.Proofs.Fix.Log
import SnippetAudit.Proofs.Fix.Proposal

/-!
What comes of applying fixes automatically, whatever text is given and however Python is read.

Every fix that is proposed can be applied and lightens the text, so the loop always has an outcome
(`autoBy_runs`), the one in which its turns end (`autoBy_eq_ok_iff`). No more fixes are applied than
the text has weight (`applied_length_add_textWeight_le`). Unless it was cut short by the limit,
nothing is left that may still be tried, or the text is empty (`closed_or_empty`).
-/

namespace SnippetAudit.Fix

open Text Finding

section Outcome

variable {read : Python.Reader} {language : Language} {accepts : String → Bool}

/-! ### Running the loop -/

/-- What is proposed can be applied. -/
theorem exists_apply_of_automatic {code : String} {p : Proposal}
    (mem : p ∈ proposalsBy read language code) (automatic : p.automatic = true) (n : Nat) :
    ∃ fixed, apply code (p.toFix n) = .ok fixed := by
  obtain ⟨pre, post, mends⟩ := automatic_mends mem automatic
  exact ⟨_, mends.apply_eq n⟩

/-- **The loop has an outcome**, and takes its turns until it stops with it. -/
theorem autoBy_runs (read : Python.Reader) (counter : Nat) (code : String) (language : Language) :
    ∃ o, autoBy read counter code language = .ok o ∧
      Runs (proposalsBy read language) (acceptsBy read (isValidBy read code language) language)
        autoLimit ⟨code, [], [], counter⟩ o := by
  obtain ⟨o, ran, run⟩ := autoWithin_runs
    (acceptsBy read (isValidBy read code language) language)
    (fun _ _ => exists_apply_of_automatic) autoLimit ⟨code, [], [], counter⟩ (Nat.zero_add autoLimit)
  exact ⟨o, ran, run⟩

/-- The outcome is the one in which the turns end. -/
theorem autoBy_eq_ok_iff {counter : Nat} {code : String} {o : AutoOutcome} :
    autoBy read counter code language = .ok o ↔
      Runs (proposalsBy read language) (acceptsBy read (isValidBy read code language) language)
        autoLimit ⟨code, [], [], counter⟩ o := by
  obtain ⟨o', ran, run⟩ := autoBy_runs read counter code language
  constructor
  · intro h
    rw [ran] at h
    cases h
    exact run
  · intro h
    rw [ran, run.unique h]

/-! ### Weights along a run -/

/-- A text that is changed by a fix loses weight. -/
theorem textWeight_lt_of_next? {m : AutoOutcome} {f : Fix} {fixed : String}
    (next : next? (proposalsBy read language) m = some f) (applied : apply m.code f = .ok fixed)
    (changed : fixed ≠ m.code) : textWeight language fixed < textWeight language m.code := by
  obtain ⟨p, mem, n, rfl, automatic, -⟩ := exists_of_next? next
  obtain ⟨pre, post, mends⟩ := automatic_mends mem automatic
  refine mends.textWeight_lt ?_ applied
  intro empty
  rw [empty] at mends applied changed
  exact changed (mends.eq_empty applied)

/-- **Each fix that was applied is paid for by a loss of weight.** -/
theorem applied_length_add_textWeight_le {most : Nat} {code : String} {counter : Nat}
    {o : AutoOutcome}
    (run : Runs (proposalsBy read language) accepts most ⟨code, [], [], counter⟩ o) :
    o.applied.length + textWeight language o.code ≤ textWeight language code := by
  refine run.invariant (I := fun m =>
    m.applied.length + textWeight language m.code ≤ textWeight language code) ?_ ?_ ?_
  · exact Nat.le_of_eq (Nat.zero_add _)
  · intro m m' turn paid
    cases turn with
    | accept next applied accepted changed =>
      have loss := textWeight_lt_of_next? next applied changed
      simp only [List.length_append, List.length_singleton]
      omega
    | reject => exact paid
  · exact fun _ paid => paid

/-- **Few fixes are applied**, in proportion to the number of lines. -/
theorem applied_length_le {counter : Nat} {code : String} {o : AutoOutcome}
    (ran : autoBy read counter code language = .ok o) :
    o.applied.length ≤ fixesPerLine language * (lines code).length := by
  calc o.applied.length
      ≤ o.applied.length + textWeight language o.code := Nat.le_add_right _ _
    _ ≤ textWeight language code := applied_length_add_textWeight_le (autoBy_eq_ok_iff.mp ran)
    _ ≤ fixesPerLine language * (lines code).length := textWeight_le language code

/-! ### Where the loop stops -/

/-- A fix that changes nothing is proposed for the empty text only. -/
theorem eq_empty_of_next? {m : AutoOutcome} {f : Fix}
    (next : next? (proposalsBy read language) m = some f)
    (applied : apply m.code f = .ok m.code) : m.code = "" := by
  obtain ⟨p, mem, n, rfl, automatic, -⟩ := exists_of_next? next
  obtain ⟨pre, post, mends⟩ := automatic_mends mem automatic
  by_contra nonempty
  exact Nat.lt_irrefl _ (mends.textWeight_lt nonempty applied)

/-- **Unless there were too many fixes, nothing is left to be tried**, or the text is empty. -/
theorem closed_or_empty {most : Nat} {m o : AutoOutcome}
    (run : Runs (proposalsBy read language) accepts most m o) (room : o.applied.length < most) :
    Closed o.rejected (proposalsBy read language o.code) ∨ o.code = "" := by
  obtain ⟨last, -, stops⟩ := run
  cases stops with
  | full used => exact absurd room (Nat.not_lt.mpr used)
  | settled _ none => exact .inl (next?_eq_none_iff (m := last).mp none)
  | idle _ next applied _ => exact .inr (eq_empty_of_next? (m := last) next applied)

end Outcome

/-! ### What holds of every outcome -/

/-- **Applying fixes reaches a fixed point, up to rejections.** There always is an outcome. Unless as
many fixes were applied as may be, whatever could still be applied without being asked for is like a
fix that was rejected; and if none was rejected, applying fixes once more changes nothing. -/
theorem auto_fixpoint (read : Python.Reader) (unimported : (read.outline "").imports = [])
    (counter : Nat) (code : String) (language : Language) :
    ∃ o, autoBy read counter code language = .ok o ∧
      (o.applied.length < autoLimit →
        ∀ n, ∀ f ∈ (generateBy read n o.code language).1, f.automatic = true →
          ∃ r ∈ o.rejected, r.title = f.title ∧ r.before = f.before) ∧
      (o.applied.length < autoLimit → o.rejected = [] →
        ∀ n, ∃ again, autoBy read n o.code language = .ok again ∧
          again.code = o.code ∧ again.applied = [] ∧ again.rejected = []) := by
  obtain ⟨o, ran, run⟩ := autoBy_runs read counter code language
  have closed (room : o.applied.length < autoLimit) :
      Closed o.rejected (proposalsBy read language o.code) := by
    rcases closed_or_empty run room with closed | empty
    · exact closed
    · intro p mem automatic
      rw [empty] at mem
      rw [automatic_of_mem_empty unimported mem] at automatic
      cases automatic
  refine ⟨o, ran, ?_, ?_⟩
  · intro room n f numbered automatic
    obtain ⟨p, mem, k, rfl⟩ := exists_of_mem_numbered numbered
    exact (isRejected_iff k).mp (closed room p mem automatic)
  · intro room none n
    obtain ⟨again, reran, rerun⟩ := autoBy_runs read n o.code language
    have still := closed room
    rw [none] at still
    exact ⟨again, reran, rerun.same_of_closed still⟩

theorem auto_fixpoint_of_import_and_comparison :
    (Python.Reader.outline Python.readTree "").imports = [] ∧
      ∃ o, auto 0 "import os\nif x == None: \n    pass" .python = .ok o ∧
        ∀ n, ∀ f ∈ (generate n o.code .python).1, f.automatic = true →
          ∃ r ∈ o.rejected, r.title = f.title ∧ r.before = f.before := by
  have unimported : (Python.Reader.outline Python.readTree "").imports = [] := by decide
  obtain ⟨o, ran, settled, -⟩ := auto_fixpoint Python.readTree unimported 0
    "import os\nif x == None: \n    pass" .python
  have room : o.applied.length < autoLimit := Nat.lt_of_le_of_lt (applied_length_le ran) (by decide)
  exact ⟨unimported, o, ran, settled room⟩

/-- **The outcome is a faithful report.** Replaying the fixes that were applied gives the text. If the
text was not well formed to begin with, nothing was rejected. Otherwise every text on the way is well
formed, and every fix that was rejected was proposed for one of them and broke it; no two of these
fixes have the same title for the same lines. -/
theorem auto_faithful (read : Python.Reader) (counter : Nat) (code : String) (language : Language) :
    ∃ o, autoBy read counter code language = .ok o ∧
      replay code o.applied = .ok o.code ∧ (o.applied = [] → o.code = code) ∧
      (isValidBy read code language = false → o.rejected = []) ∧
      (isValidBy read code language = true →
        (∀ t, OnTheWay code o.applied t → isValidBy read t language = true) ∧
        isValidBy read o.code language = true ∧
        (∀ f ∈ o.rejected, ∃ t, OnTheWay code o.applied t ∧
          (∃ n, f ∈ (generateBy read n t language).1) ∧ f.automatic = true ∧
          ∃ broken, apply t f = .ok broken ∧ isValidBy read broken language = false) ∧
        (o.rejected.map fun f => (f.title, f.before)).Nodup) := by
  obtain ⟨o, ran, run⟩ := autoBy_runs read counter code language
  have log := run.faithful
  refine ⟨o, ran, log.replayed, ?_, ?_, ?_⟩
  · intro none
    have replayed := log.replayed
    rw [none, replay_nil] at replayed
    cases replayed
    rfl
  · intro invalid
    rw [List.eq_nil_iff_forall_not_mem]
    intro f mem
    obtain ⟨t, -, -, -, broken, -, refused⟩ := log.broke f mem
    rw [acceptsBy, invalid] at refused
    cases refused
  · intro valid
    have accepts (t : String) :
        acceptsBy read (isValidBy read code language) language t = isValidBy read t language := by
      rw [acceptsBy, valid]
      rfl
    have wellFormed : ∀ t, OnTheWay code o.applied t → isValidBy read t language = true := by
      intro t way
      rcases log.accepted t way with rfl | accepted
      · exact valid
      · rw [← accepts]
        exact accepted
    refine ⟨wellFormed, wellFormed o.code (.of_replay log.replayed), ?_, ?_⟩
    · intro f mem
      obtain ⟨t, way, proposed, automatic, broken, applied, refused⟩ := log.broke f mem
      rw [accepts] at refused
      exact ⟨t, way, proposed, automatic, broken, applied, refused⟩
    · rw [List.nodup_iff_pairwise_ne, List.pairwise_map]
      refine log.distinct.imp fun different same => different ?_
      exact Prod.mk.inj same

/-- **Applying fixes removes every bug**, provided that none was rejected and that there were not too
many. -/
theorem auto_removes_bugs (read : Python.Reader) (counter : Nat) (code : String)
    (language : Language) :
    ∃ o, autoBy read counter code language = .ok o ∧
      (o.rejected = [] → o.applied.length < autoLimit → bugs o.code language = []) := by
  obtain ⟨o, ran, run⟩ := autoBy_runs read counter code language
  refine ⟨o, ran, ?_⟩
  intro none room
  rcases closed_or_empty run room with closed | empty
  · rw [bugs_eq_nil_iff]
    intro line mem b known
    rw [Bool.eq_false_iff]
    intro found
    obtain ⟨p, mem, automatic⟩ := exists_automatic_of_bug read mem known found
    have rejected := closed p mem automatic
    rw [none] at rejected
    cases rejected
  · rw [empty]
    exact bugs_empty language

example : (auto 0 "if (a == 1) go();" .javascript).map AutoOutcome.code =
    .ok "if (a === 1) go();" := by
  rfl

/-- **Applying fixes comes to an end soon.** However Python is read and whatever is accepted, the loop
takes only finitely many turns. It ends with the outcome, after at most four fixes for each line in
Python, one in JavaScript and TypeScript, and none in the other languages; so a Python text of fewer
than 2500 lines never meets the limit. -/
theorem auto_terminates (read : Python.Reader) (language : Language) :
    (∀ accepts, WellFounded fun m' m => Turn (proposalsBy read language) accepts m m') ∧
      ∀ counter code, ∃ o, autoBy read counter code language = .ok o ∧
        Runs (proposalsBy read language) (acceptsBy read (isValidBy read code language) language)
          autoLimit ⟨code, [], [], counter⟩ o ∧
        o.applied.length ≤ fixesPerLine language * (lines code).length ∧
        (language = .python → (lines code).length < 2500 → o.applied.length < autoLimit) := by
  refine ⟨fun accepts => wellFounded_turn (textWeight language) ?_, ?_⟩
  · exact fun _ _ _ next applied changed => textWeight_lt_of_next? next applied changed
  · intro counter code
    obtain ⟨o, ran, run⟩ := autoBy_runs read counter code language
    have bound := applied_length_le ran
    refine ⟨o, ran, run, bound, ?_⟩
    rintro rfl short
    have four : fixesPerLine .python = 4 := rfl
    rw [four] at bound
    rw [autoLimit]
    omega

end SnippetAudit.Fix
