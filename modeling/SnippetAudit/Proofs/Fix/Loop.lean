import Mathlib.Logic.Relation
import Mathlib.Order.WellFounded
import SnippetAudit.Fix.Auto

/-!
The loop that applies fixes, turn by turn.

The state of the loop is what would be its outcome if it stopped now. In a turn (`Turn`) all
proposals are made anew, and the first that is neither manual nor rejected before is applied, or
rejected if the result is not acceptable. The loop stops (`Stops`) when no more fixes may be applied,
when there is no such proposal, or when it would change nothing.

`autoWithin` does not make the proposals anew after a rejection, but it takes the very same turns
(`autoWithin_runs`), provided that every proposal can be applied, and they end in one outcome only
(`Runs.unique`). Whatever is proposed and accepted, there are only finitely many turns as long as
every fix that is applied makes something smaller (`wellFounded_turn`): a proposal that is rejected
is never looked at again.
-/

namespace SnippetAudit.Fix

open Relation

/-- Fixes with the same title for the same lines. -/
def Alike (f g : Fix) : Prop := f.title = g.title ∧ f.before = g.before

instance : DecidableRel Alike := fun _ _ => inferInstanceAs (Decidable (_ ∧ _))

/-- Whether a fix may be applied without being asked for and is like none that was rejected. -/
def isOpen (rejected : List Fix) (f : Fix) : Bool := f.automatic && !rejected.any (Alike · f)

theorem isRejected_iff {rejected : List Fix} {p : Proposal} (n : Nat) :
    isRejected rejected p = true ↔ ∃ r ∈ rejected, Alike r (p.toFix n) := by
  simp [isRejected, Alike, Proposal.toFix]

/-- The number of a fix has no say in whether it was rejected before. -/
theorem isOpen_toFix (rejected : List Fix) (p : Proposal) (n : Nat) :
    isOpen rejected (p.toFix n) = (p.automatic && !isRejected rejected p) := by
  have known : rejected.any (Alike · (p.toFix n)) = isRejected rejected p := by
    rw [Bool.eq_iff_iff, isRejected_iff n, List.any_eq_true]
    simp only [decide_eq_true_eq]
  rw [isOpen, known]
  rfl

theorem isRejected_append {rejected fs : List Fix} {p : Proposal}
    (h : isRejected rejected p = true) : isRejected (rejected ++ fs) p = true := by
  rw [isRejected, List.any_append, Bool.or_eq_true]
  exact .inl h

/-- A proposal is known from the moment it is rejected. -/
theorem isRejected_append_toFix (rejected : List Fix) (p : Proposal) (n : Nat) :
    isRejected (rejected ++ [p.toFix n]) p = true :=
  (isRejected_iff n).mpr ⟨p.toFix n, by simp, rfl, rfl⟩

/-- None of some proposals may be tried any more. -/
def Closed (rejected : List Fix) (ps : List Proposal) : Prop :=
  ∀ p ∈ ps, p.automatic = true → isRejected rejected p = true

theorem Closed.append {rejected fs : List Fix} {ps : List Proposal} (h : Closed rejected ps) :
    Closed (rejected ++ fs) ps :=
  fun p mem automatic => isRejected_append (h p mem automatic)

theorem Closed.concat {rejected : List Fix} {ps : List Proposal} {p : Proposal}
    (h : Closed rejected ps) (last : p.automatic = true → isRejected rejected p = true) :
    Closed rejected (ps ++ [p]) := by
  intro q mem automatic
  rcases List.mem_append.mp mem with mem | mem
  · exact h q mem automatic
  · rw [List.mem_singleton.mp mem] at automatic ⊢
    exact last automatic

/-! ### Numbers -/

theorem numbered_append (counter : Nat) (ps qs : List Proposal) :
    Proposal.numbered counter (ps ++ qs) =
      Proposal.numbered counter ps ++ Proposal.numbered (counter + ps.length) qs := by
  induction ps generalizing counter with
  | nil => rfl
  | cons p ps ih =>
    have shift : counter + 1 + ps.length = counter + (p :: ps).length := by
      rw [List.length_cons]
      omega
    rw [List.cons_append, Proposal.numbered, Proposal.numbered, ih, shift, List.cons_append]

/-- A fix that has a number is a proposal with some number. -/
theorem exists_of_mem_numbered {counter : Nat} {ps : List Proposal} {f : Fix}
    (mem : f ∈ Proposal.numbered counter ps) : ∃ p ∈ ps, ∃ n, f = p.toFix n := by
  induction ps generalizing counter with
  | nil => cases mem
  | cons p ps ih =>
    rcases List.mem_cons.mp mem with rfl | mem
    · exact ⟨p, List.mem_cons_self, counter + 1, rfl⟩
    · obtain ⟨q, hq, n, same⟩ := ih mem
      exact ⟨q, List.mem_cons_of_mem _ hq, n, same⟩

/-- Every proposal gets a number. -/
theorem exists_mem_numbered (counter : Nat) {ps : List Proposal} {p : Proposal} (mem : p ∈ ps) :
    ∃ n, p.toFix n ∈ Proposal.numbered counter ps := by
  obtain ⟨front, rest, rfl⟩ := List.append_of_mem mem
  refine ⟨counter + front.length + 1, ?_⟩
  rw [numbered_append, Proposal.numbered]
  simp

/-! ### Turns -/

section Turn

variable (propose : String → List Proposal) (accepts : String → Bool)

/-- The fix that is tried next. -/
def next? (m : AutoOutcome) : Option Fix :=
  (Proposal.numbered m.counter (propose m.code)).find? (isOpen m.rejected)

/-- The number of the last proposal after another turn. -/
def advance (m : AutoOutcome) : Nat := m.counter + (propose m.code).length

/-- One turn of the loop. -/
inductive Turn (m : AutoOutcome) : AutoOutcome → Prop where
  | accept {f : Fix} {fixed : String} : next? propose m = some f → apply m.code f = .ok fixed →
      accepts fixed = true → fixed ≠ m.code →
      Turn m ⟨fixed, m.applied ++ [f], m.rejected, advance propose m⟩
  | reject {f : Fix} {broken : String} : next? propose m = some f → apply m.code f = .ok broken →
      accepts broken = false →
      Turn m ⟨m.code, m.applied, m.rejected ++ [f], advance propose m⟩

/-- A turn that is taken as long as fewer than `most` fixes were applied. -/
def TurnWithin (most : Nat) (m m' : AutoOutcome) : Prop :=
  m.applied.length < most ∧ Turn propose accepts m m'

/-- Where the loop stops, and with what outcome. -/
inductive Stops (most : Nat) (m : AutoOutcome) : AutoOutcome → Prop where
  | full : most ≤ m.applied.length → Stops most m m
  | settled : m.applied.length < most → next? propose m = none →
      Stops most m { m with counter := advance propose m }
  | idle {f : Fix} : m.applied.length < most → next? propose m = some f →
      apply m.code f = .ok m.code → accepts m.code = true →
      Stops most m { m with counter := advance propose m }

/-- The whole loop: turns are taken until it stops. -/
def Runs (most : Nat) (m o : AutoOutcome) : Prop :=
  ∃ last, ReflTransGen (TurnWithin propose accepts most) m last ∧
    Stops propose accepts most last o

end Turn

section Run

variable {propose : String → List Proposal} {accepts : String → Bool}

/-- The fix that is tried is one of the proposals. -/
theorem exists_of_next? {m : AutoOutcome} {f : Fix} (next : next? propose m = some f) :
    ∃ p ∈ propose m.code, ∃ n, f = p.toFix n ∧ p.automatic = true ∧
      isRejected m.rejected p = false := by
  obtain ⟨p, mem, n, rfl⟩ := exists_of_mem_numbered (List.mem_of_find?_eq_some next)
  have chosen := List.find?_some next
  rw [isOpen_toFix, Bool.and_eq_true, Bool.not_eq_true'] at chosen
  exact ⟨p, mem, n, rfl, chosen⟩

theorem isOpen_of_next? {m : AutoOutcome} {f : Fix} (next : next? propose m = some f) :
    f.automatic = true ∧ ∀ r ∈ m.rejected, ¬ Alike r f := by
  have chosen := List.find?_some next
  rw [isOpen, Bool.and_eq_true, Bool.not_eq_true', List.any_eq_false] at chosen
  exact ⟨chosen.1, fun r mem alike => chosen.2 r mem (decide_eq_true alike)⟩

theorem find?_isOpen_eq_none_iff {counter : Nat} {rejected : List Fix} {ps : List Proposal} :
    (Proposal.numbered counter ps).find? (isOpen rejected) = none ↔ Closed rejected ps := by
  rw [List.find?_eq_none]
  constructor
  · intro closed p mem automatic
    obtain ⟨n, numbered⟩ := exists_mem_numbered counter mem
    have closed := closed _ numbered
    rw [isOpen_toFix, automatic, Bool.true_and, Bool.not_eq_true', Bool.not_eq_false] at closed
    exact closed
  · intro known f numbered
    obtain ⟨p, mem, n, rfl⟩ := exists_of_mem_numbered numbered
    rw [isOpen_toFix, Bool.and_eq_true, Bool.not_eq_true']
    rintro ⟨automatic, fresh⟩
    rw [known p mem automatic] at fresh
    cases fresh

/-- Nothing is tried any more exactly if all that could be was rejected. -/
theorem next?_eq_none_iff {m : AutoOutcome} :
    next? propose m = none ↔ Closed m.rejected (propose m.code) :=
  find?_isOpen_eq_none_iff

/-- What is tried next stands behind the proposals that are passed over. -/
theorem next?_eq_some {m : AutoOutcome} {front rest : List Proposal} {p : Proposal}
    (all : propose m.code = front ++ p :: rest)
    (passed : Closed m.rejected front)
    (automatic : p.automatic = true) (fresh : isRejected m.rejected p = false) :
    next? propose m = some (p.toFix (m.counter + front.length + 1)) := by
  have earlier : (Proposal.numbered m.counter front).find? (isOpen m.rejected) = none :=
    find?_isOpen_eq_none_iff.mpr passed
  have chosen : isOpen m.rejected (p.toFix (m.counter + front.length + 1)) = true := by
    rw [isOpen_toFix, automatic, fresh]
    rfl
  rw [next?, all, numbered_append, List.find?_append, earlier, Option.none_or, Proposal.numbered,
    List.find?_cons_of_pos chosen]

/-! ### Termination -/

/-- How many proposals may still be tried. -/
def untried (propose : String → List Proposal) (m : AutoOutcome) : Nat :=
  (propose m.code).countP fun p => p.automatic && !isRejected m.rejected p

/-- What is rejected is never tried again. -/
theorem untried_lt {m m' : AutoOutcome} {f : Fix} (next : next? propose m = some f)
    (code : m'.code = m.code) (rejected : m'.rejected = m.rejected ++ [f]) :
    untried propose m' < untried propose m := by
  obtain ⟨p, mem, n, rfl, automatic, before⟩ := exists_of_next? next
  have after : isRejected m'.rejected p = true := by
    rw [rejected]
    exact isRejected_append_toFix m.rejected p n
  have fewer : ∀ q : Proposal, (q.automatic && !isRejected m'.rejected q) = true →
      (q.automatic && !isRejected m.rejected q) = true := by
    intro q
    simp only [isRejected, rejected, List.any_append, Bool.and_eq_true, Bool.not_eq_true',
      Bool.or_eq_false_iff]
    exact fun h => ⟨h.1, h.2.1⟩
  obtain ⟨front, rest, split⟩ := List.append_of_mem mem
  have lower := List.countP_mono_left fun q (_ : q ∈ front) => fewer q
  have upper := List.countP_mono_left fun q (_ : q ∈ rest) => fewer q
  rw [untried, untried, code, split, List.countP_append, List.countP_append,
    List.countP_cons_of_neg (by simp [after]), List.countP_cons_of_pos (by simp [automatic, before])]
  omega

/-- **There are only finitely many turns**, provided that every fix that is applied makes something
smaller. -/
theorem wellFounded_turn (size : String → Nat)
    (smaller : ∀ m f fixed, next? propose m = some f → apply m.code f = .ok fixed →
      fixed ≠ m.code → size fixed < size m.code) :
    WellFounded fun m' m => Turn propose accepts m m' := by
  refine Subrelation.wf (r := InvImage (Prod.Lex (· < ·) (· < ·))
    fun m : AutoOutcome => (size m.code, untried propose m)) ?_
    (InvImage.wf _ (Prod.lex Nat.lt_wfRel Nat.lt_wfRel).wf)
  intro m' m turn
  cases turn with
  | accept next applied accepted changed =>
    exact Prod.Lex.left _ _ (smaller m _ _ next applied changed)
  | reject next applied refused =>
    exact Prod.Lex.right _ (untried_lt next rfl rfl)

/-! ### Runs -/

/-- A run may begin with any number of turns. -/
theorem Runs.head {most : Nat} {m m' o : AutoOutcome}
    (turns : ReflTransGen (TurnWithin propose accepts most) m m')
    (run : Runs propose accepts most m' o) : Runs propose accepts most m o := by
  obtain ⟨last, more, stops⟩ := run
  exact ⟨last, turns.trans more, stops⟩

/-- Stopping changes nothing but the number. -/
theorem Stops.same {most : Nat} {m o : AutoOutcome} (stops : Stops propose accepts most m o) :
    o.code = m.code ∧ o.applied = m.applied ∧ o.rejected = m.rejected := by
  cases stops <;> exact ⟨rfl, rfl, rfl⟩

/-- Where nothing may be tried any more, a run changes nothing. -/
theorem Runs.same_of_closed {most : Nat} {m o : AutoOutcome} (run : Runs propose accepts most m o)
    (closed : Closed m.rejected (propose m.code)) :
    o.code = m.code ∧ o.applied = m.applied ∧ o.rejected = m.rejected := by
  obtain ⟨last, turns, stops⟩ := run
  rcases ReflTransGen.cases_head turns with rfl | ⟨m', ⟨-, turn⟩, -⟩
  · exact stops.same
  · have idle := next?_eq_none_iff.mpr closed
    cases turn with
    | accept next => rw [idle] at next; cases next
    | reject next => rw [idle] at next; cases next

/-- **What every turn keeps holds at the end of a run**, if it is kept when the proposals of the last
turn are counted. -/
theorem Runs.preserves {I : AutoOutcome → Prop} {most : Nat} {m o : AutoOutcome}
    (run : Runs propose accepts most m o) (start : I m)
    (turn : ∀ {m m'}, Turn propose accepts m m' → I m → I m')
    (stop : ∀ {m}, I m → I { m with counter := advance propose m }) : I o := by
  obtain ⟨last, turns, stops⟩ := run
  have holds : I last := by
    clear stops
    induction turns with
    | refl => exact start
    | tail _ step ih => exact turn step.2 ih
  cases stops with
  | full => exact holds
  | settled => exact stop holds
  | idle => exact stop holds

/-- What every turn keeps holds at the end of a run, if numbers do not matter for it. -/
theorem Runs.invariant {I : AutoOutcome → Prop} {most : Nat} {m o : AutoOutcome}
    (run : Runs propose accepts most m o) (start : I m)
    (turn : ∀ {m m'}, Turn propose accepts m m' → I m → I m')
    (renumber : ∀ {m} n, I m → I { m with counter := n }) : I o :=
  run.preserves start turn fun holds => renumber _ holds

/-- No more fixes are applied than may be. -/
theorem Runs.length_applied_le {most : Nat} {m o : AutoOutcome}
    (run : Runs propose accepts most m o) (room : m.applied.length ≤ most) :
    o.applied.length ≤ most := by
  obtain ⟨last, turns, stops⟩ := run
  rw [stops.same.2.1]
  clear stops
  induction turns with
  | refl => exact room
  | tail _ step ih =>
    obtain ⟨more, turn⟩ := step
    cases turn with
    | accept =>
      rw [List.length_append, List.length_singleton]
      exact more
    | reject => exact ih

/-! ### Uniqueness -/

/-- A turn goes by what the next fix makes of the text. -/
theorem Turn.result {m m' : AutoOutcome} (turn : Turn propose accepts m m') :
    ∃ f fixed, next? propose m = some f ∧ apply m.code f = .ok fixed ∧
      (accepts fixed = true → fixed ≠ m.code) ∧
      m' = if accepts fixed = true then ⟨fixed, m.applied ++ [f], m.rejected, advance propose m⟩
        else ⟨m.code, m.applied, m.rejected ++ [f], advance propose m⟩ := by
  cases turn with
  | accept next applied accepted changed =>
    exact ⟨_, _, next, applied, fun _ => changed, (if_pos accepted).symm⟩
  | reject next applied refused =>
    have refused := Bool.eq_false_iff.mp refused
    exact ⟨_, _, next, applied, fun accepted => absurd accepted refused, (if_neg refused).symm⟩

theorem Turn.unique {m a b : AutoOutcome} (first : Turn propose accepts m a)
    (second : Turn propose accepts m b) : a = b := by
  obtain ⟨f, fixed, next, applied, -, rfl⟩ := first.result
  obtain ⟨f', fixed', next', applied', -, rfl⟩ := second.result
  rw [next] at next'
  cases next'
  rw [applied] at applied'
  cases applied'
  rfl

/-- Where the loop stops, no turn is left to be taken. -/
theorem Stops.not_turn {most : Nat} {m o m' : AutoOutcome} (stops : Stops propose accepts most m o)
    (step : TurnWithin propose accepts most m m') : False := by
  obtain ⟨room, turn⟩ := step
  obtain ⟨f, fixed, next, applied, changed, -⟩ := turn.result
  cases stops with
  | full used => exact Nat.not_lt.mpr used room
  | settled _ closed =>
    rw [next] at closed
    cases closed
  | idle _ next' applied' accepted =>
    rw [next] at next'
    cases next'
    rw [applied] at applied'
    cases applied'
    exact changed accepted rfl

theorem Stops.unique {most : Nat} {m a b : AutoOutcome} (first : Stops propose accepts most m a)
    (second : Stops propose accepts most m b) : a = b := by
  cases first with
  | full used =>
    cases second with
    | full => rfl
    | settled room => exact absurd room (Nat.not_lt.mpr used)
    | idle room => exact absurd room (Nat.not_lt.mpr used)
  | settled room =>
    cases second with
    | full used => exact absurd room (Nat.not_lt.mpr used)
    | settled => rfl
    | idle => rfl
  | idle room =>
    cases second with
    | full used => exact absurd room (Nat.not_lt.mpr used)
    | settled => rfl
    | idle => rfl

/-- **A run has one outcome only.** -/
theorem Runs.unique {most : Nat} {m a b : AutoOutcome} (first : Runs propose accepts most m a)
    (second : Runs propose accepts most m b) : a = b := by
  obtain ⟨last, turns, stops⟩ := first
  obtain ⟨last', turns', stops'⟩ := second
  have same : last = last' := by
    induction turns using ReflTransGen.head_induction_on with
    | refl =>
      rcases ReflTransGen.cases_head turns' with same | ⟨m', step, -⟩
      · exact same
      · exact (stops.not_turn step).elim
    | head step _ ih =>
      rcases ReflTransGen.cases_head turns' with rfl | ⟨m', step', rest⟩
      · exact (stops'.not_turn step).elim
      · rw [step.2.unique step'.2] at ih
        exact ih rest
  rw [same] at stops
  exact stops.unique stops'

/-! ### The turns that are taken -/

/-- What a trial comes to in the terms of the loop. -/
inductive Tries (propose : String → List Proposal) (accepts : String → Bool) (most : Nat)
    (m : AutoOutcome) : Trial → Prop where
  | stopped {rejected : List Fix} {counter : Nat} :
      Runs propose accepts most m ⟨m.code, m.applied, rejected, counter⟩ →
      Tries propose accepts most m ⟨none, rejected, counter⟩
  | applied {f : Fix} {fixed : String} {rejected : List Fix} {counter : Nat} :
      ReflTransGen (TurnWithin propose accepts most) m ⟨fixed, m.applied ++ [f], rejected, counter⟩ →
      Tries propose accepts most m ⟨some (f, fixed), rejected, counter⟩

/-- A trial goes on after a rejection. -/
theorem Tries.head {most : Nat} {m : AutoOutcome} {rejected : List Fix} {counter : Nat}
    {trial : Trial}
    (turn : TurnWithin propose accepts most m ⟨m.code, m.applied, rejected, counter⟩)
    (tries : Tries propose accepts most ⟨m.code, m.applied, rejected, counter⟩ trial) :
    Tries propose accepts most m trial := by
  cases tries with
  | stopped run => exact .stopped (run.head (.single turn))
  | applied turns => exact .applied (.head turn turns)

section Follow

variable (accepts) (applies : ∀ code, ∀ p ∈ propose code, p.automatic = true →
  ∀ n, ∃ fixed, apply code (p.toFix n) = .ok fixed)

include applies

/-- One pass over the proposals takes the turns of the loop for one text. -/
theorem tryEach_tries {most : Nat} {code : String} {applied : List Fix}
    (room : applied.length < most) (rest : List Proposal) :
    ∀ (front : List Proposal) (counter : Nat) (rejected : List Fix),
      propose code = front ++ rest →
      Closed rejected front →
      ∃ trial,
        tryEach accepts code (propose code).length counter front.length rejected rest = .ok trial ∧
          Tries propose accepts most ⟨code, applied, rejected, counter⟩ trial := by
  induction rest with
  | nil =>
    intro front counter rejected all passed
    refine ⟨_, rfl, .stopped ⟨_, .refl, .settled room ?_⟩⟩
    rw [next?_eq_none_iff]
    rw [List.append_nil] at all
    exact fun p mem => passed p (all ▸ mem)
  | cons p rest ih =>
    intro front counter rejected all passed
    have shifted : propose code = (front ++ [p]) ++ rest := by simpa using all
    have further : (front ++ [p]).length = front.length + 1 := by simp
    rw [tryEach]
    split
    next skipped =>
      -- A proposal that is passed over takes no turn.
      have passed' : Closed rejected (front ++ [p]) :=
        passed.concat fun automatic => by simpa [automatic] using skipped
      have tries := ih (front ++ [p]) counter rejected shifted passed'
      rwa [further] at tries
    next tried =>
      rw [Bool.or_eq_true, Bool.not_eq_true', not_or, Bool.not_eq_false,
        Bool.not_eq_true] at tried
      obtain ⟨automatic, fresh⟩ := tried
      have mem : p ∈ propose code := by simp [all]
      obtain ⟨fixed, applied_eq⟩ := applies code p mem automatic (counter + front.length + 1)
      have next : next? propose ⟨code, applied, rejected, counter⟩ =
          some (p.toFix (counter + front.length + 1)) :=
        next?_eq_some (m := ⟨code, applied, rejected, counter⟩) all passed automatic fresh
      simp only [applied_eq]
      split
      next refused =>
        have passed' : Closed (rejected ++ [p.toFix (counter + front.length + 1)]) (front ++ [p]) :=
          passed.append.concat fun _ => isRejected_append_toFix rejected p _
        have tries := ih (front ++ [p]) (counter + (propose code).length)
          (rejected ++ [p.toFix (counter + front.length + 1)]) shifted passed'
        rw [further] at tries
        obtain ⟨trial, found, tries⟩ := tries
        refine ⟨trial, found, tries.head ⟨room, .reject next applied_eq ?_⟩⟩
        simpa using refused
      next accepted =>
        rw [Bool.not_eq_true', Bool.not_eq_false] at accepted
        split
        next same =>
          rw [same] at applied_eq accepted
          exact ⟨_, rfl, .stopped ⟨_, .refl, .idle room next applied_eq accepted⟩⟩
        next changed =>
          exact ⟨_, rfl, .applied (.single ⟨room, .accept next applied_eq accepted changed⟩)⟩

/-- **The loop takes its turns until it stops.** -/
theorem autoWithin_runs {most : Nat} (left : Nat) :
    ∀ m : AutoOutcome, m.applied.length + left = most →
      ∃ o, autoWithin propose accepts left m.counter m.rejected m.code = .ok o ∧
        Runs propose accepts most m ⟨o.code, m.applied ++ o.applied, o.rejected, o.counter⟩ := by
  induction left with
  | zero =>
    intro m used
    refine ⟨_, rfl, m, .refl, ?_⟩
    rw [List.append_nil]
    exact .full (Nat.le_of_eq used.symm)
  | succ left ih =>
    intro m used
    have room : m.applied.length < most := by omega
    obtain ⟨trial, found, tries⟩ := tryEach_tries accepts applies room
      (propose m.code) [] m.counter m.rejected rfl (fun p mem => by cases mem)
    rw [autoWithin]
    simp only [List.length_nil] at found
    rw [found]
    cases tries with
    | stopped run =>
      refine ⟨_, rfl, ?_⟩
      rw [List.append_nil]
      exact run
    | @applied f fixed rejected counter turns =>
      obtain ⟨o, rest, run⟩ := ih ⟨fixed, m.applied ++ [f], rejected, counter⟩
        (by simp only [List.length_append, List.length_singleton]; omega)
      refine ⟨{ o with applied := f :: o.applied }, ?_, ?_⟩
      · simp only [bind, Except.bind, rest]
      · rw [List.append_assoc] at run
        exact run.head turns

end Follow

end Run

end SnippetAudit.Fix
