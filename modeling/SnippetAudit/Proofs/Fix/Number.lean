import SnippetAudit.Proofs.Fix.Auto

/-!
The numbers of fixes.

A run of the loop does not depend on the number that it starts with, except that all numbers in its
outcome are shifted (`autoBy_add`): whether a fix was rejected before, and what it does to a text, has
nothing to do with its number. What is applied has ascending numbers, and so has what is rejected; no
number occurs twice, and all lie behind the one that the run started with (`numbered_autoBy`). Since
the proposals are made anew in each turn, many numbers are left out.
-/

namespace SnippetAudit

/-! ### Reading numbers -/

/-- The number in an identifier. -/
def Proposal.numberOf (id : String) : Nat := Nat.ofDigitChars 10 (id.toList.drop 4) 0

namespace Fix

/-- The number of a fix. -/
def number (f : Fix) : Nat := Proposal.numberOf f.id

/-- A fix with a number that is greater by a given one. -/
def renumbered (c : Nat) (f : Fix) : Fix := { f with id := Proposal.idOf (f.number + c) }

/-- Whether the identifier of a fix is that of its number. -/
def Named (f : Fix) : Prop := f.id = Proposal.idOf f.number

end Fix

namespace Proposal

theorem numberOf_idOf (n : Nat) : numberOf (idOf n) = n := by
  have digits : (toString n).toList = Nat.toDigits 10 n := by
    rw [Nat.toString_eq_ofList_toDigits, String.toList_ofList]
  rw [numberOf, idOf, String.toList_append, digits]
  exact Nat.ofDigitChars_ten_toDigits

theorem number_toFix (p : Proposal) (n : Nat) : (p.toFix n).number = n := numberOf_idOf n

theorem named_toFix (p : Proposal) (n : Nat) : (p.toFix n).Named := by
  rw [Fix.Named, number_toFix]
  rfl

theorem renumbered_toFix (p : Proposal) (n c : Nat) :
    (p.toFix n).renumbered c = p.toFix (n + c) := by
  rw [Fix.renumbered, number_toFix]
  rfl

/-- The number to start with shifts all numbers. -/
theorem numbered_add (n c : Nat) (ps : List Proposal) :
    numbered (n + c) ps = (numbered n ps).map (Fix.renumbered c) := by
  induction ps generalizing n with
  | nil => rfl
  | cons p ps ih =>
    have next : n + c + 1 = n + 1 + c := by omega
    rw [numbered, numbered, List.map_cons, renumbered_toFix, next, ih]

theorem length_numbered (n : Nat) (ps : List Proposal) : (numbered n ps).length = ps.length := by
  induction ps generalizing n with
  | nil => rfl
  | cons p ps ih => rw [numbered, List.length_cons, List.length_cons, ih]

/-- Numbers are consecutive. -/
theorem number_mem_numbered {n : Nat} {ps : List Proposal} {f : Fix} (mem : f ∈ numbered n ps) :
    f.Named ∧ n < f.number ∧ f.number ≤ n + ps.length := by
  induction ps generalizing n with
  | nil => cases mem
  | cons p ps ih =>
    rw [List.length_cons]
    rcases List.mem_cons.mp mem with rfl | mem
    · rw [number_toFix]
      exact ⟨named_toFix p (n + 1), by omega, by omega⟩
    · obtain ⟨named, behind, last⟩ := ih mem
      exact ⟨named, by omega, by omega⟩

theorem pairwise_numbered (n : Nat) (ps : List Proposal) :
    (numbered n ps).Pairwise (fun f g => f.number < g.number) := by
  induction ps generalizing n with
  | nil => exact .nil
  | cons p ps ih =>
    refine .cons ?_ (ih (n + 1))
    intro f mem
    have later := (number_mem_numbered mem).2.1
    rw [number_toFix]
    exact later

end Proposal

namespace Fix

open Relation

/-! ### Shifted runs -/

/-- An outcome with all numbers greater by a given one. -/
def AutoOutcome.renumbered (c : Nat) (m : AutoOutcome) : AutoOutcome :=
  ⟨m.code, m.applied.map (Fix.renumbered c), m.rejected.map (Fix.renumbered c), m.counter + c⟩

section Shift

variable {propose : String → List Proposal} {accepts : String → Bool} {m m' o : AutoOutcome}
  (c : Nat)

theorem isOpen_renumbered (rejected : List Fix) (f : Fix) :
    isOpen (rejected.map (Fix.renumbered c)) (f.renumbered c) = isOpen rejected f := by
  rw [isOpen, List.any_map]
  rfl

theorem next?_renumbered (m : AutoOutcome) :
    next? propose (m.renumbered c) = (next? propose m).map (Fix.renumbered c) := by
  have same : isOpen (m.rejected.map (Fix.renumbered c)) ∘ Fix.renumbered c = isOpen m.rejected :=
    funext fun f => isOpen_renumbered c m.rejected f
  calc next? propose (m.renumbered c)
      = ((Proposal.numbered m.counter (propose m.code)).map (Fix.renumbered c)).find?
          (isOpen (m.rejected.map (Fix.renumbered c))) := by
        rw [← Proposal.numbered_add]
        rfl
    _ = (next? propose m).map (Fix.renumbered c) := by
        rw [List.find?_map, same]
        rfl

theorem advance_renumbered (m : AutoOutcome) :
    advance propose (m.renumbered c) = advance propose m + c := Nat.add_right_comm ..

/-- What a fix does to a text has nothing to do with its number. -/
theorem apply_renumbered (code : String) (f : Fix) :
    apply code (f.renumbered c) = apply code f := rfl

theorem Turn.renumbered (turn : Turn propose accepts m m') :
    Turn propose accepts (m.renumbered c) (m'.renumbered c) := by
  have tried {f : Fix} (next : next? propose m = some f) :
      next? propose (m.renumbered c) = some (f.renumbered c) := by
    rw [next?_renumbered, next, Option.map_some]
  cases turn with
  | @accept f fixed next applied accepted changed =>
    have applied := (apply_renumbered c m.code f).trans applied
    have turn : Turn propose accepts (m.renumbered c) _ :=
      .accept (tried next) applied accepted changed
    rw [advance_renumbered] at turn
    simp only [AutoOutcome.renumbered, List.map_append]
    exact turn
  | @reject f broken next applied refused =>
    have applied := (apply_renumbered c m.code f).trans applied
    have turn : Turn propose accepts (m.renumbered c) _ := .reject (tried next) applied refused
    rw [advance_renumbered] at turn
    simp only [AutoOutcome.renumbered, List.map_append]
    exact turn

theorem Stops.renumbered {most : Nat} (stops : Stops propose accepts most m o) :
    Stops propose accepts most (m.renumbered c) (o.renumbered c) := by
  have length : (m.renumbered c).applied.length = m.applied.length := List.length_map _
  have last : { m with counter := advance propose m }.renumbered c =
      { m.renumbered c with counter := advance propose (m.renumbered c) } := by
    rw [advance_renumbered]
    rfl
  cases stops with
  | full used => exact .full (length ▸ used)
  | settled room none =>
    rw [last]
    refine .settled (length ▸ room) ?_
    rw [next?_renumbered, none, Option.map_none]
  | @idle f room next applied accepted =>
    rw [last]
    refine .idle (f := f.renumbered c) (length ▸ room) ?_ applied accepted
    rw [next?_renumbered, next, Option.map_some]

/-- **Every run can be shifted.** -/
theorem Runs.renumbered {most : Nat} (run : Runs propose accepts most m o) :
    Runs propose accepts most (m.renumbered c) (o.renumbered c) := by
  obtain ⟨last, turns, stops⟩ := run
  refine ⟨last.renumbered c, ?_, stops.renumbered c⟩
  refine turns.lift (AutoOutcome.renumbered c) fun _ _ step => ⟨?_, step.2.renumbered c⟩
  exact Nat.lt_of_le_of_lt (Nat.le_of_eq (List.length_map _)) step.1

end Shift

/-- **The outcome does not depend on the number to start with**, up to the same shift of all
numbers. -/
theorem autoBy_add (read : Python.Reader) (n c : Nat) (code : String) (language : Language) :
    autoBy read (n + c) code language =
      (autoBy read n code language).map (AutoOutcome.renumbered c) := by
  obtain ⟨o, ran, run⟩ := autoBy_runs read n code language
  rw [ran, Except.map]
  exact autoBy_eq_ok_iff.mpr (run.renumbered c)

/-- A run that starts with a number counts its fixes like one that starts with zero. -/
theorem autoBy_counter {read : Python.Reader} {n : Nat} {code : String} {language : Language}
    {o : AutoOutcome} (ran : autoBy read n code language = .ok o) :
    ∃ first, autoBy read 0 code language = .ok first ∧ o.counter = n + first.counter := by
  obtain ⟨first, begun, -⟩ := autoBy_runs read 0 code language
  have shifted := autoBy_add read 0 n code language
  rw [Nat.zero_add, begun] at shifted
  rw [shifted] at ran
  cases ran
  exact ⟨first, begun, Nat.add_comm ..⟩

theorem generateBy_add (read : Python.Reader) (n c : Nat) (code : String) (language : Language) :
    (generateBy read (n + c) code language).1 =
      (generateBy read n code language).1.map (Fix.renumbered c) :=
  Proposal.numbered_add n c _

theorem generateBy_counter (read : Python.Reader) (n : Nat) (code : String) (language : Language) :
    (generateBy read n code language).2 = n + (generateBy read n code language).1.length := by
  show n + _ = n + (Proposal.numbered n _).length
  rw [Proposal.length_numbered]

/-! ### Numbers along a run -/

/-- Lists of fixes that got their numbers between two points: the numbers of each list ascend, and no
two lists have a number in common. -/
structure Numbered (low high : Nat) (lists : List (List Fix)) : Prop where
  bounded : low ≤ high
  mem : ∀ fs ∈ lists, ∀ f ∈ fs, f.Named ∧ low < f.number ∧ f.number ≤ high
  ascending : ∀ fs ∈ lists, fs.Pairwise fun f g => f.number < g.number
  apart : lists.Pairwise fun fs gs => ∀ f ∈ fs, ∀ g ∈ gs, f.number ≠ g.number

section Numbered

variable {low middle high : Nat} {fs gs : List Fix}

theorem Numbered.mono {low' high' : Nat} {lists : List (List Fix)} (h : Numbered low high lists)
    (less : low' ≤ low) (more : high ≤ high') : Numbered low' high' lists where
  bounded := Nat.le_trans less (Nat.le_trans h.bounded more)
  mem := by
    intro fs list f mem
    obtain ⟨named, behind, last⟩ := h.mem fs list f mem
    exact ⟨named, Nat.lt_of_le_of_lt less behind, Nat.le_trans last more⟩
  ascending := h.ascending
  apart := h.apart

/-- Where no fixes are listed, no numbers are needed. -/
theorem Numbered.nil (n : Nat) : Numbered n n [] where
  bounded := Nat.le_refl n
  mem := fun _ mem => by cases mem
  ascending := fun _ mem => by cases mem
  apart := .nil

theorem Numbered.swap (h : Numbered low high [fs, gs]) : Numbered low high [gs, fs] where
  bounded := h.bounded
  mem := fun l mem => h.mem l ((List.Perm.swap gs fs []).mem_iff.mpr mem)
  ascending := fun l mem => h.ascending l ((List.Perm.swap gs fs []).mem_iff.mpr mem)
  apart := by
    refine List.pairwise_pair.mpr fun g memG f memF => ?_
    exact (List.pairwise_pair.mp h.apart f memF g memG).symm

/-- A fix with a later number may be put behind a list. -/
theorem Numbered.concat (h : Numbered low middle [fs, gs]) {f : Fix} (named : f.Named)
    (behind : middle < f.number) (last : f.number ≤ high) : Numbered low high [fs ++ [f], gs] := by
  have bounded := h.bounded
  have left := h.mem fs List.mem_cons_self
  have right := h.mem gs (List.mem_cons_of_mem _ List.mem_cons_self)
  refine ⟨by omega, ?_, ?_, ?_⟩
  · intro l list e mem
    rcases List.mem_pair.mp list with rfl | rfl
    · rcases List.mem_append.mp mem with mem | mem
      · obtain ⟨named, low, middle⟩ := left e mem
        exact ⟨named, low, by omega⟩
      · rw [List.mem_singleton.mp mem]
        exact ⟨named, by omega, last⟩
    · obtain ⟨named, low, middle⟩ := right e mem
      exact ⟨named, low, by omega⟩
  · intro l list
    rcases List.mem_pair.mp list with rfl | rfl
    · refine List.pairwise_append.mpr
        ⟨h.ascending fs List.mem_cons_self, List.pairwise_singleton _ _, ?_⟩
      intro e mem f' single
      rw [List.mem_singleton.mp single]
      exact Nat.lt_of_le_of_lt (left e mem).2.2 behind
    · exact h.ascending l (List.mem_cons_of_mem _ List.mem_cons_self)
  · refine List.pairwise_pair.mpr fun e memE g memG => ?_
    rcases List.mem_append.mp memE with memE | memE
    · exact List.pairwise_pair.mp h.apart e memE g memG
    · rw [List.mem_singleton.mp memE]
      have := (right g memG).2.2
      omega

end Numbered

/-- What is proposed at once is numbered. -/
theorem numbered_generateBy (read : Python.Reader) (n : Nat) (code : String) (language : Language) :
    Numbered n (generateBy read n code language).2 [(generateBy read n code language).1] where
  bounded := Nat.le_add_right n _
  mem := by
    intro fs list f mem
    rw [List.mem_singleton.mp list] at mem
    exact Proposal.number_mem_numbered mem
  ascending := by
    intro fs list
    rw [List.mem_singleton.mp list]
    exact Proposal.pairwise_numbered n _
  apart := List.pairwise_singleton _ _

section Turn

variable {propose : String → List Proposal} {accepts : String → Bool} {low : Nat}

theorem number_next? {m : AutoOutcome} {f : Fix} (next : next? propose m = some f) :
    f.Named ∧ m.counter < f.number ∧ f.number ≤ advance propose m :=
  Proposal.number_mem_numbered (List.mem_of_find?_eq_some next)

/-- What is tried in a turn has a later number than all that was tried before. -/
theorem Numbered.turn {m m' : AutoOutcome} (turn : Turn propose accepts m m')
    (h : Numbered low m.counter [m.applied, m.rejected]) :
    Numbered low m'.counter [m'.applied, m'.rejected] := by
  cases turn with
  | accept next =>
    obtain ⟨named, behind, last⟩ := number_next? next
    exact h.concat named behind last
  | reject next =>
    obtain ⟨named, behind, last⟩ := number_next? next
    exact (h.swap.concat named behind last).swap

/-- **The fixes of a run are numbered in the order in which they were tried.** -/
theorem Runs.numbered {most : Nat} {m o : AutoOutcome} (run : Runs propose accepts most m o)
    (start : Numbered low m.counter [m.applied, m.rejected]) :
    Numbered low o.counter [o.applied, o.rejected] :=
  run.preserves (I := fun m => Numbered low m.counter [m.applied, m.rejected]) start
    (fun turn h => h.turn turn) fun h => h.mono (Nat.le_refl low) (Nat.le_add_right _ _)

end Turn

/-- Fixes that are applied automatically are numbered behind the given number, and so are those that
are rejected. -/
theorem numbered_autoBy {read : Python.Reader} {n : Nat} {code : String} {language : Language}
    {o : AutoOutcome} (ran : autoBy read n code language = .ok o) :
    Numbered n o.counter [o.applied, o.rejected] := by
  refine (autoBy_eq_ok_iff.mp ran).numbered ⟨Nat.le_refl n, ?_, ?_, ?_⟩
  · intro fs list f mem
    rcases List.mem_pair.mp list with rfl | rfl <;> cases mem
  · intro fs list
    rcases List.mem_pair.mp list with rfl | rfl <;> exact .nil
  · refine List.pairwise_pair.mpr fun f mem => ?_
    cases mem

end Fix

end SnippetAudit
