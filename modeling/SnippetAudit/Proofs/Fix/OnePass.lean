import SnippetAudit.Proofs.Fix.Auto

/-!
In JavaScript and TypeScript, applying fixes comes to one pass over the lines.

The loop makes all proposals anew after every edit. Still it goes down the text only once: the first
line that compares loosely is mended, it does not compare loosely any more, and no other line is
touched. So after some turns the lines are what `strictFirst` makes of them in one pass, which is the
invariant of the loop (`OnePass.turn`).
-/

namespace SnippetAudit.Fix

open Text Finding Battery

/-! ### One pass over the lines -/

/-- Compare strictly on the first `most` of the lines that compare loosely. -/
def strictFirst : Nat → List String → List String
  | 0, ls => ls
  | _ + 1, [] => []
  | most + 1, l :: ls =>
    if foundOn looseEquality l then compareStrictly l :: strictFirst most ls
    else l :: strictFirst (most + 1) ls

/-- The numbers of the lines that compare loosely, where the first line has the number `first`. -/
def looseNumbers (first : Nat) : List String → List Nat
  | [] => []
  | l :: ls =>
    if foundOn looseEquality l then first :: looseNumbers (first + 1) ls
    else looseNumbers (first + 1) ls

section Pass

variable {most n first : Nat} {l : String} {ls : List String}

theorem strictFirst_zero (ls : List String) : strictFirst 0 ls = ls := by
  rw [strictFirst]

theorem strictFirst_nil (most : Nat) : strictFirst most [] = [] := by
  cases most <;> rw [strictFirst]

theorem strictFirst_cons_of_loose (loose : foundOn looseEquality l = true) :
    strictFirst (most + 1) (l :: ls) = compareStrictly l :: strictFirst most ls := by
  rw [strictFirst, if_pos loose]

theorem strictFirst_cons_of_not_loose (strict : foundOn looseEquality l = false) :
    strictFirst most (l :: ls) = l :: strictFirst most ls := by
  cases most with
  | zero => rw [strictFirst_zero, strictFirst_zero]
  | succ most => rw [strictFirst, if_neg (Bool.eq_false_iff.mp strict)]

/-- **The pass changes the lines that compare loosely and have fewer than `most` such lines above
them**, and no others. -/
theorem getElem?_strictFirst (most : Nat) (ls : List String) (i : Nat) :
    (strictFirst most ls)[i]? = ls[i]?.map fun l =>
      if foundOn looseEquality l = true ∧ (ls.take i).countP (foundOn looseEquality) < most then
        compareStrictly l
      else l := by
  induction ls generalizing most i with
  | nil => simp [strictFirst_nil]
  | cons l ls ih =>
    cases loose : foundOn looseEquality l with
    | true =>
      cases most with
      | zero => simp [strictFirst_zero]
      | succ most =>
        rw [strictFirst_cons_of_loose loose]
        cases i with
        | zero => simp [loose]
        | succ i => simp [ih, loose]
    | false =>
      rw [strictFirst_cons_of_not_loose loose]
      cases i with
      | zero => simp [loose]
      | succ i => simp [ih, loose]

/-- Each line that is mended is one fewer to compare loosely. -/
theorem countP_strictFirst (most : Nat) (ls : List String) :
    (strictFirst most ls).countP (foundOn looseEquality) =
      ls.countP (foundOn looseEquality) - most := by
  induction ls generalizing most with
  | nil => simp [strictFirst_nil]
  | cons l ls ih =>
    cases loose : foundOn looseEquality l with
    | true =>
      cases most with
      | zero => rw [strictFirst_zero, Nat.sub_zero]
      | succ most =>
        have strict := foundOn_looseEquality_compareStrictly l
        rw [strictFirst_cons_of_loose loose, List.countP_cons_of_neg (by simp [strict]), ih,
          List.countP_cons_of_pos loose, Nat.add_sub_add_right]
    | false =>
      have strict : ¬ foundOn looseEquality l = true := Bool.eq_false_iff.mp loose
      rw [strictFirst_cons_of_not_loose loose, List.countP_cons_of_neg strict, ih,
        List.countP_cons_of_neg strict]

/-- Once every line is mended it makes no difference how many more might be. -/
theorem strictFirst_min (most : Nat) (ls : List String) :
    strictFirst (min (ls.countP (foundOn looseEquality)) most) ls = strictFirst most ls := by
  induction ls generalizing most with
  | nil => simp [strictFirst_nil]
  | cons l ls ih =>
    cases loose : foundOn looseEquality l with
    | true =>
      rw [List.countP_cons_of_pos loose]
      cases most with
      | zero => rw [Nat.min_zero]
      | succ most =>
        rw [Nat.succ_min_succ, strictFirst_cons_of_loose loose, strictFirst_cons_of_loose loose, ih]
    | false =>
      rw [List.countP_cons_of_neg (Bool.eq_false_iff.mp loose), strictFirst_cons_of_not_loose loose,
        strictFirst_cons_of_not_loose loose, ih]

theorem length_looseNumbers (first : Nat) (ls : List String) :
    (looseNumbers first ls).length = ls.countP (foundOn looseEquality) := by
  induction ls generalizing first with
  | nil => rfl
  | cons l ls ih =>
    rw [looseNumbers]
    split
    next loose => rw [List.length_cons, ih, List.countP_cons_of_pos loose]
    next strict => rw [ih, List.countP_cons_of_neg strict]

theorem le_of_mem_looseNumbers (mem : n ∈ looseNumbers first ls) : first ≤ n := by
  induction ls generalizing first with
  | nil => cases mem
  | cons l ls ih =>
    rw [looseNumbers] at mem
    split at mem
    · rcases List.mem_cons.mp mem with rfl | mem
      · exact Nat.le_refl n
      · exact Nat.le_of_succ_le (ih mem)
    · exact Nat.le_of_succ_le (ih mem)

/-- The numbers of lines ascend. -/
theorem pairwise_looseNumbers (first : Nat) (ls : List String) :
    (looseNumbers first ls).Pairwise (· < ·) := by
  induction ls generalizing first with
  | nil => exact .nil
  | cons l ls ih =>
    rw [looseNumbers]
    split
    · exact .cons (fun n mem => le_of_mem_looseNumbers mem) (ih (first + 1))
    · exact ih (first + 1)

/-- **The first line that still compares loosely after a pass is the one that is next**: it is mended by
a pass that mends one line more, and its number is the next of the numbers. -/
theorem strictFirst_succ {pre post : List String} {line : String}
    (cut : strictFirst n ls = pre ++ line :: post)
    (above : ∀ l ∈ pre, foundOn looseEquality l = false)
    (loose : foundOn looseEquality line = true) (first : Nat) :
    strictFirst (n + 1) ls = pre ++ compareStrictly line :: post ∧
      (looseNumbers first ls)[n]? = some (first + pre.length) := by
  induction ls generalizing n pre first with
  | nil => simp [strictFirst_nil] at cut
  | cons l ls ih =>
    cases here : foundOn looseEquality l with
    | true =>
      rw [strictFirst_cons_of_loose here, looseNumbers, if_pos here]
      cases n with
      | zero =>
        rw [strictFirst_zero] at cut ⊢
        cases pre with
        | nil =>
          obtain ⟨rfl, rfl⟩ := List.cons.inj cut
          exact ⟨rfl, rfl⟩
        | cons l' pre =>
          obtain ⟨rfl, -⟩ := List.cons.inj cut
          rw [above l List.mem_cons_self] at here
          cases here
      | succ n =>
        rw [strictFirst_cons_of_loose here] at cut
        cases pre with
        | nil =>
          obtain ⟨rfl, -⟩ := List.cons.inj cut
          rw [foundOn_looseEquality_compareStrictly] at loose
          cases loose
        | cons l' pre =>
          obtain ⟨rfl, tail⟩ : compareStrictly l = l' ∧ strictFirst n ls = pre ++ line :: post :=
            List.cons.inj cut
          obtain ⟨next, number⟩ := ih tail (fun l mem => above l (List.mem_cons_of_mem _ mem)) (first + 1)
          rw [next, List.getElem?_cons_succ, number, List.length_cons]
          exact ⟨rfl, congrArg some (by omega)⟩
    | false =>
      rw [strictFirst_cons_of_not_loose here] at cut ⊢
      rw [looseNumbers, if_neg (Bool.eq_false_iff.mp here)]
      cases pre with
      | nil =>
        obtain ⟨rfl, -⟩ := List.cons.inj cut
        rw [here] at loose
        cases loose
      | cons l' pre =>
        obtain ⟨rfl, tail⟩ : l = l' ∧ strictFirst n ls = pre ++ line :: post := List.cons.inj cut
        obtain ⟨next, number⟩ := ih tail (fun l mem => above l (List.mem_cons_of_mem _ mem)) (first + 1)
        rw [next, number, List.length_cons]
        exact ⟨rfl, congrArg some (by omega)⟩

end Pass

/-! ### The loop -/

section Loop

variable {read : Python.Reader} {language : Language} {accepts : String → Bool} {m m' : AutoOutcome}

theorem proposalsBy_of_isScript (script : language.isScript = true) :
    proposalsBy read language = Battery.script := by
  cases language with
  | javascript => rfl
  | typescript => rfl
  | python | java | cpp => cases script

/-- Every text is well formed. -/
theorem acceptsBy_of_isScript (script : language.isScript = true) (check : Bool) (fixed : String) :
    acceptsBy read check language fixed = true := by
  have valid : isValidBy read fixed language = true := by
    cases language with
    | javascript => rfl
    | typescript => rfl
    | python | java | cpp => cases script
  rw [acceptsBy, valid, Bool.or_true]

/-- What a rule proposes first is for the first line for which it proposes anything. -/
theorem exists_of_eachLine_eq_cons {rule : Nat → String → Option Proposal} {code : String}
    {p : Proposal} {rest : List Proposal} (proposed : eachLine rule code = p :: rest) :
    ∃ pre line post, lines code = pre ++ line :: post ∧ rule (pre.length + 1) line = some p ∧
      ∀ l ∈ pre, ∃ n, rule n l = none := by
  obtain ⟨above, ⟨number, line⟩, below, cut, passed, found, -⟩ :=
    List.filterMap_eq_cons_iff.mp proposed
  obtain ⟨split, rfl⟩ := numberedLines_eq_append cut
  refine ⟨above.map Prod.snd, line, below.map Prod.snd, split, ?_, ?_⟩
  · rw [List.length_map]
    exact found
  · intro l mem
    obtain ⟨numbered, inside, rfl⟩ := List.mem_map.mp mem
    exact ⟨numbered.1, passed numbered inside⟩

theorem looseEqualityFix_eq_some_iff {number : Nat} {line : String} {p : Proposal} :
    looseEqualityFix number line = some p ↔ foundOn looseEquality line = true ∧
      onLine .style number ("Use strict equality (===) on line " ++ toString number)
        "Use === instead of == for strict equality" line (compareStrictly line) = p := by
  rw [looseEqualityFix]
  split
  next loose => simp [loose]
  next strict => simp [strict]

theorem looseEqualityFix_eq_none_iff {number : Nat} {line : String} :
    looseEqualityFix number line = none ↔ foundOn looseEquality line = false := by
  rw [looseEqualityFix]
  split
  next loose => simp [loose]
  next strict => simpa using strict

/-- **The fix that is tried next is for the first line that compares loosely**, as long as nothing was
rejected. -/
theorem next?_script {f : Fix} (unrejected : m.rejected = [])
    (next : next? Battery.script m = some f) :
    ∃ pre line post p n, lines m.code = pre ++ line :: post ∧
      looseEqualityFix (pre.length + 1) line = some p ∧ f = p.toFix n ∧
      ∀ l ∈ pre, foundOn looseEquality l = false := by
  obtain ⟨p, mem, n, rfl, automatic, -⟩ := exists_of_next? next
  have mem : p ∈ eachLine looseEqualityFix m.code := by
    rcases cases_of_mem_script mem with mem | manual
    · exact mem
    · rw [manual] at automatic
      cases automatic
  obtain ⟨q, rest, proposed⟩ := List.exists_cons_of_ne_nil (List.ne_nil_of_mem mem)
  obtain ⟨pre, line, post, cut, found, above⟩ := exists_of_eachLine_eq_cons proposed
  -- No proposal stands before the one for this line, so it is the one that is tried.
  have all : Battery.script m.code =
      [] ++ q :: (rest ++ eachLine varWordFix m.code ++ eachLine innerHtmlFix m.code) := by
    rw [Battery.script, proposed]
    rfl
  have fresh : isRejected m.rejected q = false := by
    rw [unrejected]
    rfl
  have automatic : q.automatic = true := by
    rw [← (looseEqualityFix_eq_some_iff.mp found).2]
    rfl
  have first := next?_eq_some all (fun _ mem => by cases mem) automatic fresh
  rw [first] at next
  refine ⟨pre, line, post, q, _, cut, found, (Option.some.inj next).symm, ?_⟩
  intro l mem
  obtain ⟨_, passed⟩ := above l mem
  exact looseEqualityFix_eq_none_iff.mp passed

/-- After some turns the lines are those of one pass, and the fixes that were applied are for the first of
the lines that compared loosely. -/
structure OnePass (code : String) (m : AutoOutcome) : Prop where
  lines_eq : lines m.code = strictFirst m.applied.length (lines code)
  numbers_eq : m.applied.map Fix.first = (looseNumbers 1 (lines code)).take m.applied.length
  unrejected : m.rejected = []

theorem onePass_start (code : String) (counter : Nat) : OnePass code ⟨code, [], [], counter⟩ where
  lines_eq := (strictFirst_zero _).symm
  numbers_eq := rfl
  unrejected := rfl

/-- A line that compares loosely is not deleted. -/
theorem compareStrictly_ne_empty {line : String} (loose : foundOn looseEquality line = true) :
    compareStrictly line ≠ "" := by
  intro empty
  have some : line.toList ≠ [] := by
    intro nil
    rw [foundOn, nil] at loose
    cases loose
  have patched := patched_replace sized_looseEquality "===".toList line.toList
  have left := patched.ne_nil (by decide) some
  rw [compareStrictly, ← String.toList_inj, toList_rewriteLine] at empty
  exact left empty

/-- **Every turn goes on with the pass.** -/
theorem OnePass.turn {code : String} (free : ∀ t, accepts t = true)
    (turn : Turn Battery.script accepts m m') (h : OnePass code m) : OnePass code m' := by
  cases turn with
  | @accept f fixed next applied accepted changed =>
    obtain ⟨pre, line, post, p, n, cut, found, rfl, above⟩ := next?_script h.unrejected next
    obtain ⟨loose, shape⟩ := looseEqualityFix_eq_some_iff.mp found
    have mends : Mends .javascript m.code pre post p :=
      (lightens_looseEqualityFix (.inl rfl)).mends_at cut found
    have replaced : replacement p = [compareStrictly line] := by
      rw [replacement, ← shape]
      exact if_neg (compareStrictly_ne_empty loose)
    have after : lines fixed = pre ++ compareStrictly line :: post := by
      rw [mends.apply_eq n] at applied
      cases applied
      have clean := fun l (mem : l ∈ pre ++ replacement p ++ post) => mends.isLine_of_mem mem
      rw [replaced] at clean ⊢
      rw [lines_unlines (by simp) clean]
      simp
    obtain ⟨pass, number⟩ := strictFirst_succ (h.lines_eq ▸ cut) above loose 1
    refine ⟨?_, ?_, h.unrejected⟩
    · rw [List.length_append, List.length_singleton, pass, after]
    · rw [List.length_append, List.length_singleton, List.take_add_one, number, List.map_append,
        h.numbers_eq]
      simp [Proposal.toFix, mends.first_eq, Nat.add_comm]
  | reject next applied refused =>
    rw [free] at refused
    cases refused

/-- A run that was not cut short leaves no line that compares loosely. -/
theorem countP_eq_zero_of_room {most : Nat} {o : AutoOutcome} (script : language.isScript = true)
    (run : Runs (proposalsBy read language) accepts most m o) (room : o.applied.length < most)
    (unrejected : o.rejected = []) : (lines o.code).countP (foundOn looseEquality) = 0 := by
  rw [List.countP_eq_zero]
  intro line mem loose
  rcases closed_or_empty run room with closed | empty
  · obtain ⟨p, proposed, automatic⟩ :=
      (lightens_looseEqualityFix (.inl rfl)).exists_automatic mem loose
    rw [proposalsBy_of_isScript script, unrejected] at closed
    have rejected := closed p (by simp [Battery.script, proposed]) automatic
    cases rejected
  · rw [empty, lines_empty, List.mem_singleton] at mem
    rw [mem] at loose
    cases loose

/-- **At the end of a run all lines that compared loosely were mended**, or as many as may be. -/
theorem OnePass.length_applied {most counter : Nat} {code : String} {o : AutoOutcome}
    (script : language.isScript = true)
    (run : Runs (proposalsBy read language) accepts most ⟨code, [], [], counter⟩ o)
    (h : OnePass code o) :
    o.applied.length = min ((lines code).countP (foundOn looseEquality)) most := by
  have limited : o.applied.length ≤ most := run.length_applied_le (Nat.zero_le most)
  have loose : o.applied.length ≤ (lines code).countP (foundOn looseEquality) := by
    have counted := congrArg List.length h.numbers_eq
    rw [List.length_map, List.length_take, length_looseNumbers] at counted
    omega
  rcases Nat.lt_or_ge o.applied.length most with room | full
  · have none := countP_eq_zero_of_room script run room h.unrejected
    rw [h.lines_eq, countP_strictFirst] at none
    omega
  · omega

end Loop

/-- **In JavaScript and TypeScript, applying fixes is one pass over the lines.** In the outcome the lines
that compared loosely compare strictly, as far as there may be fixes for them from the top, and all other
lines are as they were. Just these lines were fixed, one after the other, and no fix was rejected. -/
theorem auto_onePass (read : Python.Reader) (counter : Nat) (code : String) {language : Language}
    (script : language.isScript = true) :
    ∃ o, autoBy read counter code language = .ok o ∧
      (∀ i, (lines o.code)[i]? = (lines code)[i]?.map fun l =>
        if foundOn looseEquality l = true ∧
            ((lines code).take i).countP (foundOn looseEquality) < autoLimit then compareStrictly l
        else l) ∧
      o.applied.length = min ((lines code).countP (foundOn looseEquality)) autoLimit ∧
      o.applied.map Fix.first = (looseNumbers 1 (lines code)).take autoLimit ∧
      (o.applied.map Fix.first).Pairwise (· < ·) ∧ o.rejected = [] := by
  obtain ⟨o, ran, run⟩ := autoBy_runs read counter code language
  have pass : OnePass code o := by
    have run := run
    rw [proposalsBy_of_isScript script] at run
    exact run.invariant (onePass_start code counter)
      (OnePass.turn (acceptsBy_of_isScript script _))
      (fun _ h => ⟨h.lines_eq, h.numbers_eq, h.unrejected⟩)
  have count := pass.length_applied script run
  have numbers : o.applied.map Fix.first = (looseNumbers 1 (lines code)).take autoLimit := by
    rw [pass.numbers_eq, count, ← length_looseNumbers 1, Nat.min_comm, ← List.take_eq_take_min]
  refine ⟨o, ran, ?_, count, numbers, ?_, pass.unrejected⟩
  · intro i
    rw [pass.lines_eq, count, strictFirst_min, getElem?_strictFirst]
  · rw [numbers]
    exact (pairwise_looseNumbers 1 (lines code)).take

theorem auto_onePass_of_three_lines :
    Language.javascript.isScript = true ∧
      ∃ o, auto 0 "if (a == b)\n  c = d;\nwhile (e == f && g === h) i();" .javascript = .ok o ∧
        (lines o.code)[0]? = some "if (a === b)" ∧ (lines o.code)[1]? = some "  c = d;" ∧
        (lines o.code)[2]? = some "while (e === f && g === h) i();" ∧
        o.applied.map Fix.first = [1, 3] ∧ o.rejected = [] := by
  have script : Language.javascript.isScript = true := rfl
  obtain ⟨o, ran, lines_eq, -, numbers, -, unrejected⟩ := auto_onePass Python.readTree 0
    "if (a == b)\n  c = d;\nwhile (e == f && g === h) i();" script
  refine ⟨script, o, ran, ?_, ?_, ?_, ?_, unrejected⟩
  · rw [lines_eq]
    decide
  · rw [lines_eq]
    decide
  · rw [lines_eq]
    decide
  · rw [numbers]
    decide

end SnippetAudit.Fix
