import SnippetAudit.Fix.Edit
import SnippetAudit.Proofs.Text.Lines

/-!
What any fix does to the lines of a text, whether it was proposed for the text or not.

A fix whose range is there covers some lines between others (`Covers`), and all it does is to put its new
lines in their place (`Covers.apply_eq`, `Covers.lines_apply`). So questions about fixes are questions about
lists of lines:

* a fix fails exactly when its range is not there, and touches no line outside of it (`apply_local`);
* fixes for different lines can be applied in either order, if the one further down moves with its lines
  (`apply_comm_of_disjoint`);
* nothing in the place of several lines is an empty line, so they are deleted only if they are the whole
  text (`apply_deletes_iff`).
-/

namespace SnippetAudit.Fix

open Text

/-- The lines that a fix puts in the place of its range. -/
def newLines (f : Fix) : List String := if f.singleLine && f.deletion then [] else lines f.after

/-- The lines that a fix covers, with those in front of them and those behind. -/
structure Covers (code : String) (f : Fix) (pre old post : List String) : Prop where
  lines_eq : lines code = pre ++ old ++ post
  nonempty : old ≠ []
  first_eq : f.first = pre.length + 1
  last_eq : f.last = pre.length + old.length

/-- A range that is there stands between other lines. -/
theorem exists_range {ls : List String} {first last : Nat} (positive : 1 ≤ first)
    (ordered : first ≤ last) (inside : last ≤ ls.length) :
    ∃ pre old post, ls = pre ++ old ++ post ∧ old ≠ [] ∧ first = pre.length + 1 ∧
      last = pre.length + old.length := by
  have start : (ls.take (first - 1)).length = first - 1 := by
    rw [List.length_take]
    omega
  have size : ((ls.take last).drop (first - 1)).length = last - (first - 1) := by
    rw [List.length_drop, List.length_take]
    omega
  refine ⟨ls.take (first - 1), (ls.take last).drop (first - 1), ls.drop last, ?_, ?_, ?_, ?_⟩
  · have front : ls.take (first - 1) = (ls.take last).take (first - 1) := by
      rw [List.take_take, Nat.min_eq_left (by omega)]
    rw [front, List.take_append_drop, List.take_append_drop]
  · intro none
    rw [none, List.length_nil] at size
    omega
  · omega
  · omega

/-- A fix whose range is there covers some lines. -/
theorem exists_covers {code : String} {f : Fix} (first : 1 ≤ f.first) (ordered : f.first ≤ f.last)
    (inside : f.last ≤ (lines code).length) : ∃ pre old post, Covers code f pre old post := by
  obtain ⟨pre, old, post, cut, nonempty, start, stop⟩ := exists_range first ordered inside
  exact ⟨pre, old, post, cut, nonempty, start, stop⟩

namespace Covers

variable {code : String} {f : Fix} {pre old post : List String}

theorem length_pos (h : Covers code f pre old post) : 0 < old.length :=
  List.length_pos_iff.mpr h.nonempty

theorem length_lines (h : Covers code f pre old post) :
    (lines code).length = pre.length + old.length + post.length := by
  simp [h.lines_eq, Nat.add_assoc]

theorem take_eq (h : Covers code f pre old post) : (lines code).take (f.first - 1) = pre := by
  rw [h.lines_eq, h.first_eq, Nat.add_sub_cancel, List.append_assoc, List.take_left]

theorem drop_eq (h : Covers code f pre old post) : (lines code).drop f.last = post := by
  rw [h.lines_eq, h.last_eq, ← List.length_append, List.drop_left]

/-- **The new lines take the place of the covered ones.** -/
theorem apply_eq (h : Covers code f pre old post) :
    apply code f = .ok (unlines (pre ++ newLines f ++ post)) := by
  have there := h.length_pos
  have long := h.length_lines
  have valid : ¬ (decide (f.first = 0) || decide (f.last < f.first)) = true := by
    rw [Bool.or_eq_true, decide_eq_true_iff, decide_eq_true_iff, h.first_eq, h.last_eq]
    omega
  have inside : ¬ (lines code).length < f.last := by
    rw [h.last_eq]
    omega
  rw [apply, if_neg valid, if_neg inside]
  dsimp only
  rw [splice, h.take_eq, h.drop_eq, newLines]
  by_cases single : f.singleLine = true
  · by_cases deletion : f.deletion = true
    · simp [single, deletion]
    · simp only [single, deletion, Bool.and_false, if_true, if_false, Bool.false_eq_true,
        unlines_append_lines]
  · simp [single]

/-- No line of the result has a newline of its own. -/
theorem isLine_of_mem (h : Covers code f pre old post) {l : String}
    (mem : l ∈ pre ++ newLines f ++ post) : IsLine l := by
  have kept {l : String} (mem : l ∈ pre ++ old ++ post) : IsLine l := by
    rw [← h.lines_eq] at mem
    exact isLine_of_mem_lines mem
  rcases List.mem_append.mp mem with mem | mem
  · rcases List.mem_append.mp mem with mem | mem
    · exact kept (by simp [mem])
    · rw [newLines] at mem
      split at mem
      · cases mem
      · exact isLine_of_mem_lines mem
  · exact kept (by simp [mem])

/-- **What is left has these lines**, or an empty one if there are none. -/
theorem lines_apply (h : Covers code f pre old post) :
    lines (unlines (pre ++ newLines f ++ post)) =
      if pre ++ newLines f ++ post = [] then [""] else pre ++ newLines f ++ post := by
  split
  next none => rw [none, unlines_nil, lines_empty]
  next some => exact lines_unlines some fun _ mem => h.isLine_of_mem mem

end Covers

/-! ### What is put in the place of a range -/

theorem newLines_of_after_ne {f : Fix} (kept : f.after ≠ "") : newLines f = lines f.after := by
  simp [newLines, deletion, kept]

theorem newLines_of_single {f : Fix} (single : f.first = f.last) (empty : f.after = "") :
    newLines f = [] := by
  simp [newLines, singleLine, deletion, single, empty]

/-- In the place of several lines even an empty text is a line. -/
theorem newLines_of_ne {f : Fix} (several : f.first ≠ f.last) : newLines f = lines f.after := by
  simp [newLines, singleLine, several]

/-! ### When a fix fails, and what it leaves alone -/

theorem apply_of_invalid {code : String} {f : Fix} (bad : f.first = 0 ∨ f.last < f.first) :
    apply code f = .error (.invalidRange f.first f.last) := by
  have invalid : (decide (f.first = 0) || decide (f.last < f.first)) = true := by
    rwa [Bool.or_eq_true, decide_eq_true_iff, decide_eq_true_iff]
  rw [apply, if_pos invalid]

theorem apply_of_beyond {code : String} {f : Fix} (first : 1 ≤ f.first) (ordered : f.first ≤ f.last)
    (beyond : (lines code).length < f.last) :
    apply code f = .error (.lineOutOfRange f.last (lines code).length) := by
  have valid : ¬ (decide (f.first = 0) || decide (f.last < f.first)) = true := by
    rw [Bool.or_eq_true, decide_eq_true_iff, decide_eq_true_iff]
    omega
  rw [apply, if_neg valid, if_pos beyond]

/-- A fix that only says what to put in which place. -/
def edit (first last : Nat) (after : String) : Fix where
  id := ""
  kind := .simple
  title := ""
  description := ""
  first := first
  last := last
  before := ""
  after := after
  diff := ""
  confidence := 1
  automatic := true

/-- **A fix fails exactly when its range is not there, and touches no line outside of it.** Else the lines
of its text stand where the range was; one line that nothing replaces is gone, unless it is the only one. -/
theorem apply_local (code : String) (f : Fix) :
    (apply code f = .error (.invalidRange f.first f.last) ↔ f.first = 0 ∨ f.last < f.first) ∧
      (apply code f = .error (.lineOutOfRange f.last (lines code).length) ↔
        ¬ (f.first = 0 ∨ f.last < f.first) ∧ (lines code).length < f.last) ∧
      ((∃ fixed, apply code f = .ok fixed) ↔
        ¬ (f.first = 0 ∨ f.last < f.first) ∧ f.last ≤ (lines code).length) ∧
      ∀ fixed, apply code f = .ok fixed →
        (f.after ≠ "" → lines fixed =
          (lines code).take (f.first - 1) ++ lines f.after ++ (lines code).drop f.last) ∧
        (f.first = f.last → f.after = "" → lines fixed =
          if (lines code).length = 1 then [""] else (lines code).eraseIdx (f.first - 1)) := by
  by_cases bad : f.first = 0 ∨ f.last < f.first
  · simp [apply_of_invalid bad, bad]
  · have first : 1 ≤ f.first := by omega
    have ordered : f.first ≤ f.last := by omega
    by_cases beyond : (lines code).length < f.last
    · simp [apply_of_beyond first ordered beyond, bad, beyond]
    · have inside : f.last ≤ (lines code).length := by omega
      obtain ⟨pre, old, post, covers⟩ := exists_covers first ordered inside
      rw [covers.apply_eq]
      refine ⟨by simp [bad], by simp [beyond], by simp [bad, inside], ?_⟩
      intro fixed same
      cases same
      rw [covers.lines_apply]
      constructor
      · intro kept
        rw [newLines_of_after_ne kept, if_neg (by simp [lines_ne_nil]), covers.take_eq,
          covers.drop_eq]
      · intro single empty
        have gone : pre ++ newLines f ++ post = (lines code).eraseIdx (f.first - 1) := by
          rw [List.eraseIdx_eq_take_drop_succ, newLines_of_single single empty, List.append_nil,
            Nat.sub_add_cancel first, covers.take_eq, single, covers.drop_eq]
        have only : (lines code).eraseIdx (f.first - 1) = [] ↔ (lines code).length = 1 := by
          rw [← List.length_eq_zero_iff, List.length_eraseIdx_of_lt (by omega)]
          omega
        simp only [gone, only]

/-- Two lines in the place of one, the only line of a text deleted, and two ranges that are not there. -/
theorem apply_local_of_short_texts :
    (∃ fixed, apply "a\nb\nc" (edit 2 2 "x\ny") = .ok fixed ∧ lines fixed = ["a", "x", "y", "c"]) ∧
      (∃ fixed, apply "a" (edit 1 1 "") = .ok fixed ∧ lines fixed = [""]) ∧
      apply "a\nb" (edit 2 1 "x") = .error (.invalidRange 2 1) ∧
      apply "a\nb" (edit 2 3 "x") = .error (.lineOutOfRange 3 2) := by
  refine ⟨?_, ?_, ?_, ?_⟩
  · obtain ⟨-, -, succeeds, result⟩ := apply_local "a\nb\nc" (edit 2 2 "x\ny")
    obtain ⟨fixed, applied⟩ := succeeds.mpr (by decide)
    exact ⟨fixed, applied, (result fixed applied).1 (by decide)⟩
  · obtain ⟨-, -, succeeds, result⟩ := apply_local "a" (edit 1 1 "")
    obtain ⟨fixed, applied⟩ := succeeds.mpr (by decide)
    exact ⟨fixed, applied, (result fixed applied).2 rfl rfl⟩
  · exact (apply_local "a\nb" (edit 2 1 "x")).1.mpr (by decide)
  · exact (apply_local "a\nb" (edit 2 3 "x")).2.1.mpr (by decide)

/-! ### Fixes for different lines -/

/-- A fix whose lines have moved down by some lines, or up. -/
def moved (f : Fix) (shift : Int) : Fix :=
  { f with first := (f.first + shift).toNat, last := (f.last + shift).toNat }

@[simp] theorem moved_first (f : Fix) (shift : Int) :
    (f.moved shift).first = (f.first + shift).toNat := rfl

@[simp] theorem moved_last (f : Fix) (shift : Int) :
    (f.moved shift).last = (f.last + shift).toNat := rfl

/-- A fix that moves puts the same lines in place. -/
theorem newLines_moved {f : Fix} {shift : Int} (first : 1 ≤ f.first + shift)
    (ordered : f.first ≤ f.last) : newLines (f.moved shift) = newLines f := by
  have single : (f.moved shift).singleLine = f.singleLine := by
    rw [singleLine, singleLine, decide_eq_decide, moved_first, moved_last]
    omega
  rw [newLines, newLines, single]
  rfl

/-- Fixes for different lines cover lines with others between them. -/
theorem exists_covers_of_disjoint {code : String} {f g : Fix} (first : 1 ≤ f.first)
    (ordered : f.first ≤ f.last) (apart : f.last < g.first) (ordered' : g.first ≤ g.last)
    (inside : g.last ≤ (lines code).length) :
    ∃ pre old mid old' post, Covers code f pre old (mid ++ old' ++ post) ∧
      Covers code g (pre ++ old ++ mid) old' post := by
  have inside' : f.last ≤ (lines code).length := by omega
  obtain ⟨pre, old, rest, covers⟩ := exists_covers first ordered inside'
  have long := covers.length_lines
  have above := covers.last_eq
  have below : 1 ≤ g.first - f.last := by omega
  have span : g.first - f.last ≤ g.last - f.last := by omega
  have room : g.last - f.last ≤ rest.length := by omega
  obtain ⟨mid, old', post, rfl, nonempty, start, stop⟩ := exists_range below span room
  refine ⟨pre, old, mid, old', post, covers, ?_, nonempty, ?_, ?_⟩
  · rw [covers.lines_eq]
    simp only [List.append_assoc]
  · simp only [List.length_append]
    omega
  · simp only [List.length_append]
    omega

/-- **Fixes for different lines can be applied in either order**, if the one for the lines further down
moves with its lines. -/
theorem apply_comm_of_disjoint {code : String} {f g : Fix} (first : 1 ≤ f.first)
    (ordered : f.first ≤ f.last) (apart : f.last < g.first) (ordered' : g.first ≤ g.last)
    (inside : g.last ≤ (lines code).length) :
    ∃ upper lower both,
      apply code f = .ok upper ∧ apply code g = .ok lower ∧ apply lower f = .ok both ∧
        1 ≤ (g.first : Int) + ((lines upper).length - (lines code).length) ∧
        apply upper (g.moved ((lines upper).length - (lines code).length)) = .ok both := by
  obtain ⟨pre, old, mid, old', post, covers, covers'⟩ :=
    exists_covers_of_disjoint first ordered apart ordered' inside
  have above := covers.lines_apply
  rw [if_neg (by simp [covers'.nonempty])] at above
  have below := covers'.lines_apply
  rw [if_neg (by simp [covers.nonempty])] at below
  have long := covers.length_lines
  have start' := covers'.first_eq
  have stop' := covers'.last_eq
  have size := congrArg List.length above
  simp only [List.length_append] at long start' stop' size
  set upper := unlines (pre ++ newLines f ++ (mid ++ old' ++ post))
  set lower := unlines (pre ++ old ++ mid ++ newLines g ++ post)
  -- What `f` replaced is still in place after `g`, and the lines of `g` have only moved after `f`.
  have again : Covers lower f pre old (mid ++ newLines g ++ post) :=
    ⟨by rw [below]; simp only [List.append_assoc], covers.nonempty, covers.first_eq, covers.last_eq⟩
  have shift : 1 ≤ (g.first : Int) + ((lines upper).length - (lines code).length) := by omega
  have again' : Covers upper (g.moved ((lines upper).length - (lines code).length))
      (pre ++ newLines f ++ mid) old' post := by
    refine ⟨by rw [above]; simp only [List.append_assoc], covers'.nonempty, ?_, ?_⟩
    · rw [moved_first]
      simp only [List.length_append]
      omega
    · rw [moved_last]
      simp only [List.length_append]
      omega
  refine ⟨upper, lower, _, covers.apply_eq, covers'.apply_eq, again.apply_eq, shift, ?_⟩
  rw [again'.apply_eq, newLines_moved shift ordered']
  simp only [List.append_assoc]

/-- A line deleted above and another put in the place of two. -/
theorem apply_comm_of_five_lines :
    ∃ upper lower both,
      apply "a\nb\nc\nd\ne" (edit 1 1 "") = .ok upper ∧
        apply "a\nb\nc\nd\ne" (edit 3 4 "x") = .ok lower ∧ apply lower (edit 1 1 "") = .ok both ∧
        apply upper ((edit 3 4 "x").moved ((lines upper).length - 5)) = .ok both := by
  obtain ⟨upper, lower, both, first, second, after, -, other⟩ :=
    @apply_comm_of_disjoint "a\nb\nc\nd\ne" (edit 1 1 "") (edit 3 4 "x")
      (by decide) (by decide) (by decide) (by decide) (by decide)
  exact ⟨upper, lower, both, first, second, after, other⟩

/-! ### Nothing in the place of several lines -/

/-- **A fix that puts nothing in the place of its range deletes it exactly if the range is one line or the
whole text.** In the place of several other lines it leaves an empty one. -/
theorem apply_deletes_iff {code : String} {f : Fix} (first : 1 ≤ f.first) (ordered : f.first ≤ f.last)
    (inside : f.last ≤ (lines code).length) (empty : f.after = "") :
    apply code f = .ok (unlines ((lines code).take (f.first - 1) ++
        (if f.first = f.last then [] else [""]) ++ (lines code).drop f.last)) ∧
      (apply code f =
          .ok (unlines ((lines code).take (f.first - 1) ++ (lines code).drop f.last)) ↔
        f.first = f.last ∨ f.first = 1 ∧ f.last = (lines code).length) := by
  obtain ⟨pre, old, post, covers⟩ := exists_covers first ordered inside
  rw [covers.apply_eq, covers.take_eq, covers.drop_eq]
  by_cases single : f.first = f.last
  · simp [newLines_of_single single empty, single]
  · have long := covers.length_lines
    have start := covers.first_eq
    have stop := covers.last_eq
    have result := covers.lines_apply
    rw [newLines_of_ne single, empty, lines_empty] at result ⊢
    rw [if_neg (by simp)] at result
    refine ⟨by rw [if_neg single], ?_⟩
    constructor
    · intro same
      by_contra part
      have left : pre ++ post ≠ [] := by
        rw [ne_eq, ← List.length_eq_zero_iff, List.length_append]
        omega
      have clean : ∀ l ∈ pre ++ post, IsLine l := by
        intro l mem
        have there : l ∈ lines code := by
          rw [covers.lines_eq]
          rcases List.mem_append.mp mem with mem | mem <;> simp [mem]
        exact isLine_of_mem_lines there
      refine unlines_ne_of_length_ne left clean ?_ (Except.ok.inj same).symm
      rw [result]
      simp
    · rintro (one | ⟨top, bottom⟩)
      · exact absurd one single
      · have none : pre = [] := List.length_eq_zero_iff.mp (by omega)
        have none' : post = [] := List.length_eq_zero_iff.mp (by omega)
        simp [none, none', unlines_singleton, unlines_nil]

/-- The two lines of a text, and two lines of three. -/
theorem apply_deletes_of_two_lines :
    apply "a\nb" (edit 1 2 "") = .ok "" ∧ apply "a\nb\nc" (edit 1 2 "") = .ok "\nc" := by
  constructor
  · exact (@apply_deletes_iff "a\nb" (edit 1 2 "") (by decide) (by decide) (by decide) rfl).2.mpr
      (by decide)
  · exact (@apply_deletes_iff "a\nb\nc" (edit 1 2 "") (by decide) (by decide) (by decide) rfl).1

/-- **Two lines of three are not deleted**: an empty line is left in their place. -/
theorem apply_leaves_empty_line :
    1 ≤ (edit 1 2 "").first ∧ (edit 1 2 "").first ≤ (edit 1 2 "").last ∧
      (edit 1 2 "").last ≤ (lines "a\nb\nc").length ∧ (edit 1 2 "").after = "" ∧
      apply "a\nb\nc" (edit 1 2 "") = .ok "\nc" ∧
      unlines ((lines "a\nb\nc").take ((edit 1 2 "").first - 1) ++
        (lines "a\nb\nc").drop (edit 1 2 "").last) = "c" := by
  refine ⟨by decide, by decide, by decide, rfl, by decide, by decide⟩

end SnippetAudit.Fix
