import SnippetAudit.Proofs.Fix.Coverage
import SnippetAudit.Proofs.Fix.Rewrite

/-!
Which comparisons the rewrite with `None` touches.

The patterns ask for the letters of `None` beside a `==` and for nothing around them, so the end or the
beginning of a longer name is taken for `None` as well. What the rewrite replaces are signs beside these
letters (`byIdentity_compareByIdentity`). They stand beside the literal wherever every sign beside the letters
does (`comparisons_beside_none`).

The rewrite has two passes, and a `None` may stand beside a sign on either side of it. So both passes are
followed at once, along the text that neither has changed so far.
-/

namespace SnippetAudit.Text.Patched

variable {r s t w : List Char} {kept gone gone' : List Char → Prop}

/-- How it is told what is replaced and what is kept makes no difference to the texts. -/
theorem imp (h : Patched r kept gone s t) (removed : ∀ piece, gone piece → gone' piece) :
    Patched r (fun _ => True) gone' s t := by
  induction h with
  | nil => exact .nil
  | keep _ _ ih => exact .keep trivial ih
  | patch piece _ ih => exact .patch (removed _ piece) ih

/-- A beginning of the new text without the first character of the replacement was there before. -/
theorem exists_of_append_new {first : Char} (hr : first ∈ r.head?) (absent : first ∉ w)
    (h : Patched r kept gone s (w ++ t)) : ∃ s', s = w ++ s' ∧ Patched r kept gone s' t := by
  induction w generalizing s with
  | nil => exact ⟨s, rfl, h⟩
  | cons c w ih =>
    rw [List.cons_append] at h
    rw [List.mem_cons, not_or] at absent
    obtain ⟨other, absent⟩ := absent
    generalize hu : c :: (w ++ t) = u at h
    cases h with
    | nil => cases hu
    | keep _ rest =>
      obtain ⟨rfl, rfl⟩ := List.cons.inj hu
      obtain ⟨s', rfl, later⟩ := ih absent rest
      exact ⟨s', rfl, later⟩
    | patch _ _ =>
      cases r with
      | nil => cases hr
      | cons d r => exact absurd ((Option.some.inj hr).symm.trans (List.cons.inj hu).1.symm) other

/-- A beginning of the old text stays if nothing that is replaced starts inside it. -/
theorem exists_of_append_old (nonempty : ¬ gone [])
    (elsewhere : ∀ piece, gone piece → ∀ c ∈ piece.head?, c ∉ w)
    (h : Patched r kept gone (w ++ s) t) : ∃ t', t = w ++ t' ∧ Patched r kept gone s t' := by
  induction w generalizing t with
  | nil => exact ⟨t, rfl, h⟩
  | cons c w ih =>
    have later : ∀ piece, gone piece → ∀ d ∈ piece.head?, d ∉ w := fun piece removed d first mem =>
      elsewhere piece removed d first (List.mem_cons_of_mem _ mem)
    rw [List.cons_append] at h
    generalize hu : c :: (w ++ s) = u at h
    cases h with
    | nil => cases hu
    | keep _ rest =>
      obtain ⟨rfl, rfl⟩ := List.cons.inj hu
      obtain ⟨t', rfl, stays⟩ := ih later rest
      exact ⟨t', rfl, stays⟩
    | @patch piece _ _ removed _ =>
      cases piece with
      | nil => exact absurd removed nonempty
      | cons d piece =>
        obtain rfl := (List.cons.inj hu).1
        exact absurd List.mem_cons_self (elsewhere _ removed _ rfl)

end SnippetAudit.Text.Patched

namespace SnippetAudit.Fix

open Text Finding Battery

/-! ### Signs beside a word -/

/-- Beside a `==`, which is given by the text on either side of it, stand the letters of `None` with nothing
but blanks between. `alone` says what is asked of the text in front of the letters and behind them. -/
def BesideNone (alone : List Char → List Char → Prop) (pre post : List Char) : Prop :=
  (∃ gap back, (∀ c ∈ gap, isBlank c = true) ∧ post = gap ++ ("None".toList ++ back) ∧
    alone (pre ++ ("==".toList ++ gap)) back) ∨
  ∃ front gap, (∀ c ∈ gap, isBlank c = true) ∧ pre = front ++ ("None".toList ++ gap) ∧
    alone front (gap ++ ("==".toList ++ post))

/-- Nothing is asked of what stands around the letters. -/
def Anywhere (_ _ : List Char) : Prop := True

/-- No word character stands right in front of the letters, and none right behind them. -/
def WholeWord (front back : List Char) : Prop :=
  front.getLast?.any isWordChar = false ∧ back.head?.any isWordChar = false

/-- Somewhere on a line a `==` stands beside the letters of `None`. -/
def SignBesideNone (alone : List Char → List Char → Prop) (line : List Char) : Prop :=
  ∃ pre post, line = pre ++ ("==".toList ++ post) ∧ BesideNone alone pre post

instance (front back : List Char) : Decidable (WholeWord front back) := by
  unfold WholeWord
  infer_instance

/-- Such letters have a place on the line. -/
theorem SignBesideNone.exists_index {alone : List Char → List Char → Prop} {line : List Char}
    (h : SignBesideNone alone line) :
    ∃ i < line.length, "None".toList <+: line.drop i ∧ alone (line.take i) (line.drop (i + 4)) := by
  obtain ⟨front, back, rfl, stands⟩ :
      ∃ front back, line = front ++ ("None".toList ++ back) ∧ alone front back := by
    obtain ⟨pre, post, rfl, ⟨gap, back, -, rfl, stands⟩ | ⟨front, gap, -, rfl, stands⟩⟩ := h
    · exact ⟨_, back, by simp, stands⟩
    · exact ⟨front, _, by simp, stands⟩
  refine ⟨front.length, by simp, ?_, ?_⟩
  · rw [List.drop_left]
    exact List.prefix_append _ _
  · rw [List.take_left, ← List.drop_drop, List.drop_left]
    exact stands

/-- The second text is the first with `is` for some `==`, and one blank for any beside them. `beside` holds of
what stands around each of these in the whole line, of which `front` is already read. -/
inductive ByIdentity (beside : List Char → List Char → Prop) :
    List Char → List Char → List Char → Prop where
  | nil {front : List Char} : ByIdentity beside front [] []
  | keep {front s t : List Char} {c : Char} : ByIdentity beside (front ++ [c]) s t →
      ByIdentity beside front (c :: s) (c :: t)
  | right {front gap s t : List Char} : (∀ c ∈ gap, isBlank c = true) → beside front (gap ++ s) →
      ByIdentity beside (front ++ ("==".toList ++ gap)) s t →
      ByIdentity beside front ("==".toList ++ (gap ++ s)) ("is ".toList ++ t)
  | left {front gap s t : List Char} : (∀ c ∈ gap, isBlank c = true) → beside (front ++ gap) s →
      ByIdentity beside (front ++ (gap ++ "==".toList)) s t →
      ByIdentity beside front (gap ++ ("==".toList ++ s)) (" is".toList ++ t)

namespace ByIdentity

variable {beside beside' : List Char → List Char → Prop} {front s t : List Char}

/-- Text that is kept may stand in front. -/
theorem append (w : List Char) (h : ByIdentity beside (front ++ w) s t) :
    ByIdentity beside front (w ++ s) (w ++ t) := by
  induction w generalizing front with
  | nil => rwa [List.append_nil] at h
  | cons c w ih =>
    refine .keep (ih ?_)
    rwa [List.append_assoc]

/-- Of what stands around the signs more may be known from the line. -/
theorem imp (h : ByIdentity beside front s t)
    (more : ∀ pre post, front ++ s = pre ++ ("==".toList ++ post) → beside pre post → beside' pre post) :
    ByIdentity beside' front s t := by
  induction h with
  | nil => exact .nil
  | keep _ ih => exact .keep (ih (by simpa using more))
  | right blank here _ ih => exact .right blank (more _ _ rfl here) (ih (by simpa using more))
  | left blank here _ ih =>
    exact .left blank (more _ _ (by simp) here) (ih (by simpa using more))

end ByIdentity

/-! ### The two passes -/

section Passes

variable {front s mid t : List Char}

/-- What the first pass makes of a line, and what the second does. -/
abbrev RightPass : List Char → List Char → Prop :=
  Patched "is None".toList (fun _ => True) (Gapped "==" "None")

/-- What the second pass makes of a line. -/
abbrev LeftPass : List Char → List Char → Prop :=
  Patched "None is".toList (fun _ => True) (Gapped "None" "==")

/-- What both passes make of a line is made by putting `is` for signs beside the letters of `None`. -/
theorem byIdentity_of_passes (right : RightPass s mid) (left : LeftPass mid t) :
    ByIdentity (BesideNone Anywhere) front s t := by
  induction size : s.length using Nat.strong_induction_on generalizing front s mid t with
  | _ n ih =>
    subst size
    cases left with
    | nil =>
      generalize hm : ([] : List Char) = m at right
      cases right with
      | nil => exact .nil
      | keep _ _ => cases hm
      | patch _ _ => cases hm
    | @patch piece mid t gone left =>
      -- The letters and the sign of the second pass were there before the first.
      obtain ⟨gap, blank, rfl⟩ := gone
      have absent : 'i' ∉ "None".toList ++ (gap ++ "==".toList) := by
        have apart := not_mem_of_blank blank (c := 'i') (by decide)
        simp [apart]
      obtain ⟨s, rfl, right'⟩ := right.exists_of_append_new rfl absent
      have here : BesideNone Anywhere (front ++ "None".toList ++ gap) s :=
        .inr ⟨front, gap, blank, by simp, trivial⟩
      have shorter : s.length < ("None".toList ++ (gap ++ "==".toList) ++ s).length := by
        simp
        omega
      have rest := ByIdentity.left blank here (ih _ shorter right' left rfl)
      simpa using ByIdentity.append "None".toList rest
    | @keep c mid t _ left =>
      generalize hm : c :: mid = m at right
      cases right with
      | nil => cases hm
      | keep _ right =>
        obtain ⟨rfl, rfl⟩ := List.cons.inj hm
        exact .keep (ih _ (Nat.lt_succ_self _) right left rfl)
      | @patch piece s mid' gone right =>
        -- The second pass may still need the letters that the first has put back.
        obtain ⟨gap, blank, rfl⟩ := gone
        obtain ⟨rfl, rfl⟩ : c = 'i' ∧ mid = "s ".toList ++ ("None".toList ++ mid') := by
          simpa using hm
        have elsewhere : ∀ piece, Gapped "None" "==" piece → ∀ c ∈ piece.head?, c ∉ "s ".toList := by
          rintro _ ⟨_, -, rfl⟩ c first
          obtain rfl : 'N' = c := Option.some.inj first
          decide
        have nonempty : ¬ Gapped "None" "==" [] := fun none => none.ne_nil visible_equals rfl
        obtain ⟨t, rfl, left'⟩ := left.exists_of_append_old nonempty elsewhere
        have again : RightPass ("None".toList ++ s) ("None".toList ++ mid') :=
          right.append (fun _ => trivial) _
        have here : BesideNone Anywhere front (gap ++ ("None".toList ++ s)) :=
          .inl ⟨gap, s, blank, rfl, trivial⟩
        have shorter : ("None".toList ++ s).length <
            ("==".toList ++ (gap ++ "None".toList) ++ s).length := by
          simp
          omega
        have rest := ByIdentity.right blank here (ih _ shorter again left' rfl)
        simpa using rest

end Passes

/-- **The rewrite of a line puts `is` for signs beside the letters of `None`, and for no other.** -/
theorem byIdentity_compareByIdentity (line : String) :
    ByIdentity (BesideNone Anywhere) [] line.toList (compareByIdentity line).toList := by
  have right : RightPass line.toList (rightByIdentity line).toList := by
    rw [rightByIdentity, toList_rewriteLine]
    exact (patched_replace (sized_gapped visible_none) _ _).imp fun _ => gapped_of_matchedBy visible_none
  have left : LeftPass (rightByIdentity line).toList (compareByIdentity line).toList := by
    rw [compareByIdentity_eq, toList_rewriteLine]
    exact (patched_replace (sized_gapped visible_equals) _ _).imp fun _ =>
      gapped_of_matchedBy visible_equals
  exact byIdentity_of_passes right left

/-- The pattern is found exactly where a sign stands beside the letters of `None`. -/
theorem foundOn_noneComparison_iff {line : String} :
    foundOn noneComparison line = true ↔ SignBesideNone Anywhere line.toList := by
  rw [foundOn_noneComparison, Bool.or_eq_true, foundOn, foundOn, noneOnRight, noneOnLeft,
    occurs_gapped_iff visible_none, occurs_gapped_iff visible_equals]
  constructor
  · rintro (⟨_, ⟨gap, blank, rfl⟩, pre, post, cut⟩ | ⟨_, ⟨gap, blank, rfl⟩, pre, post, cut⟩)
    · exact ⟨pre, gap ++ ("None".toList ++ post), by simp [← cut], .inl ⟨gap, post, blank, rfl, trivial⟩⟩
    · exact ⟨pre ++ ("None".toList ++ gap), post, by simp [← cut],
        .inr ⟨pre, gap, blank, rfl, trivial⟩⟩
  · rintro ⟨pre, post, cut, ⟨gap, back, blank, rfl, -⟩ | ⟨front, gap, blank, rfl, -⟩⟩
    · exact .inl ⟨_, ⟨gap, blank, rfl⟩, pre, back, by simp [cut]⟩
    · exact .inr ⟨_, ⟨gap, blank, rfl⟩, front, post, by simp [cut]⟩

/-! ### The fixes of a text -/

/-- **Which comparisons are rewritten.** A fix is for exactly the lines with a `==` beside the letters of
`None`, and it replaces only such signs. Where every one of them on its line stands beside the whole word
`None`, there is one, and all that it replaces stand beside the whole word. -/
theorem comparisons_beside_none (read : Python.Reader) (counter : Nat) (code : String) :
    (∀ i, FixOn (generateBy read counter code .python).1 identityLead i ↔
      ∃ line, (i, line) ∈ numberedLines code ∧ SignBesideNone Anywhere line.toList) ∧
    ∀ f ∈ (generateBy read counter code .python).1, Titled identityLead f.title →
      (f.first, f.before) ∈ numberedLines code ∧ f.last = f.first ∧
      SignBesideNone Anywhere f.before.toList ∧
      ByIdentity (BesideNone Anywhere) [] f.before.toList f.after.toList ∧
      ((∀ pre post, f.before.toList = pre ++ ("==".toList ++ post) →
          BesideNone Anywhere pre post → BesideNone WholeWord pre post) →
        SignBesideNone WholeWord f.before.toList ∧
        ByIdentity (BesideNone WholeWord) [] f.before.toList f.after.toList) := by
  have known : answers_noneComparisonFix.toRule code ∈ rulesOf read code .python := by simp [rulesOf]
  constructor
  · intro i
    rw [fixOn_iff answers_noneComparisonFix known, FoundAt]
    exact exists_congr fun line => and_congr_right fun _ => foundOn_noneComparison_iff
  · intro f mem titled
    obtain ⟨p, proposed, n, rfl⟩ := exists_of_mem_numbered mem
    obtain ⟨⟨number, line⟩, numbered, found⟩ :=
      List.mem_filterMap.mp (mem_noneComparisonFix_of_titled proposed titled)
    obtain ⟨flawed, first, last, rfl, after⟩ := lightens_noneComparisonFix.edits found
    have beside : SignBesideNone Anywhere p.before.toList := foundOn_noneComparison_iff.mp flawed
    have rewritten : ByIdentity (BesideNone Anywhere) [] p.before.toList p.after.toList := by
      rw [after]
      exact byIdentity_compareByIdentity p.before
    refine ⟨?_, last.trans first.symm, beside, rewritten, ?_⟩
    · rw [show (p.toFix n).first = number from first]
      exact numbered
    · intro whole
      obtain ⟨pre, post, cut, here⟩ := beside
      exact ⟨⟨pre, post, cut, whole pre post cut here⟩, rewritten.imp whole⟩

/-- A sign of a line has a place there, and the text around it is told by the place. -/
theorem exists_index_of_sign {line pre post : List Char}
    (cut : line = pre ++ ("==".toList ++ post)) :
    ∃ i < line.length, "==".toList <+: line.drop i ∧ pre = line.take i ∧ post = line.drop (i + 2) := by
  refine ⟨pre.length, by simp [cut], ?_, ?_, ?_⟩
  · rw [cut, List.drop_left]
    exact List.prefix_append _ _
  · rw [cut, List.take_left]
  · rw [cut, ← List.drop_drop, List.drop_left]
    rfl

/-- Where the one sign of a line stands beside the literal, only that is touched. -/
theorem comparisons_beside_none_of_literal :
    ∃ f ∈ (generateBy Python.readTree 0 "ok = x ==  None" .python).1, Titled identityLead f.title ∧
      f.before = "ok = x ==  None" ∧ f.after = "ok = x is None" ∧
      SignBesideNone WholeWord f.before.toList ∧
      ByIdentity (BesideNone WholeWord) [] f.before.toList f.after.toList := by
  have proposed : ∃ f ∈ (generateBy Python.readTree 0 "ok = x ==  None" .python).1,
      Titled identityLead f.title ∧ f.before = "ok = x ==  None" ∧ f.after = "ok = x is None" := by
    decide +kernel
  obtain ⟨f, mem, titled, before, after⟩ := proposed
  obtain ⟨-, -, -, -, literal⟩ :=
    (comparisons_beside_none Python.readTree 0 "ok = x ==  None").2 f mem titled
  refine ⟨f, mem, titled, before, after, literal ?_⟩
  intro pre post cut _
  rw [before] at cut
  obtain ⟨i, inside, sign, rfl, rfl⟩ := exists_index_of_sign cut
  have only : ∀ i < "ok = x ==  None".toList.length,
      "==".toList <+: "ok = x ==  None".toList.drop i → i = 7 := by decide
  obtain rfl := only i inside sign
  exact .inl ⟨"  ".toList, [], List.all_eq_true.mp rfl, by decide, by decide⟩

/-- A name that begins with the letters of `None` is compared by identity, for no sign of its line stands
beside the whole word. -/
theorem name_compared_by_identity :
    ∃ f ∈ (generate 0 "x == NoneType" .python).1, Titled identityLead f.title ∧ f.automatic = true ∧
      f.before = "x == NoneType" ∧ f.after = "x is NoneType" ∧
      ¬ SignBesideNone WholeWord "x == NoneType".toList := by
  have proposed : ∃ f ∈ (generate 0 "x == NoneType" .python).1, Titled identityLead f.title ∧
      f.automatic = true ∧ f.before = "x == NoneType" ∧ f.after = "x is NoneType" := by
    decide +kernel
  obtain ⟨f, mem, titled, automatic, before, after⟩ := proposed
  refine ⟨f, mem, titled, automatic, before, after, ?_⟩
  intro sign
  obtain ⟨i, inside, letters, whole⟩ := sign.exists_index
  revert i
  decide

end SnippetAudit.Fix
