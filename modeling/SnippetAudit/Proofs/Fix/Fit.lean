import SnippetAudit.Proofs.Fix.Proposal
import SnippetAudit.Proofs.Fix.Loop

/-!
Every proposal fits the text for which it was made: it is for lines that are there, quotes them as they
are, and changes the text when it is applied (`Fits`).

A rule for lines edits the line it was given (`EditsLine`), and it suffices that it puts something else
there (`EditsLine.fits`). The rules that have to be asked for lengthen what they replace
(`rewriteLine_ne`). A comprehension takes the place of two lines and has no newline of its own, so it
leaves one line fewer.
-/

namespace SnippetAudit.Fix

open Text Finding Battery

/-- A proposal for lines of a text that quotes them and changes the text. -/
structure Fits (code : String) (p : Proposal) : Prop where
  one_le_first : 1 ≤ p.first
  first_le_last : p.first ≤ p.last
  last_le : p.last ≤ (lines code).length
  before_eq : p.before = unlines (((lines code).take p.last).drop (p.first - 1))
  changes : ∀ n, ∃ fixed, apply code (p.toFix n) = .ok fixed ∧ fixed ≠ code

/-! ### Proposals for one line -/

/-- **A proposal for one line fits** if it puts something else there, or deletes a line of a text that is
not empty. -/
theorem EditsLine.fits {code : String} {pre post : List String} {p : Proposal}
    (h : EditsLine code pre post p) (changed : p.after ≠ p.before ∨ p.after = "" ∧ code ≠ "") :
    Fits code p where
  one_le_first := by
    rw [h.first_eq]
    exact Nat.succ_pos _
  first_le_last := by rw [h.first_eq, h.last_eq]
  last_le := by simp [h.last_eq, h.lines_eq]
  before_eq := by
    have whole : (pre ++ p.before :: post).take (pre.length + 1) = pre ++ [p.before] := by
      simp [List.take_append]
    rw [h.lines_eq, h.first_eq, h.last_eq, whole, Nat.add_sub_cancel, List.drop_left,
      unlines_singleton]
  changes := by
    intro n
    refine ⟨_, h.apply_eq n, ?_⟩
    have text : unlines (pre ++ p.before :: post) = code := by rw [← h.lines_eq, unlines_lines]
    have old : ∀ l ∈ pre ++ p.before :: post, IsLine l := by
      rw [← h.lines_eq]
      exact fun l mem => isLine_of_mem_lines mem
    rw [replacement]
    split
    next deleted =>
      rw [List.append_nil]
      by_cases only : pre ++ post = []
      · -- The only line is deleted, so it has to be another than the one that is left.
        rw [only, unlines_nil]
        rw [List.append_eq_nil_iff] at only
        rw [only.1, only.2, List.nil_append, unlines_singleton] at text
        rcases changed with changed | ⟨-, nonempty⟩
        · rwa [deleted, text] at changed
        · exact nonempty.symm
      · refine unlines_ne_of_length_ne only (fun l mem => old l ?_) ?_
        · rcases List.mem_append.mp mem with mem | mem <;> simp [mem]
        · rw [h.lines_eq, List.length_append, List.length_append, List.length_cons]
          omega
    next kept =>
      have other : p.after ≠ p.before := changed.resolve_right fun deleted => kept deleted.1
      rw [List.append_assoc, List.singleton_append]
      intro same
      rw [← text] at same
      exact other (unlines_append_cons_inj same)

/-- A rule for lines that edits the line it is given, and changes it. -/
def ChangesLine (rule : Nat → String → Option Proposal) : Prop :=
  ∀ number line p, rule number line = some p →
    p.first = number ∧ p.last = number ∧ p.before = line ∧ p.after ≠ line

theorem ChangesLine.fits {rule : Nat → String → Option Proposal} {code : String} {p : Proposal}
    (changes : ChangesLine rule) (mem : p ∈ eachLine rule code) : Fits code p := by
  obtain ⟨pre, line, post, cut, found⟩ := mem_eachLine.mp mem
  obtain ⟨first, last, rfl, changed⟩ := changes _ _ _ found
  exact EditsLine.fits ⟨cut, first, last⟩ (.inl changed)

/-- A rule that makes lines lighter changes them. -/
theorem Lightens.changesLine {language : Language} {flaw : String → Bool} {f : String → String}
    {rule : Nat → String → Option Proposal} (h : Lightens language flaw f rule) :
    ChangesLine rule := by
  intro number line p found
  obtain ⟨flawed, first, last, before, after⟩ := h.edits found
  refine ⟨first, last, before, ?_⟩
  rw [after]
  intro same
  have lighter := h.lighter flawed
  rw [same] at lighter
  exact Nat.lt_irrefl _ lighter

/-! ### Rewrites that lengthen a line -/

/-- A line is changed when something on it is replaced by something longer. -/
theorem rewriteLine_ne {m : Matcher} {f : List Char → List Char} (lengthens : Lengthens m f)
    {line : String} (found : foundOn m line = true) : rewriteLine m f line ≠ line := by
  intro same
  have longer := length_lt_length_replaceFrom lengthens found
  have equal := congrArg (fun s => s.toList.length) same
  simp only [toList_rewriteLine, replace] at equal
  omega

theorem gapped_pos {lead trail : String} (visible : Visible trail) {before : Option Char}
    {s : List Char} {n : Nat} (found : gapped lead trail before s = some n) : 0 < n :=
  (sized_gapped visible before s n found).1

theorem lengthens_plainEvalCall : Lengthens plainEvalCall evaluateLiterals := by
  intro before s n found
  constructor
  · unfold plainEvalCall at found
    split at found
    next k call =>
      cases found
      exact gapped_pos visible_parenthesis call
    next =>
      split at found
      · split at found
        · cases found
        · obtain ⟨k, -, rfl⟩ := Option.map_eq_some_iff.mp found
          exact Nat.succ_pos k
      · cases found
  · have inserted : "ast.literal_".toList.length = 12 := rfl
    rw [evaluateLiterals]
    simp only [List.length_append, List.length_drop, inserted]
    omega

theorem lengthens_varWord : Lengthens varWord fun _ => "const".toList := by
  intro before s n found
  have constant : "const".toList.length = 5 := rfl
  have three : n = 3 := by
    unfold varWord at found
    dsimp only at found
    split at found
    · exact (Option.some.inj (Option.ite_none_left_eq_some.mp found).2).symm
    · cases found
  simp only [three, constant, List.length_take]
  omega

theorem lengthens_innerHtmlAssignment : Lengthens innerHtmlAssignment
    fun found => "textContent".toList ++ found.drop "innerHTML".toList.length := by
  intro before s n found
  constructor
  · unfold innerHtmlAssignment at found
    split at found
    next k assigned =>
      have positive := gapped_pos visible_equalsSign assigned
      split at found
      · cases found
        exact positive
      · split at found <;> cases found
        exact Nat.succ_pos k
    next => cases found
  · have old : "innerHTML".toList.length = 9 := rfl
    have new : "textContent".toList.length = 11 := rfl
    simp only [List.length_append, List.length_drop, old, new]
    omega

/-- The usual form of a rule that lengthens what it replaces. -/
theorem ChangesLine.of_lengthens {rule : Nat → String → Option Proposal} {m : Matcher}
    {f : List Char → List Char} {q : Nat → String → Proposal} (lengthens : Lengthens m f)
    (rule_eq : ∀ number line, rule number line = if foundOn m line then some (q number line) else none)
    (edits : ∀ number line, (q number line).first = number ∧ (q number line).last = number ∧
      (q number line).before = line ∧ (q number line).after = rewriteLine m f line) :
    ChangesLine rule := by
  intro number line p found
  rw [rule_eq] at found
  split at found <;> cases found
  next matched =>
    obtain ⟨first, last, before, after⟩ := edits number line
    refine ⟨first, last, before, ?_⟩
    rw [after]
    exact rewriteLine_ne lengthens matched

theorem changesLine_evalCallFix : ChangesLine evalCallFix :=
  .of_lengthens lengthens_plainEvalCall (fun _ _ => rfl) fun _ _ => ⟨rfl, rfl, rfl, rfl⟩

theorem changesLine_varWordFix : ChangesLine varWordFix :=
  .of_lengthens lengthens_varWord (fun _ _ => rfl) fun _ _ => ⟨rfl, rfl, rfl, rfl⟩

theorem changesLine_innerHtmlFix : ChangesLine innerHtmlFix :=
  .of_lengthens lengthens_innerHtmlAssignment (fun _ _ => rfl) fun _ _ => ⟨rfl, rfl, rfl, rfl⟩

/-! ### Proposals that need the syntax tree -/

theorem withDocumentation_ne (before text : String) : withDocumentation before text ≠ before := by
  intro same
  have equal := congrArg (fun s => s.toList.length) same
  simp [withDocumentation] at equal

theorem fits_of_missingDocumentation {code : String} {d : Python.Definition} {p : Proposal}
    (inside : 1 ≤ d.line) (found : missingDocumentation (lines code) d = some p) : Fits code p := by
  obtain ⟨-, before, at_line, rfl⟩ := missingDocumentation_eq_some_iff.mp found
  obtain ⟨pre, post, cut, above⟩ := getElem?_eq_some_iff_append.mp at_line
  have place : d.line = pre.length + 1 := by omega
  exact EditsLine.fits ⟨cut, place, place⟩ (.inl (withDocumentation_ne _ _))

theorem fits_of_unusedImport {code : String} {b : Python.ImportBinding} {p : Proposal}
    (inside : 1 ≤ b.line) (nonempty : code ≠ "") (found : unusedImport (lines code) b = some p) :
    Fits code p := by
  obtain ⟨pre, post, mends⟩ := mends_of_unusedImport inside found
  obtain ⟨-, before, -, rfl⟩ := unusedImport_eq_some_iff.mp found
  exact mends.toEditsLine.fits (.inr ⟨rfl, nonempty⟩)

/-! ### Comprehensions -/

/-- The characters of an answer are characters of the text that was read. -/
theorem exists_of_firstAnswer {α : Type} {read : List Char → Option α} {s : List Char} {a : α}
    (found : firstAnswer read s = some a) : ∃ t, t <:+ s ∧ read t = some a := by
  induction s with
  | nil => exact ⟨[], List.suffix_rfl, found⟩
  | cons c rest ih =>
    rw [firstAnswer, Option.or_eq_some_iff] at found
    rcases found with found | ⟨-, found⟩
    · exact ⟨c :: rest, List.suffix_rfl, found⟩
    · obtain ⟨t, ht, found⟩ := ih found
      exact ⟨t, ht.trans (List.suffix_cons c rest), found⟩

theorem suffix_of_behind? {lead : String} {s t : List Char} (found : behind? lead s = some t) :
    t <:+ s := by
  rw [behind?] at found
  split at found <;> cases found
  exact List.drop_suffix _ _

theorem suffix_of_behindBlanks? {s t : List Char} (found : behindBlanks? s = some t) : t <:+ s := by
  unfold behindBlanks? at found
  split at found
  next c rest =>
    split at found <;> cases found
    exact (List.dropWhile_suffix _).trans (List.suffix_cons c rest)
  next => cases found

theorem word?_eq_some {s w t : List Char} (found : word? s = some (w, t)) : w <+: s ∧ t <:+ s := by
  unfold word? at found
  dsimp only at found
  split at found <;> cases found
  exact ⟨List.takeWhile_prefix _, List.drop_suffix _ _⟩

theorem prefix_of_upToLast? {mark : Char} {s t : List Char} (found : upToLast? mark s = some t) :
    t <+: s := by
  unfold upToLast? at found
  split at found
  next c front cut =>
    split at found <;> cases found
    have behind : front <:+ s.reverse := (List.suffix_cons c front).trans (cut ▸ List.dropWhile_suffix _)
    rwa [← List.reverse_suffix, List.reverse_reverse]
  next => cases found

theorem subset_of_appended? {s t : List Char} (found : appended? s = some t) : t ⊆ s := by
  obtain ⟨rest, called, found⟩ := Option.bind_eq_some_iff.mp found
  exact List.Subset.trans (prefix_of_upToLast? found).subset (suffix_of_behind? called).subset

theorem subset_of_appendTarget? {s t : List Char} (found : appendTarget? s = some t) : t ⊆ s := by
  obtain ⟨⟨w, rest⟩, word, found⟩ := Option.bind_eq_some_iff.mp found
  obtain ⟨_, -, found⟩ := Option.bind_eq_some_iff.mp found
  cases found
  exact (word?_eq_some word).1.subset

theorem subset_of_loopHead? {s variable' source : List Char}
    (found : loopHead? s = some (variable', source)) : variable' ⊆ s ∧ source ⊆ s := by
  obtain ⟨s₁, lead, found⟩ := Option.bind_eq_some_iff.mp found
  obtain ⟨s₂, blanks, found⟩ := Option.bind_eq_some_iff.mp found
  obtain ⟨⟨w, s₃⟩, word, found⟩ := Option.bind_eq_some_iff.mp found
  obtain ⟨s₄, blanks', found⟩ := Option.bind_eq_some_iff.mp found
  obtain ⟨gap, between, found⟩ := Option.bind_eq_some_iff.mp found
  obtain ⟨s₅, blanks'', found⟩ := Option.bind_eq_some_iff.mp found
  have whole : s₂ ⊆ s := ((suffix_of_behindBlanks? blanks).trans (suffix_of_behind? lead)).subset
  obtain ⟨inWord, behind⟩ := word?_eq_some word
  have gapSubset : gap ⊆ s :=
    List.Subset.trans
      (((suffix_of_behind? between).trans (suffix_of_behindBlanks? blanks')).trans behind).subset whole
  split at found
  next source' read =>
    cases found
    exact ⟨List.Subset.trans inWord.subset whole,
      List.Subset.trans (prefix_of_upToLast? read).subset
        (List.Subset.trans (suffix_of_behindBlanks? blanks'').subset gapSubset)⟩
  next =>
    split at found
    next c blank more _ _ cut =>
      cases found
      refine ⟨List.Subset.trans inWord.subset whole, ?_⟩
      rw [List.cons_subset]
      have inside : (blank :: more).getLast (by simp) ∈ c :: blank :: more :=
        List.mem_cons_of_mem c (List.getLast_mem _)
      rw [← cut] at inside
      exact ⟨gapSubset (List.mem_of_mem_take inside), List.nil_subset _⟩
    next => cases found

/-- A comprehension is for a line and the next, and has no newline of its own. -/
theorem comprehensionFix_eq_some {number : Nat} {head body : String} {p : Proposal}
    (headLine : IsLine head) (bodyLine : IsLine body)
    (found : comprehensionFix number head body = some p) :
    p.first = number ∧ p.last = number + 1 ∧ p.before = head ++ "\n" ++ body ∧ IsLine p.after := by
  rw [comprehensionFix] at found
  split at found
  · cases found
  · obtain ⟨⟨variable', source⟩, loop, found⟩ := Option.bind_eq_some_iff.mp found
    obtain ⟨element, argument, found⟩ := Option.bind_eq_some_iff.mp found
    cases found
    refine ⟨rfl, rfl, rfl, ?_⟩
    have ofHead {t cs : List Char} (ht : t <:+ head.toList) (sub : cs ⊆ t) : '\n' ∉ cs :=
      fun mem => headLine (ht.subset (sub mem))
    have ofBody {t cs : List Char} (ht : t <:+ body.toList) (sub : cs ⊆ t) : '\n' ∉ cs :=
      fun mem => bodyLine (ht.subset (sub mem))
    obtain ⟨t, ht, read⟩ := exists_of_firstAnswer loop
    obtain ⟨variableSubset, sourceSubset⟩ := subset_of_loopHead? read
    obtain ⟨u, hu, call⟩ := exists_of_firstAnswer argument
    have indent : '\n' ∉ head.toList.takeWhile isBlank :=
      ofHead List.suffix_rfl (List.takeWhile_prefix _).subset
    have target : '\n' ∉ (firstAnswer appendTarget? body.toList).getD "result".toList := by
      cases named : firstAnswer appendTarget? body.toList with
      | none => decide
      | some w =>
        obtain ⟨v, hv, word⟩ := exists_of_firstAnswer named
        exact ofBody hv (subset_of_appendTarget? word)
    simp only [IsLine, String.toList_ofList, List.mem_append, indent, target,
      ofHead ht variableSubset, ofHead ht sourceSubset, ofBody hu (subset_of_appended? call),
      or_false, false_or]
    decide

/-- **A comprehension fits**: it leaves one line fewer. -/
theorem fits_of_mem_comprehensions {code : String} {p : Proposal}
    (mem : p ∈ comprehensions 1 (lines code)) : Fits code p := by
  obtain ⟨pre, head, body, post, cut, -, found⟩ := mem_comprehensions mem
  have old : ∀ l ∈ pre ++ head :: body :: post, IsLine l := by
    rw [← cut]
    exact fun l mem => isLine_of_mem_lines mem
  obtain ⟨first, last, before, clean⟩ :=
    comprehensionFix_eq_some (old head (by simp)) (old body (by simp)) found
  have middle : (pre ++ head :: body :: post).take (pre.length + 2) = pre ++ [head, body] := by
    simp [List.take_append]
  have place : p.first = pre.length + 1 := by omega
  have end' : p.last = pre.length + 2 := by omega
  refine ⟨by omega, by omega, ?_, ?_, ?_⟩
  · rw [end', cut]
    simp
  · rw [end', place, cut, middle, Nat.add_sub_cancel, List.drop_left, unlines_pair, before]
  · intro n
    have covers : Covers code (p.toFix n) pre [head, body] post :=
      ⟨by simp [cut], by simp, place, end'⟩
    have several : (p.toFix n).first ≠ (p.toFix n).last := by
      rw [covers.first_eq, covers.last_eq]
      simp
    have fewer : newLines (p.toFix n) = [p.after] := by
      rw [newLines_of_ne several]
      exact lines_eq_singleton clean
    refine ⟨_, covers.apply_eq, unlines_ne_of_length_ne ?_ (fun _ => covers.isLine_of_mem) ?_⟩
    · simp [fewer]
    · rw [fewer, cut]
      simp

/-! ### The batteries -/

/-- **Every proposal fits the text for which it was made**, unless something is imported on the one line of
the empty text. -/
theorem fits_of_mem_proposals {read : Python.Reader} {language : Language} {code : String}
    {p : Proposal} (unimported : (read.outline "").imports = [])
    (mem : p ∈ proposalsBy read language code) : Fits code p := by
  have script (mem : p ∈ Battery.script code) : Fits code p := by
    simp only [Battery.script, List.mem_append] at mem
    rcases mem with (mem | mem) | mem
    · exact (lightens_looseEqualityFix (.inl rfl)).changesLine.fits mem
    · exact changesLine_varWordFix.fits mem
    · exact changesLine_innerHtmlFix.fits mem
  cases language with
  | python =>
    simp only [proposalsBy, Battery.python, List.mem_append] at mem
    rcases mem with (((((mem | mem) | mem) | mem) | mem) | mem) | mem
    · obtain ⟨b, mem, found⟩ := List.mem_filterMap.mp mem
      refine fits_of_unusedImport (Python.Reader.one_le_line_of_mem_imports mem) ?_ found
      rintro rfl
      rw [unimported] at mem
      cases mem
    · exact lightens_trailingBlanks.changesLine.fits mem
    · obtain ⟨d, mem, found⟩ := List.mem_filterMap.mp mem
      exact fits_of_missingDocumentation (Python.Reader.one_le_line_of_mem_definitions mem) found
    · exact lightens_noneComparisonFix.changesLine.fits mem
    · exact lightens_bareExceptFix.changesLine.fits mem
    · exact fits_of_mem_comprehensions mem
    · exact changesLine_evalCallFix.fits mem
  | javascript => exact script mem
  | typescript => exact script mem
  | java => cases mem
  | cpp => cases mem

/-- **Every fix fits the text for which it was made.** Its range lies within the lines of the text, it
quotes the lines of its range, its diff is that of what it quotes and what it puts in its place, and it can
be applied and changes the text. -/
theorem generate_fits (read : Python.Reader) (unimported : (read.outline "").imports = [])
    (counter : Nat) (code : String) (language : Language) :
    ∀ f ∈ (generateBy read counter code language).1,
      1 ≤ f.first ∧ f.first ≤ f.last ∧ f.last ≤ (lines code).length ∧
        f.before = unlines (((lines code).take f.last).drop (f.first - 1)) ∧
        f.diff = renderDiff f.before f.after ∧
        ∃ fixed, apply code f = .ok fixed ∧ fixed ≠ code := by
  intro f numbered
  obtain ⟨p, mem, n, rfl⟩ := exists_of_mem_numbered numbered
  have fits := fits_of_mem_proposals unimported mem
  exact ⟨fits.one_le_first, fits.first_le_last, fits.last_le, fits.before_eq, rfl, fits.changes n⟩

theorem generate_fits_two_lines :
    (Python.Reader.outline Python.readTree "").imports = [] ∧
      (generate 0 "import os\nx == None " .python).1.map Fix.first = [1, 2, 2] ∧
      ∀ f ∈ (generate 0 "import os\nx == None " .python).1,
        f.last ≤ 2 ∧ ∃ fixed, apply "import os\nx == None " f = .ok fixed ∧
          fixed ≠ "import os\nx == None " := by
  have unimported : (Python.Reader.outline Python.readTree "").imports = [] := by decide +kernel
  refine ⟨unimported, by decide +kernel, ?_⟩
  intro f mem
  obtain ⟨-, -, last, -, -, applied⟩ :=
    generate_fits Python.readTree unimported 0 "import os\nx == None " .python f mem
  exact ⟨last, applied⟩

end SnippetAudit.Fix
