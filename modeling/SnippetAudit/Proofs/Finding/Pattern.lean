import Mathlib.Data.List.Infix
import SnippetAudit.Finding.Pattern
import SnippetAudit.Proofs.Text.Replace

/-!
What the patterns of two parts with blanks between them match, said without the search: `gapped lead
trail` occurs in a text exactly where one of the words `Gapped lead trail` stands
(`occurs_gapped_iff`).

A replacement that stays clear of these words (`Clear`) leaves none of them where the pattern itself
is replaced (`occurs_replace_gapped`) and makes none where something else is
(`occurs_of_occurs_patched`).
-/

namespace SnippetAudit.Finding

open Text

/-! ### Words with a gap -/

/-- The words of two parts with any blanks between them. -/
def Gapped (lead trail : String) (w : List Char) : Prop :=
  ∃ gap : List Char, (∀ c ∈ gap, isBlank c = true) ∧ w = lead.toList ++ (gap ++ trail.toList)

/-- A text that begins with something other than a blank. -/
def Visible (s : String) : Prop := ∃ c ∈ s.toList.head?, isBlank c = false

theorem visible_parenthesis : Visible "(" := ⟨'(', by decide, by decide⟩

theorem visible_equalsSign : Visible "=" := ⟨'=', by decide, by decide⟩

/-- What is no blank is not among blanks. -/
theorem not_mem_of_blank {gap : List Char} {c : Char} (blank : ∀ c ∈ gap, isBlank c = true)
    (seen : isBlank c = false) : c ∉ gap := by
  intro mem
  rw [blank c mem] at seen
  cases seen

section Gapped

variable {lead trail : String} {before : Option Char} {s w : List Char} {n : Nat}

theorem Gapped.ne_nil (visible : Visible trail) (h : Gapped lead trail w) : w ≠ [] := by
  obtain ⟨c, hc, -⟩ := visible
  obtain ⟨gap, -, rfl⟩ := h
  intro nil
  simp only [List.append_eq_nil_iff] at nil
  rw [nil.2.2] at hc
  cases hc

/-- The blanks behind the first part end where the second part begins. -/
theorem takeWhile_isBlank_append (visible : Visible trail) {gap : List Char}
    (blank : ∀ c ∈ gap, isBlank c = true) (post : List Char) :
    (gap ++ (trail.toList ++ post)).takeWhile isBlank = gap := by
  obtain ⟨c, hc, hblank⟩ := visible
  cases htrail : trail.toList with
  | nil => simp [htrail] at hc
  | cons d rest =>
    have hd : isBlank d = false := by
      rw [htrail, List.head?_cons, Option.mem_some] at hc
      rw [hc]
      exact hblank
    rw [List.takeWhile_append_of_pos blank]
    simp [hd]

/-- **A match is such a word**, and every such word is a match. -/
theorem gapped_eq_some_iff (visible : Visible trail) :
    gapped lead trail before s = some n ↔ ∃ w, Gapped lead trail w ∧ w <+: s ∧ n = w.length := by
  constructor
  · intro h
    rw [gapped] at h
    split at h
    · rename_i hlead
      obtain ⟨behind, rfl⟩ := List.isPrefixOf_iff_prefix.mp hlead
      rw [List.drop_left] at h
      dsimp only at h
      split at h
      · rename_i htrail
        obtain ⟨post, hpost⟩ := List.isPrefixOf_iff_prefix.mp htrail
        have cut := List.prefix_iff_eq_append.mp (List.takeWhile_prefix isBlank (l := behind))
        refine ⟨_, ⟨behind.takeWhile isBlank, ?_, rfl⟩, ⟨post, ?_⟩, ?_⟩
        · exact List.all_eq_true.mp List.all_takeWhile
        · rw [List.append_assoc, List.append_assoc, hpost, cut]
        · rw [← Option.some.inj h, List.length_append, List.length_append, Nat.add_assoc]
      · cases h
    · cases h
  · rintro ⟨w, ⟨gap, blank, rfl⟩, ⟨post, rfl⟩, rfl⟩
    have hlead : lead.toList.isPrefixOf (lead.toList ++ (gap ++ trail.toList) ++ post) = true :=
      List.isPrefixOf_iff_prefix.mpr ⟨gap ++ trail.toList ++ post, by simp⟩
    rw [gapped, if_pos hlead]
    simp only [List.append_assoc, List.drop_left, takeWhile_isBlank_append visible blank]
    rw [if_pos (List.isPrefixOf_iff_prefix.mpr (List.prefix_append _ _))]
    simp [Nat.add_assoc]

theorem isSome_gapped_iff (visible : Visible trail) :
    (gapped lead trail before s).isSome = true ↔ ∃ w, Gapped lead trail w ∧ w <+: s := by
  rw [Option.isSome_iff_exists]
  constructor
  · rintro ⟨n, found⟩
    obtain ⟨w, hw, hs, -⟩ := (gapped_eq_some_iff visible).mp found
    exact ⟨w, hw, hs⟩
  · rintro ⟨w, hw, hs⟩
    exact ⟨w.length, (gapped_eq_some_iff visible).mpr ⟨w, hw, hs, rfl⟩⟩

theorem free_gapped (lead trail : String) : Free (gapped lead trail) := fun _ _ => rfl

theorem sized_gapped (visible : Visible trail) : Sized (gapped lead trail) := by
  intro before s n found
  obtain ⟨w, hw, hs, rfl⟩ := (gapped_eq_some_iff visible).mp found
  exact ⟨List.length_pos_iff.mpr (hw.ne_nil visible), hs.length_le⟩

/-- What is replaced is such a word. -/
theorem gapped_of_matchedBy (visible : Visible trail) {piece : List Char}
    (h : MatchedBy (gapped lead trail) piece) : Gapped lead trail piece := by
  obtain ⟨before, s, n, found, rfl⟩ := h
  obtain ⟨w, hw, hs, rfl⟩ := (gapped_eq_some_iff visible).mp found
  rw [← List.prefix_iff_eq_take.mp hs]
  exact hw

/-- **The pattern occurs exactly where one of its words stands.** -/
theorem occurs_gapped_iff (visible : Visible trail) :
    occurs (gapped lead trail) s = true ↔ ∃ w, Gapped lead trail w ∧ w <:+: s := by
  rw [occurs_iff (free_gapped lead trail) (sized_gapped visible)]
  constructor
  · rintro ⟨rest, hrest, found⟩
    obtain ⟨w, hw, hs⟩ := (isSome_gapped_iff visible).mp found
    exact ⟨w, hw, hs.isInfix.trans hrest.isInfix⟩
  · rintro ⟨w, hw, hs⟩
    obtain ⟨rest, hw', hrest⟩ := List.infix_iff_prefix_suffix.mp hs
    exact ⟨rest, hrest, (isSome_gapped_iff visible).mpr ⟨w, hw, hw'⟩⟩

/-- A part of a text has only what the text has. -/
theorem occurs_gapped_mono (visible : Visible trail) {t : List Char} (sub : t <:+: s)
    (h : occurs (gapped lead trail) t = true) : occurs (gapped lead trail) s = true := by
  obtain ⟨w, hw, ht⟩ := (occurs_gapped_iff visible).mp h
  exact (occurs_gapped_iff visible).mpr ⟨w, hw, ht.trans sub⟩

end Gapped

/-! ### Alternatives -/

theorem occursFrom_either (first second : Matcher) (before : Option Char) (s : List Char) :
    occursFrom (either first second) before s =
      (occursFrom first before s || occursFrom second before s) := by
  induction s generalizing before with
  | nil => rfl
  | cons c rest ih =>
    rw [occursFrom, occursFrom, occursFrom, ih, either, Option.isSome_or]
    cases (first before (c :: rest)).isSome <;> cases occursFrom first (some c) rest <;> simp

theorem occurs_either (first second : Matcher) (s : List Char) :
    occurs (either first second) s = (occurs first s || occurs second s) :=
  occursFrom_either first second none s

/-! ### Replacements that stay clear -/

/-- No word of two parts reaches across the edge of a replacement. -/
def Clear (lead trail : String) (r : List Char) : Prop :=
  ∀ w, Gapped lead trail w → Apart r w ∧ Apart w r

section Clear

variable {lead trail lead' trail' : String} {r s t : List Char} {kept gone : List Char → Prop}

/-- Patching a text with such a replacement makes no word. -/
theorem occurs_of_occurs_patched (visible : Visible trail) (clear : Clear lead trail r)
    (h : Patched r kept gone s t) (found : occurs (gapped lead trail) t = true) :
    occurs (gapped lead trail) s = true := by
  obtain ⟨w, hw, ht⟩ := (occurs_gapped_iff visible).mp found
  obtain ⟨ends, begins⟩ := clear w hw
  exact (occurs_gapped_iff visible).mpr
    ⟨w, hw, h.infix_of_patched (hw.ne_nil visible) ends begins ht⟩

/-- Replacing every word by such a replacement leaves none. -/
theorem occurs_replace_gapped (visible : Visible trail) (clear : Clear lead trail r) :
    occurs (gapped lead trail) (replace (gapped lead trail) (fun _ => r) s) = false := by
  rw [Bool.eq_false_iff]
  intro found
  obtain ⟨w, hw, ht⟩ := (occurs_gapped_iff visible).mp found
  obtain ⟨ends, begins⟩ := clear w hw
  have patched := patched_replace (@sized_gapped lead trail visible) r s
  obtain ⟨rest, -, hrest, before, missed⟩ :=
    patched.exists_of_occurrence (hw.ne_nil visible) ends begins ht
  have matched : (gapped lead trail before rest).isSome = true :=
    (isSome_gapped_iff visible).mpr ⟨w, hw, hrest⟩
  rw [missed] at matched
  cases matched

/-- A replacement that puts the second part back changes only what is in front of it. -/
theorem patched_in_front (visible : Visible trail) :
    Patched r (fun _ => True) (fun _ => True) s
      (replace (gapped lead trail) (fun _ => r ++ trail.toList) s) := by
  refine Patched.inner (p := []) ?_ (patched_replace (sized_gapped visible) (r ++ trail.toList) s)
  intro piece hpiece
  obtain ⟨gap, -, rfl⟩ := gapped_of_matchedBy visible hpiece
  exact ⟨lead.toList ++ gap, by simp⟩

/-- A replacement that puts the first part back changes only what is behind it. -/
theorem patched_behind (visible : Visible trail) :
    Patched r (fun _ => True) (fun _ => True) s
      (replace (gapped lead trail) (fun _ => lead.toList ++ r) s) := by
  have patched := patched_replace (@sized_gapped lead trail visible) (lead.toList ++ r) s
  refine Patched.inner (q := []) ?_ (by rwa [List.append_nil])
  intro piece hpiece
  obtain ⟨gap, -, rfl⟩ := gapped_of_matchedBy visible hpiece
  exact ⟨gap ++ trail.toList, by simp⟩

/-! ### A test for replacements that stay clear -/

/-- Whether a text is told from any blanks with `trail` behind them by its first two characters. -/
def bars (trail y : List Char) : Bool :=
  match y with
  | _ :: b :: _ => !isBlank b && trail.head? != some b && !decide (Meets y trail)
  | _ => false

theorem not_meets_of_bars {gap trail y : List Char} (blank : ∀ c ∈ gap, isBlank c = true)
    (h : bars trail y = true) : ¬ Meets y (gap ++ trail) := by
  unfold bars at h
  split at h
  · rename_i a b rest
    simp only [Bool.and_eq_true, Bool.not_eq_true', bne_iff_ne, decide_eq_false_iff_not] at h
    obtain ⟨⟨hb, differs⟩, apart⟩ := h
    cases gap with
    | nil => exact apart
    | cons c gap =>
      -- Whatever comes second, a blank or the beginning of `trail`, differs.
      have second : (gap ++ trail).head? ≠ some b := by
        cases gap with
        | nil => exact differs
        | cons d gap =>
          rw [List.cons_append, List.head?_cons, ne_eq, Option.some.injEq]
          rintro rfl
          have := blank d (by simp)
          rw [hb] at this
          cases this
      cases behind : gap ++ trail with
      | nil =>
        rw [List.append_eq_nil_iff] at behind
        exact absurd (Or.inr (behind.2 ▸ List.nil_prefix)) apart
      | cons d others =>
        rw [behind, List.head?_cons, ne_eq, Option.some.injEq] at second
        simp [Meets, List.cons_prefix_cons, behind, second, Ne.symm second]
  · cases h

/-- Whether a replacement stays clear of the words of two parts, as the characters around their edges
tell. -/
def clears (lead trail r : List Char) : Bool :=
  (r.tails.all fun y => y.isEmpty ||
    (!decide (y <+: lead) && (!decide (lead <+: y) || bars trail (y.drop lead.length)))) &&
  (lead.tails.all fun l => !decide (r <+: l) && (!decide (l <+: r) || bars trail (r.drop l.length))) &&
  trail.tails.all fun y => y.isEmpty || !decide (Meets y r)

/-- **The test tells the truth.** An end of a word begins in its first part, in its gap or in its second
part; the first two cases are one, with nothing left of the first part in the gap. -/
theorem clear_of_clears (h : clears lead.toList trail.toList r = true) : Clear lead trail r := by
  rintro w ⟨gap, blank, rfl⟩
  simp only [clears, Bool.and_eq_true, List.all_eq_true, List.mem_tails, Bool.or_eq_true,
    List.isEmpty_iff, Bool.not_eq_true', decide_eq_false_iff_not] at h
  obtain ⟨⟨ofReplacement, ofLead⟩, ofTrail⟩ := h
  -- What is left of the first part, the whole gap and the second part do not meet the replacement.
  have front : ∀ l, l <:+ lead.toList → ∀ g, (∀ c ∈ g, isBlank c = true) →
      ¬ Meets r (l ++ (g ++ trail.toList)) := by
    intro l hl g hg meets
    obtain ⟨short, long⟩ := ofLead l hl
    rcases meets_append meets with hrl | ⟨hlr, meets⟩
    · exact short hrl
    · rcases long with hlr' | barred
      · exact hlr' hlr
      · exact not_meets_of_bars hg barred meets
  constructor
  · intro y nonempty hy meets
    rcases ofReplacement y hy with hnil | ⟨short, long⟩
    · exact nonempty hnil
    · rcases meets_append meets with hyl | ⟨hly, meets⟩
      · exact short hyl
      · rcases long with hly' | barred
        · exact hly' hly
        · exact not_meets_of_bars blank barred meets
  · intro y nonempty hy meets
    rcases suffix_append_cases hy with hy | ⟨l, rfl, hl⟩
    · rcases suffix_append_cases hy with hy | ⟨g, rfl, hg⟩
      · rcases ofTrail y hy with hnil | apart
        · exact nonempty hnil
        · exact apart meets
      · exact front [] List.nil_suffix g (fun c hc => blank c (hg.mem hc)) meets.symm
    · exact front l hl gap blank meets.symm

end Clear

end SnippetAudit.Finding
