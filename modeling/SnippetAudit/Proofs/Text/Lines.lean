import Mathlib.Data.List.DropRight
import SnippetAudit.Text.Lines

/-!
Cutting a text into lines and putting it together again are inverse to each other, as long as there
is a line and no line has a newline of its own (`unlines_lines`, `lines_unlines`). So lines may be
edited one by one: what `unlines` makes of the edited lines is cut into just these.

`trimEnd` cuts off exactly the trailing blanks; a line is left alone by it if and only if it does
not end with a blank. What is left where both sides are trimmed begins and ends with no blank
(`trimmed_iff`).
-/

namespace SnippetAudit.Text

/-! ### Cutting and joining -/

/-- `splitAt` is the cut of the standard library. -/
theorem splitAt_eq_splitOn (sep : Char) (cs : List Char) : splitAt sep cs = cs.splitOn sep := by
  induction cs with
  | nil => rw [List.splitOn_nil]; rfl
  | cons c rest ih =>
    rw [List.splitOn_cons_eq_if_modifyHead, splitAt, ih]
    by_cases h : c = sep
    · simp [h]
    · obtain ⟨piece, pieces, cut⟩ := List.exists_cons_of_ne_nil (List.splitOn_ne_nil sep rest)
      simp [h, cut]

/-- `joinWith` is the join of the standard library. -/
theorem joinWith_eq_intercalate (sep : Char) :
    ∀ pieces : List (List Char), joinWith sep pieces = [sep].intercalate pieces
  | [] => rfl
  | [piece] => by simp [joinWith]
  | piece :: next :: pieces => by
    rw [joinWith, joinWith_eq_intercalate sep (next :: pieces), List.intercalate_cons_cons]
    · simp
    · simp

/-- No piece holds the character at which the text was cut. -/
theorem sep_not_mem_of_mem_splitAt {sep : Char} {cs piece : List Char}
    (h : piece ∈ splitAt sep cs) : sep ∉ piece := by
  induction cs generalizing piece with
  | nil =>
    rw [List.mem_singleton.mp h]
    exact List.not_mem_nil
  | cons c rest ih =>
    rw [splitAt] at h
    by_cases hc : c = sep
    · rw [if_pos hc] at h
      rcases List.mem_cons.mp h with rfl | h
      · exact List.not_mem_nil
      · exact ih h
    · rw [if_neg hc] at h
      cases cut : splitAt sep rest with
      | nil =>
        rw [cut] at h
        rw [List.mem_singleton.mp h]
        simpa using Ne.symm hc
      | cons first others =>
        rw [cut] at h ih
        rcases List.mem_cons.mp h with rfl | h
        · have := ih List.mem_cons_self
          simp [Ne.symm hc, this]
        · exact ih (List.mem_cons_of_mem _ h)

/-! ### Lines -/

/-- A text without a newline. -/
def IsLine (s : String) : Prop := '\n' ∉ s.toList

theorem isLine_empty : IsLine "" := by
  simp [IsLine]

theorem isLine_of_mem_lines {text line : String} (h : line ∈ lines text) : IsLine line := by
  obtain ⟨piece, hpiece, rfl⟩ := List.mem_map.mp h
  simpa [IsLine] using sep_not_mem_of_mem_splitAt hpiece

theorem lines_empty : lines "" = [""] := by
  simp [lines, splitAt]

/-- Nothing is lost when a text is cut into lines. -/
theorem unlines_lines (text : String) : unlines (lines text) = text := by
  rw [unlines, lines, List.map_map]
  have same : String.toList ∘ String.ofList = id := by
    funext cs
    simp
  rw [same, List.map_id, joinWith_eq_intercalate, splitAt_eq_splitOn, List.intercalate_splitOn,
    String.ofList_toList]

/-- Lines come back from the text that they make up. -/
theorem lines_unlines {ls : List String} (nonempty : ls ≠ []) (clean : ∀ l ∈ ls, IsLine l) :
    lines (unlines ls) = ls := by
  have cut : splitAt '\n' (joinWith '\n' (ls.map String.toList)) = ls.map String.toList := by
    rw [joinWith_eq_intercalate, splitAt_eq_splitOn]
    refine List.splitOn_intercalate '\n' ?_ (by simpa using nonempty)
    intro piece hpiece
    obtain ⟨l, hl, rfl⟩ := List.mem_map.mp hpiece
    exact clean l hl
  rw [lines, unlines, String.toList_ofList, cut, List.map_map]
  have same : String.ofList ∘ String.toList = id := by
    funext s
    simp
  rw [same, List.map_id]

/-- The pieces of a text that is made up of texts are the pieces of all of them. -/
theorem splitAt_joinWith (sep : Char) {texts : List (List Char)} (nonempty : texts ≠ []) :
    splitAt sep (joinWith sep texts) = texts.flatMap (splitAt sep) := by
  induction texts with
  | nil => exact absurd rfl nonempty
  | cons text texts ih =>
    cases texts with
    | nil => simp [joinWith]
    | cons next texts =>
      rw [List.flatMap_cons, ← ih (List.cons_ne_nil _ _), joinWith, splitAt_eq_splitOn,
        List.splitOn_append_cons_self, ← splitAt_eq_splitOn, ← splitAt_eq_splitOn]
      simp

/-- **A text that is made up of texts has the lines of all of them.** -/
theorem lines_unlines_eq_flatMap {texts : List String} (nonempty : texts ≠ []) :
    lines (unlines texts) = texts.flatMap lines := by
  rw [lines, unlines, String.toList_ofList, splitAt_joinWith _ (by simpa using nonempty),
    List.flatMap_map, List.map_flatMap]
  rfl

theorem unlines_flatMap_lines (texts : List String) :
    unlines (texts.flatMap lines) = unlines texts := by
  by_cases none : texts = []
  · rw [none, List.flatMap_nil]
  · rw [← lines_unlines_eq_flatMap none, unlines_lines]

/-- Every text has a line. -/
theorem lines_ne_nil (text : String) : lines text ≠ [] := by
  rw [lines, splitAt_eq_splitOn, ne_eq, List.map_eq_nil_iff]
  exact List.splitOn_ne_nil _ _

/-- It makes no difference whether a text is put between lines as it is or line by line. -/
theorem unlines_append_lines (pre post : List String) (text : String) :
    unlines (pre ++ lines text ++ post) = unlines (pre ++ [text] ++ post) := by
  have again : (lines text).flatMap lines = lines text := by
    rw [← lines_unlines_eq_flatMap (lines_ne_nil text), unlines_lines]
  rw [← unlines_flatMap_lines, ← unlines_flatMap_lines (pre ++ [text] ++ post)]
  simp only [List.flatMap_append, again, List.flatMap_singleton]

/-- The text of no line at all. -/
theorem unlines_nil : unlines [] = "" := rfl

theorem unlines_singleton (line : String) : unlines [line] = line := by
  rw [unlines, List.map_singleton, joinWith, String.ofList_toList]

theorem unlines_pair (line next : String) : unlines [line, next] = line ++ "\n" ++ next := by
  rw [← String.toList_inj, unlines, String.toList_ofList]
  simp [joinWith]

/-- A text below another one has its own lines. -/
theorem lines_append_newline (text next : String) :
    lines (text ++ "\n" ++ next) = lines text ++ lines next := by
  rw [← unlines_pair, lines_unlines_eq_flatMap (List.cons_ne_nil _ _), List.flatMap_cons,
    List.flatMap_singleton]

/-- A text without a newline is one line. -/
theorem lines_eq_singleton {line : String} (h : IsLine line) : lines line = [line] := by
  have cut : lines (unlines [line]) = [line] := lines_unlines (by simp) (by simpa using h)
  rwa [unlines_singleton] at cut

/-- What stands in front of a piece and behind it can be told apart from the piece itself. -/
theorem joinWith_append_cons (sep : Char) (pre post : List (List Char)) (piece : List Char) :
    joinWith sep (pre ++ piece :: post) =
      pre.flatMap (· ++ [sep]) ++ (piece ++ post.flatMap (sep :: ·)) := by
  induction pre generalizing piece post with
  | nil =>
    induction post generalizing piece with
    | nil => simp [joinWith]
    | cons next post ih =>
      have tail := ih next
      rw [List.nil_append, List.flatMap_nil, List.nil_append] at tail ⊢
      rw [joinWith, tail, List.flatMap_cons]
      · simp
      · simp
  | cons first pre ih =>
    rw [List.cons_append, joinWith, ih, List.flatMap_cons]
    · simp
    · simp

/-- Lines with a newline behind each. -/
def endedLines (ls : List String) : List Char := ls.flatMap fun l => l.toList ++ ['\n']

/-- Lines with a newline in front of each. -/
def begunLines (ls : List String) : List Char := ls.flatMap fun l => '\n' :: l.toList

/-- A line stands in its text between the lines in front of it and those behind it. -/
theorem unlines_append_cons (pre post : List String) (line : String) :
    unlines (pre ++ line :: post) =
      String.ofList (endedLines pre ++ (line.toList ++ begunLines post)) := by
  rw [unlines, List.map_append, List.map_cons, joinWith_append_cons, List.flatMap_map,
    List.flatMap_map, endedLines, begunLines]

theorem getLast?_endedLines (ls : List String) :
    endedLines ls = [] ∨ (endedLines ls).getLast? = some '\n' := by
  rcases ls.eq_nil_or_concat with rfl | ⟨others, l, rfl⟩
  · exact .inl rfl
  · right
    simp [endedLines]

theorem head?_begunLines (ls : List String) :
    begunLines ls = [] ∨ (begunLines ls).head? = some '\n' := by
  cases ls with
  | nil => exact .inl rfl
  | cons l ls => exact .inr rfl

/-- Texts that differ in one line are different. -/
theorem unlines_append_cons_inj {pre post : List String} {line line' : String}
    (same : unlines (pre ++ line :: post) = unlines (pre ++ line' :: post)) : line = line' := by
  rw [unlines_append_cons, unlines_append_cons, String.ofList_inj, List.append_cancel_left_eq,
    List.append_cancel_right_eq, String.toList_inj] at same
  exact same

/-- Texts with different numbers of lines are different. -/
theorem unlines_ne_of_length_ne {ls : List String} {text : String} (nonempty : ls ≠ [])
    (clean : ∀ l ∈ ls, IsLine l) (different : ls.length ≠ (lines text).length) :
    unlines ls ≠ text := by
  rintro rfl
  rw [lines_unlines nonempty clean] at different
  exact different rfl

/-! ### Places in a text -/

/-- A character that the text is not cut at belongs to the piece that starts with it. -/
theorem splitAt_cons_of_ne {sep c : Char} (other : c ≠ sep) (cs : List Char) :
    ∃ first others, splitAt sep cs = first :: others ∧
      splitAt sep (c :: cs) = (c :: first) :: others := by
  obtain ⟨first, others, cut⟩ :=
    List.exists_cons_of_ne_nil (splitAt_eq_splitOn sep cs ▸ List.splitOn_ne_nil sep cs)
  exact ⟨first, others, cut, by rw [splitAt, if_neg other, cut]⟩

/-- A place is behind some pieces and the front of one, and in front of the rest of it and the other pieces.
There are as many pieces in front as the text was cut there. -/
theorem exists_piece_of_append (sep : Char) (pre s : List Char) :
    ∃ front rest, (splitAt sep (pre ++ s))[pre.count sep]? = some (front ++ rest) ∧
      pre = ((splitAt sep (pre ++ s)).take (pre.count sep)).flatMap (· ++ [sep]) ++ front ∧
      s = rest ++ ((splitAt sep (pre ++ s)).drop (pre.count sep + 1)).flatMap (sep :: ·) := by
  induction pre with
  | nil =>
    obtain ⟨first, others, cut⟩ :=
      List.exists_cons_of_ne_nil (splitAt_eq_splitOn sep s ▸ List.splitOn_ne_nil sep s)
    have whole : joinWith sep (first :: others) = s := by
      rw [← cut, joinWith_eq_intercalate, splitAt_eq_splitOn, List.intercalate_splitOn]
    have begun := joinWith_append_cons sep [] others first
    rw [List.nil_append, whole] at begun
    exact ⟨[], first, by rw [List.nil_append, cut]; rfl, rfl, by rw [List.nil_append, cut]; exact begun⟩
  | cons c pre ih =>
    obtain ⟨front, rest, here, above, below⟩ := ih
    rw [List.cons_append]
    by_cases same : c = sep
    · rw [splitAt, if_pos same, same, List.count_cons_self]
      refine ⟨front, rest, here, ?_, below⟩
      rw [List.take_succ_cons, List.flatMap_cons, List.nil_append, List.append_assoc,
        List.singleton_append, ← above]
    · obtain ⟨first, others, cut, cut'⟩ := splitAt_cons_of_ne same (pre ++ s)
      rw [cut] at here above below
      rw [cut', List.count_cons_of_ne same]
      cases count : pre.count sep with
      | zero =>
        rw [count] at here above below
        cases here
        exact ⟨c :: front, rest, rfl, congrArg (c :: ·) above, below⟩
      | succ n =>
        rw [count] at here above below
        exact ⟨front, rest, here, congrArg (c :: ·) above, below⟩

/-- **A place of a text is behind the lines above and the front of its own line**, and in front of the rest of
that line and the lines below. There are as many lines above as newlines in front of the place. -/
theorem exists_line_of_append {text : String} {pre s : List Char} (h : pre ++ s = text.toList) :
    ∃ front rest, (lines text)[pre.count '\n']? = some (String.ofList (front ++ rest)) ∧
      pre = endedLines ((lines text).take (pre.count '\n')) ++ front ∧
      s = rest ++ begunLines ((lines text).drop (pre.count '\n' + 1)) := by
  obtain ⟨front, rest, here, above, below⟩ := exists_piece_of_append '\n' pre s
  rw [h] at here above below
  refine ⟨front, rest, ?_, ?_, ?_⟩
  · rw [lines, List.getElem?_map, here, Option.map_some]
  · rw [lines, ← List.map_take, endedLines, List.flatMap_map]
    simpa only [String.toList_ofList] using above
  · rw [lines, ← List.map_drop, begunLines, List.flatMap_map]
    simpa only [String.toList_ofList] using below

/-- A text without a character does not begin in front of it and end behind it. -/
theorem isPrefix_append_cons_iff {c : Char} {w : List Char} (absent : c ∉ w) (s t : List Char) :
    w <+: s ++ c :: t ↔ w <+: s := by
  induction w generalizing s with
  | nil => simp
  | cons d w ih =>
    obtain ⟨other, absent⟩ : d ≠ c ∧ c ∉ w := by simpa [eq_comm] using absent
    cases s with
    | nil => simp [List.cons_prefix_cons, other]
    | cons e s => rw [List.cons_append, List.cons_prefix_cons, List.cons_prefix_cons, ih absent]

/-- What begins there and has no newline is on the rest of the line. -/
theorem isPrefix_of_isPrefix_append_begunLines {w rest : List Char} {ls : List String}
    (clean : '\n' ∉ w) (h : w <+: rest ++ begunLines ls) : w <+: rest := by
  cases ls with
  | nil => simpa [begunLines] using h
  | cons l ls => exact (isPrefix_append_cons_iff clean rest _).mp h

/-- What ends there and has no newline is on the front of the line. -/
theorem isSuffix_of_isSuffix_endedLines_append {w front : List Char} {ls : List String}
    (clean : '\n' ∉ w) (h : w <:+ endedLines ls ++ front) : w <:+ front := by
  rcases List.suffix_or_suffix_of_suffix h (List.suffix_append _ front) with inside | ⟨more, rfl⟩
  · exact inside
  · have ends : more <:+ endedLines ls := by
      obtain ⟨pre, same⟩ := h
      exact ⟨pre, List.append_cancel_right (List.append_assoc .. ▸ same)⟩
    rcases List.eq_nil_or_concat' more with rfl | ⟨more, c, rfl⟩
    · simp
    · obtain ⟨pre, same⟩ := ends
      rcases getLast?_endedLines ls with none | newline
      · rw [none] at same
        simp at same
      · rw [← same, ← List.append_assoc, List.getLast?_concat, Option.some_inj] at newline
        exact absurd (by simp [newline]) clean

/-! ### Trailing blanks -/

/-- A line that ends with a blank. -/
def endsBlank (line : String) : Bool := trimEnd line ≠ line

theorem dropEndBlanks_eq_rdropWhile (cs : List Char) : dropEndBlanks cs = cs.rdropWhile isBlank :=
  rfl

theorem toList_trimEnd (line : String) : (trimEnd line).toList = line.toList.rdropWhile isBlank := by
  rw [trimEnd, String.toList_ofList, dropEndBlanks_eq_rdropWhile]

/-- What is left of a line is its beginning. -/
theorem trimEnd_isPrefix (line : String) : (trimEnd line).toList <+: line.toList := by
  rw [toList_trimEnd]
  exact List.rdropWhile_prefix _ _

theorem isLine_trimEnd {line : String} (h : IsLine line) : IsLine (trimEnd line) :=
  fun mem => h ((trimEnd_isPrefix line).mem mem)

/-- A line ends with a blank exactly when its last character is one. -/
theorem endsBlank_iff {line : String} :
    endsBlank line = true ↔ ∃ c ∈ line.toList.getLast?, isBlank c = true := by
  have same : trimEnd line = line ↔ line.toList.rdropWhile isBlank = line.toList := by
    rw [← toList_trimEnd, String.toList_inj]
  rw [endsBlank, decide_eq_true_iff, ne_eq, same, List.rdropWhile_eq_self_iff]
  constructor
  · intro h
    rw [Classical.not_forall] at h
    obtain ⟨nonempty, last⟩ := h
    exact ⟨_, List.getLast?_eq_some_getLast nonempty, by simpa using last⟩
  · rintro ⟨c, hc, blank⟩ h
    have nonempty : line.toList ≠ [] := by
      rintro nil
      simp [nil] at hc
    rw [List.getLast?_eq_some_getLast nonempty] at hc
    exact h nonempty (by rw [Option.mem_some.mp hc]; exact blank)

theorem endsBlank_trimEnd (line : String) : endsBlank (trimEnd line) = false := by
  rw [endsBlank, decide_eq_false_iff_not, ne_eq, not_not, ← String.toList_inj, toList_trimEnd,
    toList_trimEnd, List.rdropWhile_idempotent]

/-! ### Blanks on both sides -/

/-- A list without the blanks on both sides of it. -/
def Trimmed (cs core : List Char) : Prop :=
  ∃ front back, cs = front ++ core ++ back ∧ (∀ c ∈ front, isBlank c = true) ∧ (∀ c ∈ back, isBlank c = true) ∧
    (∀ c ∈ core.head?, isBlank c = false) ∧ ∀ c ∈ core.getLast?, isBlank c = false

theorem dropBlanks_append {front cs : List Char} (blank : ∀ c ∈ front, isBlank c = true) :
    dropBlanks (front ++ cs) = dropBlanks cs :=
  List.dropWhile_append_of_pos blank

theorem dropBlanks_of_head? {cs : List Char} (begins : ∀ c ∈ cs.head?, isBlank c = false) :
    dropBlanks cs = cs := by
  cases cs with
  | nil => rfl
  | cons c cs => exact List.dropWhile_cons_of_neg (by simp [begins c rfl])

theorem head?_dropBlanks (cs : List Char) : ∀ c ∈ (dropBlanks cs).head?, isBlank c = false := by
  intro c first
  have stops := List.head?_dropWhile_not isBlank cs
  rw [dropBlanks] at first
  rw [Option.mem_def.mp first] at stops
  exact stops

theorem dropEndBlanks_append {cs back : List Char} (blank : ∀ c ∈ back, isBlank c = true) :
    dropEndBlanks (cs ++ back) = dropEndBlanks cs := by
  rw [dropEndBlanks, List.reverse_append, dropBlanks_append (by simpa using blank)]
  rfl

theorem dropEndBlanks_of_getLast? {cs : List Char} (ends : ∀ c ∈ cs.getLast?, isBlank c = false) :
    dropEndBlanks cs = cs := by
  rw [dropEndBlanks, dropBlanks_of_head? (by simpa using ends), List.reverse_reverse]

/-- **Trimming takes away the blanks on both sides**, and nothing else. -/
theorem trimmed_iff {cs core : List Char} : dropEndBlanks (dropBlanks cs) = core ↔ Trimmed cs core := by
  constructor
  · rintro rfl
    refine ⟨cs.takeWhile isBlank, (dropBlanks cs).rtakeWhile isBlank, ?_, fun c mem => List.mem_takeWhile_imp mem,
      fun c mem => List.mem_rtakeWhile_imp mem, fun c first => ?_, fun c last => ?_⟩
    · rw [dropEndBlanks_eq_rdropWhile, List.append_assoc, List.rdropWhile_append_rtakeWhile]
      exact List.takeWhile_append_dropWhile.symm
    · obtain ⟨back, same⟩ := List.rdropWhile_prefix isBlank (dropBlanks cs)
      refine head?_dropBlanks cs c ?_
      rw [← same, List.head?_append]
      rw [dropEndBlanks_eq_rdropWhile, Option.mem_def] at first
      rw [first, Option.some_or, Option.mem_def]
    · rw [dropEndBlanks, List.getLast?_reverse] at last
      exact head?_dropBlanks _ c last
  · rintro ⟨front, back, rfl, blankFront, blankBack, begins, ends⟩
    rw [List.append_assoc, dropBlanks_append blankFront]
    cases core with
    | nil =>
      rw [List.nil_append, dropBlanks, List.dropWhile_eq_nil_iff.mpr blankBack]
      rfl
    | cons c core =>
      rw [dropBlanks_of_head? (by simpa using begins), dropEndBlanks_append blankBack,
        dropEndBlanks_of_getLast? ends]

end SnippetAudit.Text
