import SnippetAudit.Proofs.Python.Layout
import SnippetAudit.Proofs.Python.Suite

/-!
How far the first token of a statement is indented.

A block ends in front of a line that is indented less than it, so a statement in a block is indented at least
as far as the block (`headD_le_of_opens`). The search for the first token of a statement starts at the end of
a line (`Cursor.Rests`) and passes comments and joined lines on its way. The indentation is that of the line
of the token, unless this line is joined to the one above or has characters in front of it that layout does
not know as blanks.
-/

namespace SnippetAudit.Python

open Text

/-! ### Margins -/

theorem isSpacing_of_isMargin {c : Char} (h : isMargin c = true) : isSpacing c = true := by
  simp only [isMargin, Bool.or_eq_true, decide_eq_true_iff] at h
  obtain ((rfl | rfl) | rfl) | rfl := h <;> rfl

/-- What is skipped between tokens is passed by layout, unless it is an odd blank. -/
theorem isMargin_or_of_isSpacing {c : Char} (h : isSpacing c = true) (plain : c ∉ oddBlanks) :
    isMargin c = true ∨ c = '\n' := by
  simp only [isSpacing, Bool.or_eq_true, decide_eq_true_iff] at h
  simp only [oddBlanks, List.mem_cons, List.not_mem_nil, or_false, not_or] at plain
  simp only [isMargin, Bool.or_eq_true, decide_eq_true_iff]
  tauto

section Gap

variable {comments ended : Bool} {width : Nat} {comment : Option Nat} {s : List Char}

theorem gap_newline :
    gap comments false ended width comment ('\n' :: s) = gap comments false true 0 comment s := by
  simp [gap]

/-- Blanks are passed, however wide they are. -/
theorem gap_margin {margin : List Char} (blank : ∀ c ∈ margin, isMargin c = true) :
    gap comments false ended width comment (margin ++ s) =
      gap comments false ended (marginWidth width margin) comment s := by
  induction margin generalizing width with
  | nil => rfl
  | cons c margin ih =>
    have here := blank c List.mem_cons_self
    have others {width : Nat} := @ih width fun c mem => blank c (List.mem_cons_of_mem _ mem)
    simp only [isMargin, Bool.or_eq_true, decide_eq_true_iff] at here
    obtain ((rfl | rfl) | rfl) | rfl := here
    all_goals simpa [gap, marginWidth] using others

/-- Blank lines are passed. -/
theorem exists_gap_of_blank {blanks : List Char} (blank : ∀ c ∈ blanks, isMargin c = true ∨ c = '\n') :
    ∃ ended' width', gap comments false ended width comment (blanks ++ s) =
      gap comments false ended' width' comment s := by
  induction blanks generalizing ended width with
  | nil => exact ⟨ended, width, rfl⟩
  | cons c blanks ih =>
    have others {ended : Bool} {width : Nat} :=
      @ih ended width fun c mem => blank c (List.mem_cons_of_mem _ mem)
    rcases blank c List.mem_cons_self with margin | rfl
    · have here : ∀ c' ∈ [c], isMargin c' = true := by simpa using margin
      have pass := @gap_margin comments ended width comment (blanks ++ s) [c] here
      rw [List.singleton_append] at pass
      rw [List.cons_append, pass]
      exact others
    · rw [List.cons_append, gap_newline]
      exact others

end Gap

/-! ### Ends of lines -/

/-- A line, or the text, ends in front of the next token. -/
def Cursor.Ended (cur : Cursor) : Prop :=
  ∃ g, gap true false false 0 none cur.rest = some g ∧ g.ended = true

/-- A cursor keeps to a frame and is at the end of a line. -/
structure Cursor.Rests (F : Frame) (cur : Cursor) : Prop extends cur.Within F where
  ended : cur.Ended

theorem Cursor.Rests.widen {F : Frame} {cur : Cursor} {text : List Char} (s : cur.Rests F)
    (h : F.text <:+ text) : cur.Rests { F with text } :=
  ⟨s.toWithin.widen h, s.ended⟩

theorem Cursor.Rests.here {F : Frame} {cur : Cursor} (s : cur.Rests F) :
    cur.Rests { F with text := cur.rest } :=
  ⟨s.toWithin.here, s.ended⟩

section Ends

variable {F : Frame} {cur found : Cursor} {want : Expecting}

/-- What layout makes of the end of a line stands at that end. -/
theorem ended_of_layout {token : Token} (h : cur.layout want = (token, found))
    (line : token = .newline ∨ token = .indent ∨ token = .dedent ∧ want.dedent = true) : found.Ended := by
  unfold Cursor.layout at h
  unfold Cursor.Ended
  grind

theorem ended_of_next {token : Token} (h : cur.next want = (token, found))
    (line : token = .newline ∨ token = .indent ∨ token = .dedent ∧ want.dedent = true) : found.Ended := by
  unfold Cursor.next at h
  generalize cur.fuel = fuel at h
  induction fuel generalizing cur with
  | zero =>
    cases h
    simp at line
  | succ fuel ih =>
    rw [Cursor.nextWithin] at h
    split at h
    · split at h
      · exact ih h
      · exact ih h
      · exact ih h
      · cases h
        simp at line
    · exact ended_of_layout h line

theorem rests_of_next_newline (s : cur.Within F) (h : cur.next want = (.newline, found)) :
    found.Rests F :=
  ⟨within_of_next_newline s h, ended_of_next h (.inl rfl)⟩

theorem rests_of_next_indent (s : cur.Within F) (h : cur.next want = (.indent, found)) :
    ∃ width, found.Rests { F with blocks := width :: F.blocks } :=
  (within_of_next_indent s h).imp fun _ s => ⟨s, ended_of_next h (.inr (.inl rfl))⟩

theorem rests_of_next_dedent (s : cur.Within F) (wanted : want.dedent = true)
    (h : cur.next want = (.dedent, found)) : found.Rests { F with blocks := F.blocks.tail } :=
  ⟨within_of_next_dedent s h, ended_of_next h (.inr (.inr ⟨rfl, wanted⟩))⟩

end Ends

/-! ### The first token of a statement -/

/-- How the first token of a statement is looked for: no line ends in front of it and no block starts, but
blocks may end. -/
structure Expecting.Closing (want : Expecting) : Prop where
  newline : want.newline = false
  indent : want.indent = false
  closes : want.dedent = true ∨ want.quote = false ∧ want.close = false

/-- A statement starts at a place: no block is open, or the place is that of the first token behind the end
of a line, which ends no block. -/
def Opens (F : Frame) (start : List Char) : Prop :=
  F.blocks.headD 0 = 0 ∨ ∃ (cur : Cursor) (want : Expecting) (token : Token) (found : Cursor),
    cur.Rests F ∧ want.Closing ∧ cur.next want = (token, found) ∧ token ≠ .dedent ∧ found.rest = start

/-- At the end of a line a token that is not made from layout may start a statement. -/
theorem opens_of_plain? {F : Frame} {cur found : Cursor} (rests : cur.Rests F)
    (plain : cur.plain? {} = some found) : Opens F found.rest :=
  .inr ⟨cur, {}, .plain, found, rests, ⟨rfl, rfl, .inr ⟨rfl, rfl⟩⟩, next_of_plain? plain, nofun, rfl⟩

/-- A place where a word starts, and no literal. -/
def AtWord (start : List Char) : Prop := openQuote { mark := '"' } start = none ∧ AtToken start

section Opens

variable {cur found : Cursor} {want : Expecting} {token : Token} {fuel : Nat} {start front s : List Char}

theorem AtToken.exists_cons (token : AtToken start) :
    ∃ c rest, start = c :: rest ∧ isSpacing c = false ∧ c ≠ '#' ∧ c ≠ '\\' := by
  obtain ⟨c, head, margin, odd, newline, hash, backslash⟩ := token
  obtain ⟨rest, rfl⟩ := List.head?_eq_some_iff.mp head
  refine ⟨c, rest, rfl, Bool.eq_false_iff.mpr fun spacing => ?_, hash, backslash⟩
  rcases isMargin_or_of_isSpacing spacing odd with blank | ends
  · rw [margin] at blank
    cases blank
  · exact newline ends

/-- Layout ends in front of a token. -/
theorem AtToken.gap (token : AtToken start) {comments ended : Bool} {width : Nat} {comment : Option Nat} :
    gap comments false ended width comment start = some ⟨ended, width, comment, start⟩ := by
  obtain ⟨c, rest, rfl, spacing, hash, backslash⟩ := token.exists_cons
  simp only [isSpacing, Bool.or_eq_false_iff, decide_eq_false_iff_not] at spacing
  simp [Python.gap, spacing, hash, backslash]

/-- Up to a token there is something on a line. -/
theorem AtToken.exists_head (token : AtToken start) (clean : '\n' ∉ front) :
    ∃ c rest, front ++ start = c :: rest ∧ c ≠ '\n' := by
  cases front with
  | nil =>
    obtain ⟨c, rest, rfl, spacing, -⟩ := token.exists_cons
    exact ⟨c, rest, rfl, by rintro rfl; cases spacing⟩
  | cons c front => exact ⟨c, front ++ start, rfl, (List.ne_of_not_mem_cons clean).symm⟩

/-- A backslash within a line is stray. -/
theorem AtToken.gap_backslash (token : AtToken start) (clean : '\n' ∉ front) {ended : Bool} {width : Nat} :
    Python.gap true false ended width none ('\\' :: (front ++ start)) = none := by
  obtain ⟨c, rest, here, newline⟩ := token.exists_head clean
  by_cases ret : c = '\r'
  · cases front with
    | nil =>
      obtain ⟨c', rest', rfl, spacing, -⟩ := token.exists_cons
      obtain ⟨rfl, -⟩ := List.cons.inj here
      subst ret
      cases spacing
    | cons _ front =>
      obtain ⟨rfl, rfl⟩ := List.cons.inj here
      obtain ⟨c, rest, here, newline⟩ := token.exists_head (List.not_mem_of_not_mem_cons clean)
      rw [List.cons_append, here, ret]
      simp [Python.gap, newline]
  · rw [here]
    simp [Python.gap, newline, ret]

/-- Between a token and what is in front of it on its line no line ends. -/
theorem AtToken.ended_eq_false (token : AtToken start) (clean : '\n' ∉ front) {width : Nat} {g : Gap}
    (passed : Python.gap true false false width none (front ++ start) = some g) : g.ended = false := by
  induction front generalizing width with
  | nil =>
    rw [List.nil_append, token.gap] at passed
    rw [← Option.some.inj passed]
  | cons c front ih =>
    have others {width : Nat} := @ih (List.not_mem_of_not_mem_cons clean) width
    have newline : c ≠ '\n' := (List.ne_of_not_mem_cons clean).symm
    by_cases stray : c = '\\'
    · rw [stray, List.cons_append, token.gap_backslash (List.not_mem_of_not_mem_cons clean)] at passed
      cases passed
    · rw [List.cons_append] at passed
      simp [Python.gap, newline, stray] at passed
      split_ifs at passed
      · exact others passed
      · exact others passed
      · exact others passed
      · rw [← Option.some.inj passed]

/-- A place behind the end of a line that is not in front of a word is behind the end of the line above it. -/
theorem suffix_of_newline {text : List Char} (clean : '\n' ∉ front)
    (above : '\n' :: (front ++ start) <:+ text) (line : '\n' :: s <:+ text) (later : start <:+ s) :
    '\n' :: (front ++ start) <:+ '\n' :: s := by
  rcases List.suffix_or_suffix_of_suffix above line with h | h
  · exact h
  · rcases List.suffix_cons_iff.mp h with same | ⟨pre, inside⟩
    · rw [same]
    · obtain ⟨between, rfl⟩ := later
      rw [← List.cons_append, ← List.append_assoc, List.append_cancel_right_eq] at inside
      exact absurd (by rw [← inside]; simp) clean

/-- A cursor at the end of a line above that of a word. The line of the word is not joined to the one above
it, and layout knows all blanks from the cursor on. -/
structure Cursor.Leads (front start : List Char) (cur : Cursor) : Prop where
  outside : cur.interpolating = false
  above : '\n' :: (front ++ start) <:+ cur.rest
  unjoined : ¬ '\\' :: '\n' :: (front ++ start) <:+ cur.rest
  unjoined' : ¬ '\\' :: '\r' :: '\n' :: (front ++ start) <:+ cur.rest
  known : PlainBlanks cur.rest

theorem Cursor.Leads.move (h : cur.Leads front start) (line : s <:+ cur.rest)
    (above : '\n' :: (front ++ start) <:+ s) : ({ cur with rest := s } : Cursor).Leads front start :=
  ⟨h.outside, above, fun joined => h.unjoined (joined.trans line),
    fun joined => h.unjoined' (joined.trans line), fun c mem => h.known c (line.subset mem)⟩

/-- A joined line is not the one above. -/
theorem Cursor.Leads.join (h : cur.Leads front start) (clean : '\n' ∉ front) (later : start <:+ s)
    (line : '\\' :: '\n' :: s <:+ cur.rest ∨ '\\' :: '\r' :: '\n' :: s <:+ cur.rest) :
    ({ cur with rest := s } : Cursor).Leads front start := by
  have behind : '\n' :: s <:+ cur.rest := by grind
  refine h.move (by grind) ?_
  rcases List.suffix_cons_iff.mp (suffix_of_newline clean h.above behind later) with same | below
  · rw [← same] at line
    exact absurd line (not_or.mpr ⟨h.unjoined, h.unjoined'⟩)
  · exact below

/-- A comment ends with its line. -/
theorem Cursor.Leads.skip (h : cur.Leads front start) (clean : '\n' ∉ front) (word : AtWord start)
    (line : s <:+ cur.rest) (later : start <:+ s.dropWhile (· ≠ '\n')) :
    ({ cur with rest := s.dropWhile (· ≠ '\n') } : Cursor).Leads front start := by
  have ending := (List.dropWhile_suffix (· ≠ '\n')).trans line
  refine h.move ending ?_
  obtain ⟨c, rest, rfl, spacing, -⟩ := word.2.exists_cons
  cases left : s.dropWhile (· ≠ '\n') with
  | nil =>
    rw [left] at later
    simp at later
  | cons c' below =>
    have newline : c' = '\n' := by
      have first := List.head?_dropWhile_not (· ≠ '\n') s
      rw [left] at first
      simpa using first
    rw [left] at later ending
    subst newline
    refine suffix_of_newline clean h.above ending ?_
    rcases List.suffix_cons_iff.mp later with same | below
    · cases same
      cases spacing
    · exact below

/-- In front of a word there is only layout, the last of it the margin of its line. -/
theorem Cursor.Leads.margin (h : cur.Leads front start) (clean : '\n' ∉ front) (word : AtWord start)
    (read : cur.rest.dropWhile isSpacing = start) :
    (∀ c ∈ front, isMargin c = true) ∧ ∀ comments, gap comments false false 0 none cur.rest =
      some ⟨true, marginWidth 0 front, none, start⟩ := by
  obtain ⟨pre, whole⟩ := h.above
  have passed : cur.rest.takeWhile isSpacing = pre ++ '\n' :: front := by
    have parts := List.takeWhile_append_dropWhile (p := isSpacing) (l := cur.rest)
    rw [read] at parts
    rw [← List.append_cancel_right_eq _ start, parts, ← whole, List.append_assoc, List.cons_append]
  have blank : ∀ c ∈ pre ++ '\n' :: front, isMargin c = true ∨ c = '\n' := by
    intro c mem
    have plain := h.known c (by rw [← whole]; grind)
    rw [← passed] at mem
    exact isMargin_or_of_isSpacing (List.mem_takeWhile_imp mem) plain
  have margin : ∀ c ∈ front, isMargin c = true := by
    intro c mem
    refine (blank c (by simp [mem])).resolve_right ?_
    rintro rfl
    exact clean mem
  refine ⟨margin, fun comments => ?_⟩
  obtain ⟨ended, width, above⟩ := @exists_gap_of_blank comments false 0 none
    ('\n' :: (front ++ start)) pre fun c mem => blank c (by simp [mem])
  rw [← whole, above, gap_newline, gap_margin margin, word.2.gap]

/-- Layout that ends no block is at least as wide as the open one. -/
theorem headD_le_of_layout (closing : want.Closing) (outside : cur.interpolating = false) {width : Nat}
    (passed : ∀ comments, gap comments false false 0 none cur.rest = some ⟨true, width, none, s⟩)
    (level : (cur.layout want).1 ≠ .dedent) : cur.indents.headD 0 ≤ width := by
  by_contra less
  have less : width < cur.indents.head?.getD 0 := by simpa using less
  refine level ?_
  obtain ⟨newline, indent, closes⟩ := closing
  rw [Cursor.layout, passed]
  rcases closes with dedent | ⟨quote, close⟩
  · simp [indent, outside, dedent, less]
  · simp [newline, indent, outside, quote, close, less]

/-- Where a word starts layout makes no token that could start a statement. -/
theorem AtWord.layout_eq (word : AtWord start) (closing : want.Closing)
    (next : cur.layout want = (token, found)) (level : token ≠ .dedent) (here : found.rest = start) :
    token = .plain := by
  obtain ⟨newline, indent, -⟩ := closing
  have unquoted := word.1
  unfold Cursor.layout at next
  grind

/-- **The first token of a statement is indented at least as far as the open block**, if it is a word. -/
theorem margin_of_nextWithin (closing : want.Closing) (word : AtWord start) (clean : '\n' ∉ front)
    (leads : cur.Leads front start) (next : cur.nextWithin want fuel = (token, found))
    (level : token ≠ .dedent) (here : found.rest = start) :
    (∀ c ∈ front, isMargin c = true) ∧ cur.indents.headD 0 ≤ marginWidth 0 front := by
  induction fuel generalizing cur with
  | zero =>
    cases next
    have short := leads.above.length_le
    rw [here, List.length_cons, List.length_append] at short
    omega
  | succ fuel ih =>
    -- A round that skips a comment or a joined line stays in front of the end of the line above.
    have spaced := List.dropWhile_suffix isSpacing (l := cur.rest)
    rw [Cursor.nextWithin] at next
    split at next
    next plain =>
      split at next
      next rest comment =>
        have later : start <:+ rest.dropWhile (· ≠ '\n') := here ▸ rest_suffix_of_nextWithin next
        rw [comment] at spaced
        have leads := leads.skip clean word (suffix_of_cons_suffix spaced) later
        have margin := ih leads next
        exact margin
      next rest joined =>
        have later : start <:+ rest := here ▸ rest_suffix_of_nextWithin next
        have leads := leads.join clean later (.inl (joined ▸ spaced))
        have margin := ih leads next
        exact margin
      next rest joined =>
        have later : start <:+ rest := here ▸ rest_suffix_of_nextWithin next
        have leads := leads.join clean later (.inr (joined ▸ spaced))
        have margin := ih leads next
        exact margin
      next =>
        cases next
        obtain ⟨margin, passed⟩ := leads.margin clean word here
        exact ⟨margin, headD_le_of_layout closing leads.outside passed (by rw [plain]; exact level)⟩
    next other =>
      have plain := word.layout_eq closing next level here
      exact absurd next (plain ▸ other _)

/-- The end of a line is not on the line of a word in front of the word. -/
theorem Cursor.Ended.not_suffix (h : cur.Ended) (word : AtWord start) (clean : '\n' ∉ front)
    (later : start <:+ cur.rest) : ¬cur.rest <:+ front ++ start := by
  rintro ⟨pre, inside⟩
  obtain ⟨between, here⟩ := later
  obtain ⟨g, passed, ended⟩ := h
  rw [← here, ← List.append_assoc, List.append_cancel_right_eq] at inside
  have clean : '\n' ∉ between := fun mem => clean (by simp [← inside, mem])
  rw [← here] at passed
  rw [word.2.ended_eq_false clean passed] at ended
  cases ended

/-- **A definition is indented at least as far as the block that it is in**, where its line is not joined to
the one above and layout knows all blanks of the text. -/
theorem headD_le_of_opens {F : Frame} {ls : List String} (opens : Opens F start) (outside : F.outside = true)
    (word : AtWord start) (clean : '\n' ∉ front) (whole : F.text = endedLines ls ++ (front ++ start))
    (unjoined : ∀ l ∈ ls.getLast?, ¬Joined l)
    (known : PlainBlanks F.text) :
    F.blocks.headD 0 = 0 ∨
      (∀ c ∈ front, isMargin c = true) ∧ F.blocks.headD 0 ≤ marginWidth 0 front := by
  refine opens.imp_right ?_
  rintro ⟨cur, want, token, found, rests, closing, next, level, here⟩
  have later : start <:+ cur.rest := here ▸ rest_suffix_of_nextWithin next
  have behind : ¬cur.rest <:+ front ++ start := rests.ended.not_suffix word clean later
  have inside := rests.rest
  rw [whole] at inside
  rcases ls.eq_nil_or_concat' with rfl | ⟨above, l, rfl⟩
  · exact absurd inside behind
  · have cut : endedLines (above ++ [l]) ++ (front ++ start) =
        (endedLines above ++ l.toList) ++ '\n' :: (front ++ start) := by
      simp [endedLines]
    rw [cut] at inside
    have open' {w : List Char} (ends : w ++ '\n' :: (front ++ start) <:+ cur.rest) (clean : '\n' ∉ w) :
        w <:+ l.toList := by
      obtain ⟨pre, same⟩ := ends.trans inside
      rw [← List.append_assoc, List.append_cancel_right_eq] at same
      exact isSuffix_of_isSuffix_endedLines_append clean ⟨pre, same⟩
    have joined := unjoined l (by simp)
    have leads : cur.Leads front start := by
      refine ⟨rests.outside outside, ?_, fun ends => joined (.inl (@open' ['\\'] ends (by simp))),
        fun ends => joined (.inr (@open' ['\\', '\r'] ends (by simp))),
        fun c mem => known c (rests.rest.subset mem)⟩
      rcases List.suffix_or_suffix_of_suffix (List.suffix_append _ _) inside with h | h
      · exact h
      · rcases List.suffix_cons_iff.mp h with same | h
        · rw [same]
        · exact absurd h behind
    have margin := margin_of_nextWithin closing word clean leads next level here
    rwa [rests.indents] at margin

end Opens

end SnippetAudit.Python
