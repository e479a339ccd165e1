import SnippetAudit.Proofs.Python.Indentation

/-!
What stands on the line below a colon.

A token that is indented further than the block that the colon is in starts a block of its own; else the block
behind the colon is empty (`exists_above_of_endsLine`). For this the colon has to end its line: only blanks and
a comment may stand behind it.

A literal that ends its line is read as a whole statement (`Source.simpleStatement_of_atLiteral`), since nothing
behind the end of a line goes on with an expression, other than a stray backslash, which nothing goes on with
(`Cursor.AtLineEnd.exists_next`).
-/

namespace SnippetAudit.Python

open Text

/-! ### Layout in front of a line -/

section Gap

variable {comments ended : Bool} {width : Nat} {comment : Option Nat} {s : List Char}

theorem gap_quote :
    gap comments false ended width comment ('"' :: s) = some ⟨ended, width, comment, '"' :: s⟩ := by
  simp [gap]

/-- Whether a backslash is stray does not depend on the layout in front of it. -/
theorem gap_eq_none {inComment ended' : Bool} {width' : Nat} {comment' : Option Nat}
    (later : ended' = true → ended = true) (stray : gap true inComment ended width comment s = none) :
    gap true inComment ended' width' comment' s = none := by
  fun_induction gap true inComment ended width comment s generalizing ended' width' comment' <;>
    grind [gap]

theorem stray_of_comment (stray : gap true true true width comment s = none) :
    gap true false true 0 none (s.dropWhile (· ≠ '\n')) = none := by
  induction s with
  | nil => cases stray
  | cons c s ih =>
    by_cases newline : c = '\n'
    · subst newline
      simp only [gap, if_true] at stray
      rw [List.dropWhile_cons_of_neg (by simp), gap_newline]
      exact gap_eq_none id stray
    · simp only [gap, if_true, if_neg newline] at stray
      rw [List.dropWhile_cons_of_pos (by simpa using newline)]
      exact ih stray

theorem stray_dropWhile (stray : gap true false true 0 none s = none) :
    gap true false true 0 none (s.dropWhile isSpacing) = none := by
  induction s with
  | nil => cases stray
  | cons c s ih =>
    by_cases spacing : isSpacing c = true
    · rw [List.dropWhile_cons_of_pos spacing]
      refine ih ?_
      simp only [isSpacing, Bool.or_eq_true, decide_eq_true_iff] at spacing
      obtain (((((((rfl | rfl) | rfl) | rfl) | rfl) | rfl) | rfl) | rfl) | rfl := spacing
      all_goals simp [gap] at stray
      all_goals exact gap_eq_none id stray
    · rwa [List.dropWhile_cons_of_neg spacing]

theorem eq_backslash_of_stray {c : Char} (spacing : isSpacing c = false) (comment : c ≠ '#')
    (stray : gap true false true 0 none (c :: s) = none) : c = '\\' := by
  by_contra other
  simp only [isSpacing, Bool.or_eq_false_iff, decide_eq_false_iff_not] at spacing
  simp [gap, other, comment, spacing] at stray

end Gap

section Next

variable {cur : Cursor} {want : Expecting} {fuel : Nat}

/-- A backslash that does not join two lines is the next token. -/
theorem exists_nextWithin_of_stray (newline : want.newline = true)
    (stray : gap true false true 0 none cur.rest = none) (enough : cur.rest.length < fuel) :
    ∃ found, cur.nextWithin want fuel = (.plain, found) ∧ found.rest.head? = some '\\' := by
  induction fuel generalizing cur with
  | zero => exact absurd enough (Nat.not_lt_zero _)
  | succ fuel ih =>
    have plain : cur.layout want = (.plain, cur) := by
      have none : gap true false false 0 none cur.rest = none := gap_eq_none nofun stray
      rw [Cursor.layout, newline, Bool.true_or, Bool.true_or, none]
    have stray := stray_dropWhile stray
    have shorter := (List.dropWhile_suffix isSpacing (l := cur.rest)).length_le
    rw [Cursor.nextWithin, plain]
    dsimp only
    split
    next rest at' =>
      rw [at'] at stray shorter
      have bound := (List.dropWhile_suffix (· ≠ '\n') (l := rest)).length_le
      simp only [List.length_cons] at shorter
      refine ih ?_ (by dsimp only; omega)
      refine @stray_of_comment 0 (some 0) _ ?_
      simpa [gap] using stray
    next rest at' =>
      rw [at'] at stray shorter
      simp only [List.length_cons] at shorter
      simp only [gap] at stray
      exact ih stray (by dsimp only; omega)
    next rest at' =>
      rw [at'] at stray shorter
      simp only [List.length_cons] at shorter
      simp only [gap] at stray
      exact ih stray (by dsimp only; omega)
    next _ hash _ _ =>
      refine ⟨_, rfl, ?_⟩
      dsimp only
      cases at' : cur.rest.dropWhile isSpacing with
      | nil =>
        rw [at'] at stray
        cases stray
      | cons c rest =>
        have spacing : isSpacing c = false := by
          simpa [at'] using List.head?_dropWhile_not isSpacing cur.rest
        have comment : c ≠ '#' := by
          rintro rfl
          exact hash _ at'
        rw [at'] at stray
        rw [eq_backslash_of_stray spacing comment stray, List.head?_cons]

/-- The end of a line, where the text is not longer than it is said to be. -/
structure Cursor.AtLineEnd (cur : Cursor) : Prop where
  ends : cur.rest = [] ∨ cur.rest.head? = some '\n'
  enough : cur.rest.length ≤ cur.bound

theorem ended_of_gap {comments inComment ended : Bool} {width : Nat} {comment : Option Nat}
    {s : List Char} {g : Gap} (passed : gap comments inComment ended width comment s = some g)
    (already : ended = true) : g.ended = true := by
  fun_induction gap comments inComment ended width comment s <;> grind

/-- **What follows the end of a line** is the end of the line, or a stray backslash on a line below. -/
theorem Cursor.AtLineEnd.exists_next (at_end : cur.AtLineEnd) (newline : want.newline = true)
    (flat : want.indent = false) (level : want.dedent = false) :
    ∃ found, cur.next want = (.newline, found) ∨
      cur.next want = (.plain, found) ∧ found.rest.head? = some '\\' := by
  have passed {g : Gap} (h : gap true false false 0 none cur.rest = some g) (ended : g.ended = true) :
      cur.next want = (.newline, cur) := by
    have found : cur.layout want = (.newline, cur) := by
      rw [Cursor.layout, newline, flat, level, Bool.true_or, Bool.true_or, h]
      simp [ended]
    rw [Cursor.next, Cursor.fuel, Cursor.nextWithin, found]
  rcases at_end.ends with none | first
  · refine ⟨cur, .inl (passed (g := ⟨true, 0, Option.none, []⟩) ?_ rfl)⟩
    rw [none]
    rfl
  · obtain ⟨below, same⟩ := List.head?_eq_some_iff.mp first
    cases h : gap true false true 0 none below with
    | some g =>
      refine ⟨cur, .inl (passed (g := g) ?_ (ended_of_gap h rfl))⟩
      rw [same, gap_newline, h]
    | none =>
      have stray : gap true false true 0 Option.none cur.rest = Option.none := by
        rw [same, gap_newline, h]
      obtain ⟨found, next, backslash⟩ :=
        exists_nextWithin_of_stray newline stray (Nat.lt_succ_of_le at_end.enough)
      exact ⟨found, .inr ⟨next, backslash⟩⟩

end Next

/-! ### Behind an expression that ends its line -/

section LineEnd

variable {cur : Cursor} {around : Around} {P : Nested} {target : Cursor → Except Stuck (Form × Cursor)}
  {form : Form}

theorem head?_of_plain? {found : Cursor} (at_end : cur.AtLineEnd) (newline : around.newline = true)
    (plain : cur.plain? around.behind = some found) : found.rest.head? = some '\\' := by
  obtain ⟨next, is_newline | ⟨is_plain, backslash⟩⟩ :=
    @Cursor.AtLineEnd.exists_next _ around.behind at_end newline rfl rfl
  · rw [Cursor.plain?, is_newline] at plain
    cases plain
  · rw [Cursor.plain?, is_plain] at plain
    cases plain
    exact backslash

theorem symbolOperator?_backslash (s : List Char) : symbolOperator? ('\\' :: s) = none := rfl

theorem word?_backslash (s : List Char) : word? ('\\' :: s) = none := by
  have other : isNameStart '\\' = false := by decide +kernel
  rw [word?, other]
  rfl

theorem trailersWithin_of_atLineEnd {fuel : Nat} {placed : Bool} (at_end : cur.AtLineEnd)
    (newline : around.newline = true) :
    trailersWithin P target around (fuel + 1) form placed cur = .ok ((form, placed), cur) := by
  rw [trailersWithin]
  split
  next found plain =>
    obtain ⟨s, same⟩ := List.head?_eq_some_iff.mp (head?_of_plain? at_end newline plain)
    rw [same]
    rfl
  next => rfl

theorem operator?_of_atLineEnd (at_end : cur.AtLineEnd) (newline : around.newline = true) :
    cur.operator? around = .ok none := by
  rw [Cursor.operator?]
  split
  next => rfl
  next found plain =>
    obtain ⟨s, same⟩ := List.head?_eq_some_iff.mp (head?_of_plain? at_end newline plain)
    rw [same, symbolOperator?_backslash, word?_backslash]

theorem operandsWithin_of_atLineEnd {fuel : Nat} (at_end : cur.AtLineEnd)
    (newline : around.newline = true) :
    operandsWithin P target around (fuel + 1) form cur = .ok (form, cur) := by
  rw [operandsWithin, operator?_of_atLineEnd at_end newline]
  rfl

theorem termsWithin_of_atLineEnd {fuel : Nat} (at_end : cur.AtLineEnd)
    (newline : around.newline = true) :
    termsWithin P target around (fuel + 1) form cur = .ok (form, cur) := by
  rw [termsWithin]
  split
  next => rfl
  next found plain =>
    obtain ⟨s, same⟩ := List.head?_eq_some_iff.mp (head?_of_plain? at_end newline plain)
    rw [same, word?_backslash]

theorem onComma?_of_atLineEnd (at_end : cur.AtLineEnd) (newline : around.newline = true) :
    cur.onComma? around.behind = none := by
  rw [Cursor.onComma?, Cursor.on?]
  cases plain : cur.plain? around.behind with
  | none => rfl
  | some found =>
    obtain ⟨s, same⟩ := List.head?_eq_some_iff.mp (head?_of_plain? at_end newline plain)
    rw [Option.bind_eq_bind, Option.bind_some, same]
    rfl

end LineEnd

/-! ### A literal that ends its line -/

/-- How a literal is opened that may have several lines. -/
def tripled : Quote := { mark := '"', triple := true }

section Quoted

variable {cur : Cursor} {want : Expecting} {around : Around} {P : Nested}
  {target : Cursor → Except Stuck (Form × Cursor)} {words post : List Char} {fuel : Nat}

/-- Behind a literal. -/
def Cursor.leave (cur : Cursor) (post : List Char) : Cursor :=
  { cur with rest := post, interpolating := false }

theorem literalBody_of_spelled {content : Bool} (spelled : Spelled words)
    (read : cur.rest = words ++ '"' :: '"' :: '"' :: post) (enough : words.length < fuel) :
    literalBody P.interpolation tripled fuel content cur = .ok ((), cur.leave post) := by
  induction fuel generalizing words cur content with
  | zero => exact absurd enough (Nat.not_lt_zero _)
  | succ fuel ih =>
    cases words with
    | nil => simp [literalBody, read, tripled, Cursor.leave]
    | cons c words =>
      obtain ⟨mark, escape⟩ := spelled c List.mem_cons_self
      have others : Spelled words := fun c mem => spelled c (List.mem_cons_of_mem _ mem)
      have rest := @ih { cur with rest := words ++ '"' :: '"' :: '"' :: post } words true others rfl
        (Nat.lt_of_succ_lt_succ enough)
      simpa [literalBody, read, tripled, mark, escape, Cursor.leave] using rest

theorem openQuote_quoted :
    openQuote { mark := '"' } (quoted words post) = some (tripled, words ++ '"' :: '"' :: '"' :: post) :=
  rfl

/-- A literal that has layout in front of it is a token of its own, unless the layout is one. -/
theorem layout_of_quoted {g : Gap} (quote : want.quote = true)
    (passed : gap (want.newline || want.indent || want.dedent) false false 0 none cur.rest = some g)
    (ended : g.ended = false) (uncommented : g.comment = none) (read : g.rest = quoted words post) :
    cur.layout want =
      (.quote tripled (words ++ '"' :: '"' :: '"' :: post), { cur with rest := quoted words post }) := by
  rw [Cursor.layout, passed]
  simp only [ended, Bool.false_and, Bool.false_eq_true, if_false, uncommented, quote, Option.isNone_none,
    Bool.and_self, if_true, read, openQuote_quoted]

/-- A literal is the next token where it stands. -/
theorem next_of_quoted (quote : want.quote = true) (read : cur.rest = quoted words post) :
    cur.next want = (.quote tripled (words ++ '"' :: '"' :: '"' :: post), cur) := by
  have layout := @layout_of_quoted cur want words post _ quote (by rw [read]; exact gap_quote) rfl rfl rfl
  rw [Cursor.next, Cursor.fuel, Cursor.nextWithin, layout, ← read]

theorem plain?_of_quoted (quote : want.quote = true) (read : cur.rest = quoted words post) :
    cur.plain? want = none := by
  rw [Cursor.plain?, next_of_quoted quote read]

/-- A literal that ends its line, where the text is not longer than it is said to be. -/
structure Cursor.AtLiteral (words post : List Char) (cur : Cursor) : Prop where
  spelled : Spelled words
  read : cur.rest = quoted words post
  ends : post = [] ∨ post.head? = some '\n'
  enough : cur.rest.length ≤ cur.bound

theorem Cursor.AtLiteral.leave (h : cur.AtLiteral words post) : (cur.leave post).AtLineEnd := by
  refine ⟨h.ends, ?_⟩
  have long := h.enough
  simp only [h.read, quoted, List.length_cons, List.length_append] at long
  dsimp only [Cursor.leave]
  omega

theorem literals_of_atLiteral (h : cur.AtLiteral words post) (newline : around.newline = true) :
    literals P around (fuel + 1) tripled (cur.enter tripled (words ++ '"' :: '"' :: '"' :: post)) =
      .ok (.text, cur.leave post) := by
  have body : literal P.interpolation tripled (cur.enter tripled (words ++ '"' :: '"' :: '"' :: post)) =
      .ok ((), cur.leave post) := by
    have long := h.enough
    simp only [h.read, quoted, List.length_cons, List.length_append] at long
    refine @literalBody_of_spelled (cur.enter tripled _) P words post _ _ h.spelled rfl ?_
    change words.length < cur.bound + 1
    omega
  obtain ⟨found, next | ⟨next, -⟩⟩ :=
    @Cursor.AtLineEnd.exists_next _ { around.behind with quote := true } h.leave newline rfl rfl
  all_goals
    rw [literals, body]
    dsimp only [bind, Except.bind]
    rw [next]

theorem atom_of_atLiteral (h : cur.AtLiteral words post) (newline : around.newline = true) :
    atom P target around want cur = .ok (.text, cur.leave post) := by
  rw [atom, next_of_quoted rfl h.read]
  exact literals_of_atLiteral h newline

theorem placeable_of_atLiteral (h : cur.AtLiteral words post) (newline : around.newline = true) :
    placeable P target around want cur = .ok ((.text, false), cur.leave post) := by
  rw [placeable, atom_of_atLiteral h newline]
  exact trailersWithin_of_atLineEnd h.leave newline

theorem operandWithin_of_atLiteral (h : cur.AtLiteral words post) (newline : around.newline = true) :
    operandWithin P target around (fuel + 1) want cur = .ok (.text, cur.leave post) := by
  rw [operandWithin, plain?_of_quoted rfl h.read]
  dsimp only
  rw [placeable_of_atLiteral h newline]
  rfl

theorem termWithin_of_atLiteral (h : cur.AtLiteral words post) (newline : around.newline = true) :
    termWithin P target around (fuel + 1) cur = .ok (.text, cur.leave post) := by
  rw [termWithin, plain?_of_quoted rfl h.read]
  dsimp only
  rw [Cursor.fuel, operandWithin_of_atLiteral h newline]
  exact operandsWithin_of_atLineEnd h.leave newline

theorem expressionOver_of_atLiteral (h : cur.AtLiteral words post) (newline : around.newline = true) :
    expressionOver P around cur = .ok (.text, cur.leave post) := by
  rw [expressionOver, Cursor.fuel, termWithin_of_atLiteral h newline]
  exact termsWithin_of_atLineEnd h.leave newline

end Quoted

/-! ### The line below -/

/-- The end of a line in front of one that is indented by some width and goes on with a token. -/
structure Cursor.Above (width : Nat) (rest : List Char) (cur : Cursor) : Prop where
  passed : ∀ comments, gap comments false false 0 none cur.rest = some ⟨true, width, none, rest⟩
  skipped : cur.rest.dropWhile isSpacing = rest

section Above

variable {cur : Cursor} {line margin rest : List Char} {width : Nat}

/-- What is above a token is passed by layout, and is skipped. -/
theorem above_of_newline {blanks : List Char} (token : AtToken rest)
    (blank : ∀ c ∈ blanks, isMargin c = true) (blank' : ∀ c ∈ margin, isMargin c = true)
    (read : cur.rest = blanks ++ '\n' :: (margin ++ rest)) : cur.Above (marginWidth 0 margin) rest := by
  constructor
  · intro comments
    rw [read, gap_margin blank, gap_newline, gap_margin blank', token.gap]
  · obtain ⟨c, behind, rfl, spacing, -⟩ := token.exists_cons
    rw [read, List.dropWhile_append_of_pos fun c mem => isSpacing_of_isMargin (blank c mem),
      List.dropWhile_cons_of_pos rfl,
      List.dropWhile_append_of_pos fun c mem => isSpacing_of_isMargin (blank' c mem),
      List.dropWhile_cons_of_neg (by simp [spacing])]

/-- In a block of its width the token is the next one. -/
theorem Cursor.Above.next_of_indents (above : cur.Above width rest) (token : AtToken rest)
    (inside : cur.indents.headD 0 = width) :
    ∃ next, cur.next { dedent := true, quote := true } = (next, { cur with rest }) ∧ next ≠ .dedent := by
  rw [Cursor.next, Cursor.fuel, Cursor.nextWithin]
  cases quote : openQuote { mark := '"' } rest with
  | some opening =>
    have layout : cur.layout { dedent := true, quote := true } =
        (.quote opening.1 opening.2, { cur with rest }) := by
      rw [Cursor.layout, above.passed]
      simp [← inside, quote]
    rw [layout]
    exact ⟨_, rfl, by simp⟩
  | none =>
    have layout : cur.layout { dedent := true, quote := true } = (.plain, cur) := by
      rw [Cursor.layout, above.passed]
      simp [← inside, quote]
    refine ⟨.plain, ?_, by simp⟩
    obtain ⟨c, behind, rfl, -, hash, backslash⟩ := token.exists_cons
    rw [layout]
    dsimp only
    rw [above.skipped]
    split
    · exact absurd (List.cons.inj ‹_›).1 hash
    · exact absurd (List.cons.inj ‹_›).1 backslash
    · exact absurd (List.cons.inj ‹_›).1 backslash
    · rfl

/-- Where a block may start, the token starts one exactly if it is indented further than the open one. -/
theorem Cursor.Above.nextWithin_eq (above : cur.Above width rest) (fuel : Nat) :
    cur.nextWithin { newline := true, indent := true, quote := true } (fuel + 1) =
      if cur.indents.headD 0 < width then (.indent, { cur with indents := width :: cur.indents })
      else (.newline, cur) := by
  have layout : cur.layout { newline := true, indent := true, quote := true } =
      if cur.indents.headD 0 < width then (.indent, { cur with indents := width :: cur.indents })
      else (.newline, cur) := by
    rw [Cursor.layout, above.passed]
    simp
  rw [Cursor.nextWithin, layout]
  split_ifs <;> rfl

theorem exists_margin_of_endsLine {s : List Char} (ends : EndsLine (line ++ '\n' :: s))
    (clean : '\n' ∉ line) :
    ∃ blanks, (∀ c ∈ blanks, isMargin c = true) ∧
      (line = blanks ∨ ∃ comment, line = blanks ++ '#' :: comment) := by
  have whole : line.takeWhile isMargin ++ line.dropWhile isMargin = line :=
    List.takeWhile_append_dropWhile
  refine ⟨line.takeWhile isMargin, List.all_eq_true.mp List.all_takeWhile, ?_⟩
  cases left : line.dropWhile isMargin with
  | nil =>
    rw [left, List.append_nil] at whole
    exact .inl whole.symm
  | cons c comment =>
    rw [left] at whole
    have first : c = '\n' ∨ c = '#' := by
      refine ends c ?_
      rw [List.dropWhile_append, left]
      rfl
    rcases first with rfl | rfl
    · exact absurd (by rw [← whole]; simp) clean
    · exact .inr ⟨comment, whole.symm⟩

/-- A comment is skipped up to the end of its line. -/
theorem nextWithin_of_comment {want : Expecting} {fuel : Nat} {found : Cursor}
    (plain : cur.layout want = (.plain, found)) (comment : cur.rest.dropWhile isSpacing = '#' :: rest) :
    cur.nextWithin want (fuel + 1) =
      Cursor.nextWithin want fuel { cur with rest := rest.dropWhile (· ≠ '\n') } := by
  rw [Cursor.nextWithin, plain]
  dsimp only
  rw [comment]
  rfl

/-- **The line above a token**, from a place on behind which there are only blanks and a comment. -/
theorem exists_above_of_endsLine (ends : EndsLine cur.rest) (clean : '\n' ∉ line)
    (read : cur.rest = line ++ '\n' :: (margin ++ rest)) (blank' : ∀ c ∈ margin, isMargin c = true)
    (token : AtToken rest) (enough : cur.rest.length ≤ cur.bound) :
    ∃ below, below <:+ cur.rest ∧
      ({ cur with rest := below } : Cursor).Above (marginWidth 0 margin) rest ∧
      cur.next { newline := true, indent := true, quote := true } =
        if cur.indents.headD 0 < marginWidth 0 margin then
          (.indent, { cur with rest := below, indents := marginWidth 0 margin :: cur.indents })
        else (.newline, { cur with rest := below }) := by
  obtain ⟨blanks, blank, rfl | ⟨comment, rfl⟩⟩ := exists_margin_of_endsLine (read ▸ ends) clean
  · have above : cur.Above (marginWidth 0 margin) rest := above_of_newline token blank blank' read
    exact ⟨cur.rest, List.suffix_rfl, above, above.nextWithin_eq cur.bound⟩
  · -- The first round of the search skips the comment.
    have whole : cur.rest = blanks ++ ('#' :: (comment ++ '\n' :: (margin ++ rest))) := by
      rw [read, List.append_assoc, List.cons_append]
    have unended : ∀ c ∈ comment, c ≠ '\n' := by
      rintro c mem rfl
      exact clean (by simp [mem])
    have skipped : cur.rest.dropWhile isSpacing = '#' :: (comment ++ '\n' :: (margin ++ rest)) := by
      rw [whole, List.dropWhile_append_of_pos fun c mem => isSpacing_of_isMargin (blank c mem)]
      rfl
    have below : (comment ++ '\n' :: (margin ++ rest)).dropWhile (· ≠ '\n') =
        '\n' :: (margin ++ rest) := by
      rw [List.dropWhile_append_of_pos fun c mem => decide_eq_true (unended c mem)]
      rfl
    have plain : cur.layout { newline := true, indent := true, quote := true } = (.plain, cur) := by
      have none : gap true false false 0 none cur.rest = none := by
        rw [whole, gap_margin blank]
        simp [gap]
      simp only [Cursor.layout, Bool.or_self, Bool.or_false, none]
    have above : ({ cur with rest := '\n' :: (margin ++ rest) } : Cursor).Above
        (marginWidth 0 margin) rest :=
      above_of_newline token (List.forall_mem_nil _) blank' rfl
    refine ⟨_, ⟨blanks ++ '#' :: comment, by rw [read]⟩, above, ?_⟩
    obtain ⟨n, rounds⟩ : ∃ n, cur.bound = n + 1 := by
      refine Nat.exists_eq_add_of_le' (Nat.le_trans ?_ enough)
      rw [whole, List.length_append, List.length_cons]
      omega
    have last := above.nextWithin_eq n
    rw [← rounds] at last
    rw [Cursor.next, Cursor.fuel, nextWithin_of_comment plain skipped, below]
    exact last

end Above

/-! ### A statement that is a literal -/

namespace Source

section Literal

variable {src : Source} {cur : Cursor} {words post : List Char}

theorem assignment_of_atLiteral (h : cur.AtLiteral words post)
    (parsers : ∃ n, src.parsers = nested (n + 1)) :
    src.assignment cur =
      .ok (⟨"expression_statement", [src.node "string" cur.rest post []]⟩, cur.leave post) := by
  obtain ⟨n, parsers⟩ := parsers
  have term : src.expression .onLine cur = .ok (.text, cur.leave post) := by
    rw [expression, parsers]
    exact expressionOver_of_atLiteral h rfl
  have several : src.expressions .onLine cur = .ok ((some post, false), cur.leave post) := by
    rw [expressions, Cursor.fuel, expressionsWithin, term]
    dsimp only [Except.bind, bind]
    rw [onComma?_of_atLineEnd h.leave rfl]
    rfl
  have yields : cur.onWord? { quote := true } "yield" = none := by
    rw [Cursor.onWord?, plain?_of_quoted rfl h.read]
    rfl
  rw [assignment, Cursor.fuel, assignmentWithin, yields, several]
  rfl

theorem word?_quoted : word? (quoted words post) = none := by
  have other : isNameStart '"' = false := by decide +kernel
  rw [quoted, word?, other]
  rfl

/-- **A literal that ends its line is a statement.** -/
theorem simpleStatement_of_atLiteral (h : cur.AtLiteral words post)
    (parsers : ∃ n, src.parsers = nested (n + 1)) :
    src.simpleStatement cur =
      .ok (⟨"expression_statement", [src.node "string" cur.rest post []]⟩, cur.leave post) := by
  rw [simpleStatement, h.read, word?_quoted, ← h.read]
  exact assignment_of_atLiteral h parsers

theorem compound?_of_atLiteral {suite : Suite} (h : cur.AtLiteral words post) :
    src.compound? suite cur = none := by
  have word : word? cur.rest = none := by rw [h.read, word?_quoted]
  rw [compound?]
  split
  next rest same =>
    rw [h.read] at same
    cases same
  next => rw [word]

end Literal

end Source

end SnippetAudit.Python
