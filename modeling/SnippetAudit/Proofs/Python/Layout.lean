import Mathlib.Data.List.Infix
import SnippetAudit.Python.Expression

/-!
What the readers of tokens leave as it is.

A reader only moves on in the text. Where it starts no block and ends none, the widths of the open blocks
stay, and so does what the text is said to be long. A `Frame` is what is left in this way, and
`Cursor.Within` says that a cursor keeps to it. Each reader has one lemma: from a cursor within a frame it
comes to one within that frame.
-/

namespace SnippetAudit.Python

open Text

/-! ### Results -/

section Results

variable {ε α β : Type}

/-- A result of two computations in a row is one of the second, behind a result of the first. -/
@[grind =] theorem bind_eq_ok_iff {x : Except ε α} {f : α → Except ε β} {b : β} :
    (x >>= f) = .ok b ↔ ∃ a, x = .ok a ∧ f a = .ok b := by
  cases x with
  | error e => exact iff_of_false nofun (by rintro ⟨_, ⟨⟩, _⟩)
  | ok a => exact ⟨fun h => ⟨a, rfl, h⟩, by rintro ⟨_, ⟨⟩, h⟩; exact h⟩

/-- An answer of two computations in a row is one of the second, behind an answer of the first. -/
@[grind =] theorem bind_eq_some_iff {x : Option α} {f : α → Option β} {b : β} :
    (x >>= f) = some b ↔ ∃ a, x = some a ∧ f a = some b :=
  Option.bind_eq_some_iff

end Results

/-! ### Ends of a text -/

section Ends

variable {s t : List Char} {c : Char}

attribute [local grind →] List.IsSuffix.trans

@[grind →] theorem suffix_of_cons_suffix (h : c :: s <:+ t) : s <:+ t :=
  (List.suffix_cons c s).trans h

@[grind ←] theorem suffix_cons_of_suffix (h : s <:+ t) : s <:+ c :: t :=
  h.trans (List.suffix_cons c t)

theorem suffix_dropWhile (p : Char → Bool) (s : List Char) : s.dropWhile p <:+ s :=
  List.dropWhile_suffix p

grind_pattern suffix_dropWhile => s.dropWhile p

theorem suffix_drop (n : Nat) (s : List Char) : s.drop n <:+ s :=
  List.drop_suffix n s

grind_pattern suffix_drop => s.drop n

end Ends

/-! ### Lexemes -/

section Lexemes

variable {s rest : List Char} {w : String}

/-- A lexeme is passed where it stands. -/
theorem after?_eq_some_iff {lexeme : List Char} :
    after? lexeme s = some rest ↔ s = lexeme ++ rest := by
  fun_induction after? lexeme s <;> grind

@[grind →] theorem suffix_of_after? {lexeme : List Char} (h : after? lexeme s = some rest) :
    rest <:+ s :=
  ⟨lexeme, (after?_eq_some_iff.mp h).symm⟩

@[grind →] theorem suffix_of_word? (h : word? s = some (w, rest)) : rest <:+ s := by
  unfold word? at h
  grind

@[grind →] theorem suffix_of_name? (h : name? s = some (w, rest)) : rest <:+ s := by
  unfold name? at h
  grind

@[grind →] theorem suffix_of_afterWord? (h : afterWord? w s = some rest) : rest <:+ s := by
  unfold afterWord? at h
  grind

theorem suffix_afterBased (isDigit : Char → Bool) (s : List Char) :
    afterBased isDigit s <:+ s := by
  fun_induction afterBased isDigit s <;> grind

grind_pattern suffix_afterBased => afterBased isDigit s

theorem suffix_afterDigits (s : List Char) : afterDigits s <:+ s := by
  fun_induction afterDigits s <;> grind

grind_pattern suffix_afterDigits => afterDigits s

theorem suffix_skipOne (cs s : List Char) : skipOne cs s <:+ s := by
  unfold skipOne
  grind

grind_pattern suffix_skipOne => skipOne cs s

@[grind →] theorem suffix_of_afterExponent? (h : afterExponent? s = some rest) : rest <:+ s := by
  unfold afterExponent? at h
  split at h
  · grind
  · cases h

/-- An answer or what is taken if there is none. -/
theorem suffix_getD {answer : Option (List Char)} {other : List Char}
    (some : ∀ rest, answer = some rest → rest <:+ s) (none : other <:+ s) : answer.getD other <:+ s := by
  cases answer with
  | none => exact none
  | some rest => exact some rest rfl

theorem suffix_afterExponent (s : List Char) : afterExponent s <:+ s :=
  suffix_getD (fun _ => suffix_of_afterExponent?) List.suffix_rfl

grind_pattern suffix_afterExponent => afterExponent s

theorem suffix_afterDecimal (s : List Char) : afterDecimal s <:+ s := by
  unfold afterDecimal
  grind

grind_pattern suffix_afterDecimal => afterDecimal s

@[grind →] theorem suffix_of_afterBase? {isDigit : Char → Bool} (h : afterBase? isDigit s = some rest) :
    rest <:+ s := by
  unfold afterBase? at h
  grind

@[grind →] theorem suffix_of_number? (h : number? s = some rest) : rest <:+ s := by
  unfold number? at h
  split at h
  · rw [← Option.some.inj h]
    exact suffix_getD (by grind) (suffix_afterDecimal _)
  · grind
  · grind
  · cases h

@[grind →] theorem suffix_of_updateOperator? (h : updateOperator? s = some rest) : rest <:+ s := by
  obtain ⟨_, -, found⟩ := List.exists_of_findSome?_eq_some h
  exact suffix_of_after? found

@[grind →] theorem suffix_of_symbolOperator? (h : symbolOperator? s = some rest) : rest <:+ s := by
  rw [symbolOperator?] at h
  split at h
  · cases h
  · obtain ⟨_, -, found⟩ := List.exists_of_findSome?_eq_some h
    exact suffix_of_after? found

end Lexemes

/-! ### Frames -/

/-- What reading leaves as it is: the text that it reads an end of, the widths of the open blocks, the
length that the text is said to have, and whether it is outside of all interpolated literals. -/
structure Frame where
  text : List Char
  blocks : List Nat
  bound : Nat
  outside : Bool

/-- The frame for the inside of a literal. -/
def Frame.inside (F : Frame) : Frame := { F with outside := false }

/-- A cursor keeps to a frame. -/
structure Cursor.Within (F : Frame) (cur : Cursor) : Prop where
  rest : cur.rest <:+ F.text
  indents : cur.indents = F.blocks
  bound : cur.bound = F.bound
  outside : F.outside = true → cur.interpolating = false

/-- The frame of a text that goes on further. -/
theorem Cursor.Within.widen {F : Frame} {cur : Cursor} {text : List Char} (s : cur.Within F)
    (h : F.text <:+ text) : cur.Within { F with text } :=
  ⟨s.rest.trans h, s.indents, s.bound, s.outside⟩

/-- From a place on there is only what is behind it. -/
theorem Cursor.Within.here {F : Frame} {cur : Cursor} (s : cur.Within F) :
    cur.Within { F with text := cur.rest } :=
  ⟨List.suffix_rfl, s.indents, s.bound, s.outside⟩

/-- A token found from a cursor within a frame, and its place. Only where a block starts or ends are there
other open blocks. -/
def Found (F : Frame) : Token × Cursor → Prop
  | (.plain, found) | (.newline, found) => found.Within F
  | (.quote _ body, found) => found.Within F ∧ body <:+ found.rest
  | (.indent, found) => ∃ width, found.Within { F with blocks := width :: F.blocks }
  | (.dedent, found) => found.Within { F with blocks := F.blocks.tail }

section Next

variable {F : Frame} {cur found : Cursor} {want : Expecting} {rest : List Char}

/-- A cursor that moves on in the text stays within the frame. -/
theorem Cursor.Within.move (s : cur.Within F) (h : rest <:+ cur.rest) :
    ({ cur with rest } : Cursor).Within F :=
  ⟨h.trans s.rest, s.indents, s.bound, s.outside⟩

grind_pattern Cursor.Within.move =>
  cur.Within F, Cursor.mk rest cur.indents cur.interpolating cur.bound

/-- Behind a literal a cursor is within the frame again. -/
theorem Cursor.Within.leave (s : cur.Within F.inside) (h : rest <:+ cur.rest) :
    ({ cur with rest, interpolating := false } : Cursor).Within F :=
  ⟨h.trans s.rest, s.indents, s.bound, fun _ => rfl⟩

grind_pattern Cursor.Within.leave =>
  cur.Within F.inside, Cursor.mk rest cur.indents false cur.bound

theorem suffix_of_gap {comments inComment ended : Bool} {width : Nat} {comment : Option Nat}
    {s : List Char} {g : Gap} (h : gap comments inComment ended width comment s = some g) :
    g.rest <:+ s := by
  fun_induction gap comments inComment ended width comment s <;> grind

theorem suffix_of_openQuote {q q' : Quote} {s body : List Char}
    (h : openQuote q s = some (q', body)) : body <:+ s := by
  induction s generalizing q with
  | nil => cases h
  | cons c rest ih =>
    unfold openQuote at h
    grind

theorem found_layout (s : cur.Within F) : Found F (cur.layout want) := by
  unfold Cursor.layout
  split
  next => exact s
  next g passed =>
    refine iteInduction (fun _ => ?_) fun _ => iteInduction (fun _ => ?_) fun _ =>
      iteInduction (fun _ => s) fun _ => iteInduction (fun _ => ?_) fun _ => s
    · exact ⟨g.width, s.rest, by rw [s.indents], s.bound, s.outside⟩
    · exact ⟨s.rest, by rw [s.indents], s.bound, s.outside⟩
    · split
      next opened => exact ⟨s.move (suffix_of_gap passed), suffix_of_openQuote opened⟩
      next => exact s

/-- **The next token is found within the frame.** Each round of the search but the last only skips a comment
or the end of a line. -/
theorem found_nextWithin {fuel : Nat} (s : cur.Within F) : Found F (cur.nextWithin want fuel) := by
  induction fuel generalizing cur with
  | zero => exact s
  | succ fuel ih =>
    have skipped := suffix_dropWhile isSpacing cur.rest
    rw [Cursor.nextWithin]
    split
    · split
      next comment => exact ih (s.move ((suffix_dropWhile _ _).trans (by grind)))
      next joined => exact ih (s.move (by grind))
      next joined => exact ih (s.move (by grind))
      next => exact s.move skipped
    · exact found_layout s

theorem found_next {token : Token} (s : cur.Within F) (h : cur.next want = (token, found)) :
    Found F (token, found) := by
  rw [← h]
  exact found_nextWithin s

@[grind →] theorem within_of_next_plain (s : cur.Within F) (h : cur.next want = (.plain, found)) :
    found.Within F :=
  found_next s h

@[grind →] theorem within_of_next_newline (s : cur.Within F) (h : cur.next want = (.newline, found)) :
    found.Within F :=
  found_next s h

/-- A block starts only where one may, and ends only where one may or where no line may end. -/
theorem wanted_of_layout {token : Token} (h : cur.layout want = (token, found)) :
    (token = .indent → want.indent = true) ∧
      (token = .dedent → want.dedent = true ∨ want.newline = false) := by
  unfold Cursor.layout at h
  grind

theorem wanted_of_next {token : Token} (h : cur.next want = (token, found)) :
    (token = .indent → want.indent = true) ∧
      (token = .dedent → want.dedent = true ∨ want.newline = false) := by
  unfold Cursor.next at h
  generalize cur.fuel = fuel at h
  induction fuel generalizing cur with
  | zero =>
    cases h
    exact ⟨nofun, nofun⟩
  | succ fuel ih =>
    rw [Cursor.nextWithin] at h
    split at h
    · split at h
      · exact ih h
      · exact ih h
      · exact ih h
      · cases h
        exact ⟨nofun, nofun⟩
    · exact wanted_of_layout h

/-- A token that neither starts a block nor ends one is found within the frame. -/
theorem within_of_next {token : Token} (s : cur.Within F) (h : cur.next want = (token, found))
    (flat : token ≠ .indent) (level : token ≠ .dedent) : found.Within F := by
  have here := found_next s h
  cases token with
  | indent => exact absurd rfl flat
  | dedent => exact absurd rfl level
  | newline => exact here
  | quote q body => exact here.1
  | plain => exact here

/-- A token that does not start a block is found where the same blocks are open, or all but the last. -/
theorem within_or_of_next {token : Token} (s : cur.Within F) (h : cur.next want = (token, found))
    (flat : token ≠ .indent) : found.Within F ∨ found.Within { F with blocks := F.blocks.tail } := by
  have here := found_next s h
  cases token with
  | indent => exact absurd rfl flat
  | dedent => exact .inr here
  | newline => exact .inl here
  | quote q body => exact .inl here.1
  | plain => exact .inl here

theorem within_of_next_indent (s : cur.Within F) (h : cur.next want = (.indent, found)) :
    ∃ width, found.Within { F with blocks := width :: F.blocks } :=
  found_next s h

theorem within_of_next_dedent (s : cur.Within F) (h : cur.next want = (.dedent, found)) :
    found.Within { F with blocks := F.blocks.tail } :=
  found_next s h

@[grind →] theorem within_of_next_quote {q : Quote} {body : List Char} (s : cur.Within F)
    (h : cur.next want = (.quote q body, found)) :
    found.Within F ∧ (found.enter q body).Within F.inside := by
  obtain ⟨s, inside⟩ : Found F (.quote q body, found) := found_next s h
  exact ⟨s, inside.trans s.rest, s.indents, s.bound, nofun⟩

theorem Cursor.Within.settle (want : Expecting) (s : cur.Within F) : (cur.settle want).Within F := by
  unfold Cursor.settle
  grind

grind_pattern Cursor.Within.settle => cur.Within F, cur.settle want

theorem next_of_plain? (h : cur.plain? want = some found) : cur.next want = (.plain, found) := by
  unfold Cursor.plain? at h
  grind

@[grind →] theorem Cursor.Within.plain? (s : cur.Within F) (h : cur.plain? want = some found) :
    found.Within F :=
  within_of_next_plain s (next_of_plain? h)

/-- A token is found behind the place where the search for it starts. -/
theorem rest_suffix_of_nextWithin {fuel : Nat} {token : Token}
    (next : cur.nextWithin want fuel = (token, found)) : found.rest <:+ cur.rest := by
  have s : cur.Within ⟨cur.rest, cur.indents, cur.bound, false⟩ := ⟨List.suffix_rfl, rfl, rfl, nofun⟩
  have here : Found _ (token, found) := next ▸ found_nextWithin s
  cases token with
  | indent => exact here.choose_spec.rest
  | quote => exact here.1.rest
  | _ => exact here.rest

theorem upcoming_of_next {token : Token} (h : cur.next want = (token, found)) :
    cur.upcoming want = found.rest := by
  rw [Cursor.upcoming, h]

theorem Cursor.Within.upcoming (want : Expecting) (s : cur.Within F) : cur.upcoming want <:+ F.text :=
  (rest_suffix_of_nextWithin rfl).trans s.rest

end Next

/-! ### Fixed tokens -/

section Fixed

variable {F : Frame} {cur cur' : Cursor} {want : Expecting} {lexeme w : String}

@[grind →] theorem Cursor.Within.on? (s : cur.Within F) (h : cur.on? want lexeme = some cur') :
    cur'.Within F := by
  unfold Cursor.on? at h
  grind

/-- A lexeme that is passed is the next in the text. -/
theorem upcoming_of_on? (h : cur.on? want lexeme = some cur') :
    cur.upcoming want = lexeme.toList ++ cur'.rest := by
  obtain ⟨found, plain, h⟩ := bind_eq_some_iff.mp h
  obtain ⟨rest, passed, h⟩ := bind_eq_some_iff.mp h
  cases h
  rw [← after?_eq_some_iff.mp passed, upcoming_of_next (next_of_plain? plain)]

/-- Behind a word there is only what is behind its place. -/
theorem Cursor.Within.settle_onWord? (s : cur.Within F) (h : cur.onWord? want w = some cur') :
    cur'.Within { F with text := (cur.settle want).rest } := by
  obtain ⟨found, plain, h⟩ := bind_eq_some_iff.mp h
  obtain ⟨rest, passed, h⟩ := bind_eq_some_iff.mp h
  cases h
  have here : cur.settle want = found := by rw [Cursor.settle, next_of_plain? plain]
  rw [here]
  exact (s.plain? plain).here.move (suffix_of_afterWord? passed)

@[grind →] theorem Cursor.Within.onWord? (s : cur.Within F) (h : cur.onWord? want w = some cur') :
    cur'.Within F := by
  unfold Cursor.onWord? at h
  grind

/-- An optional token may be passed or not. -/
theorem Cursor.Within.getD {answer : Option Cursor} (s : cur.Within F)
    (passed : ∀ cur', answer = some cur' → cur'.Within F) : (answer.getD cur).Within F := by
  cases answer with
  | none => exact s
  | some cur' => exact passed cur' rfl

grind_pattern Cursor.Within.getD => cur.Within F, answer.getD cur

@[grind =] theorem stuck_eq_ok_iff {α : Type} {a : α} : cur.stuck want = .ok a ↔ False :=
  iff_of_false nofun not_false

@[grind →] theorem Cursor.Within.expect (s : cur.Within F) (h : cur.expect want lexeme = .ok cur') :
    cur'.Within F := by
  unfold Cursor.expect at h
  grind

theorem upcoming_of_expect (h : cur.expect want lexeme = .ok cur') :
    cur.upcoming want = lexeme.toList ++ cur'.rest := by
  unfold Cursor.expect at h
  split at h
  next passed =>
    cases h
    exact upcoming_of_on? passed
  next => cases h

@[grind →] theorem Cursor.Within.expectWord (s : cur.Within F) (h : cur.expectWord want w = .ok cur') :
    cur'.Within F := by
  unfold Cursor.expectWord at h
  grind

@[grind →] theorem Cursor.Within.expectName {named : String × Cursor} (s : cur.Within F)
    (h : cur.expectName want = .ok named) : named.2.Within F := by
  unfold Cursor.expectName at h
  grind

@[grind →] theorem Cursor.Within.onColon? (s : cur.Within F) (h : cur.onColon? want = some cur') :
    cur'.Within F := by
  unfold Cursor.onColon? at h
  grind

@[grind →] theorem Cursor.Within.onEquals? (s : cur.Within F) (h : cur.onEquals? want = some cur') :
    cur'.Within F := by
  unfold Cursor.onEquals? at h
  grind

@[grind →] theorem Cursor.Within.onComma? (s : cur.Within F) (h : cur.onComma? want = some cur') :
    cur'.Within F :=
  s.on? h

end Fixed

end SnippetAudit.Python
