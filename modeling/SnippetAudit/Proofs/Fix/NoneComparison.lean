import SnippetAudit.Proofs.Fix.Loop
import SnippetAudit.Proofs.Fix.Title

/-!
When comparing with `None` by identity leaves a text well formed.

The rewrite puts a word in the place of a sign. Beside a sign a name may stand without a blank, beside a
word it may not: behind a name, or in front of one, `is` becomes part of it (`joinsName`). Wherever that does
not happen the text stays well formed. Of the grammar no more is used than that blanks beside a comparison
do not matter and that `is` stands wherever `==` does, away from names (`ComparesAlike`).
-/

namespace SnippetAudit.Fix

open Text Finding Battery

/-! ### What joins a name -/

/-- Whether a text ends inside a name. -/
def endsInName (s : List Char) : Bool := s.getLast?.any isNameContinue

/-- Whether a text goes on with a name. -/
def beginsInName (s : List Char) : Bool := s.head?.any isNameContinue

/-- Matches what `m` matches right behind a name. -/
def behindName (m : Matcher) : Matcher := fun before s =>
  if before.any isNameContinue then m before s else none

/-- Matches what `m` matches right in front of a name. -/
def inFrontOfName (m : Matcher) : Matcher := fun before s =>
  (m before s).filter fun n => beginsInName (s.drop n)

/-- Whether comparing by identity joins an `is` to a name on a line: in the first pass to one in front of it,
or in the second to one behind it. -/
def joinsName (line : String) : Bool :=
  foundOn (behindName noneOnRight) line || foundOn (inFrontOfName noneOnLeft) (rightByIdentity line)

theorem endsInName_append {u v : List Char} (nonempty : v ≠ []) :
    endsInName (u ++ v) = endsInName v := by
  rw [endsInName, List.getLast?_append_of_ne_nil _ nonempty, endsInName]

theorem beginsInName_append {u v : List Char} (nonempty : u ≠ []) :
    beginsInName (u ++ v) = beginsInName u := by
  rw [beginsInName, List.head?_append_of_ne_nil _ nonempty, beginsInName]

section Names

variable {lead trail : String} {s pre w post : List Char}

/-- Where no match is right behind a name, no word of the pattern is. -/
theorem endsInName_eq_false (visible : Visible trail)
    (clear : occurs (behindName (gapped lead trail)) s = false) (cut : s = pre ++ (w ++ post))
    (word : Gapped lead trail w) : endsInName pre = false := by
  rw [Bool.eq_false_iff] at clear ⊢
  intro named
  refine clear ?_
  rw [occurs, cut]
  refine occursFrom_append ?_ ?_
  · exact List.append_ne_nil_of_left_ne_nil (word.ne_nil visible) post
  · have matched : (gapped lead trail pre.getLast? (w ++ post)).isSome = true :=
      (isSome_gapped_iff visible).mpr ⟨w, word, List.prefix_append w post⟩
    rw [endsInName] at named
    rwa [Option.or_none, behindName, if_pos named]

/-- Where no match is right in front of a name, no word of the pattern is. -/
theorem beginsInName_eq_false (visible : Visible trail)
    (clear : occurs (inFrontOfName (gapped lead trail)) s = false) (cut : s = pre ++ (w ++ post))
    (word : Gapped lead trail w) : beginsInName post = false := by
  rw [Bool.eq_false_iff] at clear ⊢
  intro named
  refine clear ?_
  rw [occurs, cut]
  refine occursFrom_append ?_ ?_
  · exact List.append_ne_nil_of_left_ne_nil (word.ne_nil visible) post
  · have matched : gapped lead trail (pre.getLast?.or none) (w ++ post) = some w.length :=
      (gapped_eq_some_iff visible).mpr ⟨w, word, List.prefix_append w post, rfl⟩
    rw [inFrontOfName, matched, Option.filter_some, List.drop_left, if_pos named]
    rfl

end Names

/-! ### The rewrite of a line -/

/-- What a grammar has to allow for: one blank for any that stand between a sign and `None`, on either side,
and `is` for `==` where neither end touches a name. -/
structure ComparesAlike (accepts : List Char → Bool) : Prop where
  blank_behind : ∀ {front gap back}, (∀ c ∈ gap, isBlank c = true) → '\n' ∉ gap →
    accepts (front ++ ("==".toList ++ (gap ++ ("None".toList ++ back)))) = true →
      accepts (front ++ ("== None".toList ++ back)) = true
  blank_in_front : ∀ {front gap back}, (∀ c ∈ gap, isBlank c = true) → '\n' ∉ gap →
    accepts (front ++ ("None".toList ++ (gap ++ ("==".toList ++ back)))) = true →
      accepts (front ++ ("None ==".toList ++ back)) = true
  identity : ∀ {front back}, endsInName front = false → beginsInName back = false →
    accepts (front ++ ("==".toList ++ back)) = true → accepts (front ++ ("is".toList ++ back)) = true

section Line

variable {accepts : List Char → Bool} (alike : ComparesAlike accepts) {kept : List Char → Prop}
  {front front' s t tail : List Char}

include alike

/-- The first pass. It ends every stretch as it was, so what is in front of the rest ends inside a name
(`front'`) only if it did so to begin with (`front`). -/
theorem accepts_of_patched_right (h : Patched "is None".toList kept (MatchedBy noneOnRight) s t)
    (clean : '\n' ∉ s)
    (clear : ∀ pre w post, front ++ s = pre ++ (w ++ post) → Gapped "==" "None" w →
      endsInName pre = false)
    (same : endsInName front' = endsInName front) (accepted : accepts (front' ++ (s ++ tail)) = true) :
    accepts (front' ++ (t ++ tail)) = true := by
  induction h generalizing front front' with
  | nil => exact accepted
  | @keep c s t _ _ ih =>
    have inner := ih (fun mem => clean (List.mem_cons_of_mem c mem))
      (by rwa [List.append_cons] at clear)
      (show endsInName (front' ++ [c]) = endsInName (front ++ [c]) by
        rw [endsInName_append (by simp), endsInName_append (by simp)])
      (by simpa using accepted)
    simpa using inner
  | @patch piece s t removed _ ih =>
    have word := gapped_of_matchedBy visible_none removed
    have apart : endsInName front' = false := same.trans (clear front piece s rfl word)
    have last : endsInName (front' ++ "is None".toList) = endsInName (front ++ piece) := by
      obtain ⟨gap, -, rfl⟩ := word
      rw [← List.append_assoc, ← List.append_assoc, endsInName_append (by decide),
        endsInName_append (by decide)]
      decide
    have replaced : accepts (front' ++ ("is".toList ++ (" None".toList ++ (s ++ tail)))) = true := by
      obtain ⟨gap, blank, rfl⟩ := word
      refine alike.identity apart (by rw [beginsInName_append (by decide)]; decide) ?_
      refine alike.blank_behind blank (fun mem => clean ?_) ?_
      · simp [mem]
      · simpa using accepted
    have inner := ih (fun mem => clean (List.mem_append_right piece mem))
      (by rwa [← List.append_assoc] at clear) last (by simpa using replaced)
    simpa using inner

/-- The second pass. It ends every stretch with a sign to the right of which nothing has changed. -/
theorem accepts_of_patched_left (h : Patched "None is".toList kept (MatchedBy noneOnLeft) s t)
    (clean : '\n' ∉ s)
    (clear : ∀ pre w post, s = pre ++ (w ++ post) → Gapped "None" "==" w →
      beginsInName (post ++ tail) = false)
    (accepted : accepts (front ++ (s ++ tail)) = true) : accepts (front ++ (t ++ tail)) = true := by
  induction h generalizing front with
  | nil => exact accepted
  | @keep c s t _ _ ih =>
    have inner := ih (fun mem => clean (List.mem_cons_of_mem c mem))
      (fun pre w post cut => clear (c :: pre) w post (by rw [cut, List.cons_append]))
      (show accepts ((front ++ [c]) ++ (s ++ tail)) = true by simpa using accepted)
    simpa using inner
  | @patch piece s t removed _ ih =>
    have word := gapped_of_matchedBy visible_equals removed
    have apart : beginsInName (s ++ tail) = false := clear [] piece s rfl word
    have replaced : accepts ((front ++ "None ".toList) ++ ("is".toList ++ (s ++ tail))) = true := by
      obtain ⟨gap, blank, rfl⟩ := word
      refine alike.identity (by rw [endsInName_append (by decide)]; decide) apart ?_
      have spaced : accepts (front ++ ("None ==".toList ++ (s ++ tail))) = true := by
        refine alike.blank_in_front blank (fun mem => clean ?_) ?_
        · simp [mem]
        · simpa using accepted
      simpa using spaced
    have inner := ih (fun mem => clean (List.mem_append_right piece mem))
      (fun pre w post cut => clear (piece ++ pre) w post (by rw [cut, List.append_assoc]))
      (show accepts ((front ++ "None is".toList) ++ (s ++ tail)) = true by simpa using replaced)
    simpa using inner

/-- **A line may be compared by identity** within a text that touches it with no name, as long as no name is
joined. -/
theorem accepts_compareByIdentity {line : String} (isLine : IsLine line) (apart : joinsName line = false)
    (ends : endsInName front = false) (begins : beginsInName tail = false)
    (accepted : accepts (front ++ (line.toList ++ tail)) = true) :
    accepts (front ++ ((compareByIdentity line).toList ++ tail)) = true := by
  rw [joinsName, Bool.or_eq_false_iff] at apart
  obtain ⟨behind, inFront⟩ := apart
  have right : accepts (front ++ ((rightByIdentity line).toList ++ tail)) = true := by
    have patched := patched_replace (@sized_gapped "==" "None" visible_none) "is None".toList
      line.toList
    have clear : ∀ pre w post, [] ++ line.toList = pre ++ (w ++ post) → Gapped "==" "None" w →
        endsInName pre = false :=
      fun pre w post cut word => endsInName_eq_false visible_none behind cut word
    rw [rightByIdentity, toList_rewriteLine]
    exact accepts_of_patched_right alike patched isLine clear ends accepted
  have patched := patched_replace (@sized_gapped "None" "==" visible_equals) "None is".toList
    (rightByIdentity line).toList
  rw [compareByIdentity_eq, toList_rewriteLine]
  refine accepts_of_patched_left alike patched ?_ ?_ right
  · exact isLine_rewriteLine (sized_gapped visible_none) (by decide) isLine
  · intro pre w post cut word
    have clear := beginsInName_eq_false visible_equals inFront cut word
    cases post with
    | nil => exact begins
    | cons c post => exact clear

end Line

/-! ### The fixes -/

theorem compareByIdentity_ne_empty {line : String} (nonempty : line ≠ "") :
    compareByIdentity line ≠ "" := by
  have chars : ∀ {s : String}, s ≠ "" ↔ s.toList ≠ [] := by simp
  rw [chars] at nonempty ⊢
  exact (patched_compareByIdentity line).ne_nil (by decide)
    ((patched_rightByIdentity line).ne_nil (by decide) nonempty)

/-- The texts that a reader takes for well formed, as lists of characters. -/
def readsAs (read : Python.Reader) (s : List Char) : Bool := isValidBy read (String.ofList s) .python

/-- **Comparing with `None` by identity keeps a text well formed where it joins no name.** Each such fix can be
applied to the text for which it was made, and what comes out is well formed if that text was, unless an `is`
is joined to a name. -/
theorem identity_keeps_valid (read : Python.Reader) (alike : ComparesAlike (readsAs read)) (counter : Nat)
    {code : String} (valid : isValidBy read code .python = true) :
    ∀ f ∈ (generateBy read counter code .python).1, Titled identityLead f.title →
      joinsName f.before = false →
        ∃ fixed, apply code f = .ok fixed ∧ isValidBy read fixed .python = true := by
  intro f numbered titled apart
  obtain ⟨p, proposed, n, rfl⟩ := exists_of_mem_numbered numbered
  obtain ⟨pre, line, post, cut, found⟩ :=
    mem_eachLine.mp (mem_noneComparisonFix_of_titled proposed titled)
  obtain ⟨flawed, first, last, rfl, after⟩ := lightens_noneComparisonFix.edits found
  have edits : EditsLine code pre post p := ⟨cut, first, last⟩
  have nonempty : p.before ≠ "" := by
    intro empty
    rw [empty] at flawed
    revert flawed
    decide
  have replaced : replacement p = [compareByIdentity p.before] := by
    rw [replacement, after, if_neg (compareByIdentity_ne_empty nonempty)]
  refine ⟨_, edits.apply_eq n, ?_⟩
  rw [replaced, List.append_assoc, List.singleton_append, unlines_append_cons]
  refine accepts_compareByIdentity alike ?_ apart ?_ ?_ ?_
  · exact isLine_of_mem_lines (by rw [cut]; simp)
  · rw [endsInName]
    rcases getLast?_endedLines pre with none' | newline
    · rw [none']
      decide
    · rw [newline]
      decide
  · rw [beginsInName]
    rcases head?_begunLines post with none' | newline
    · rw [none']
      decide
    · rw [newline]
      decide
  · rwa [readsAs, ← unlines_append_cons, ← cut, unlines_lines]

/-- A reader that asks of a text only that as many parentheses are closed as are opened. It finds the tree that
the grammar finds, if that is one of a module. -/
def readBalanced : Python.Reader := fun code =>
  if code.toList.count '(' = code.toList.count ')' then
    .ok (((Python.Reader.tree Python.readTree code).toOption).getD (Python.nodeOf [] "module" [] [] []))
  else .ok (Python.nodeOf [] "ERROR" [] [] [])

/-- Texts with as many parentheses closed as are opened are modules. -/
theorem exists_tree_readBalanced {code : String}
    (balanced : code.toList.count '(' = code.toList.count ')') :
    ∃ root, Python.Reader.tree readBalanced code = .ok root := by
  simp only [Python.Reader.tree_eq_ok_iff, readBalanced, if_pos balanced, Except.ok.injEq, exists_eq_left']
  cases tree : Python.Reader.tree Python.readTree code with
  | error e => exact ⟨rfl, rfl⟩
  | ok root => exact (Python.Reader.tree_eq_ok_iff.mp tree).2

theorem readsAs_readBalanced (s : List Char) :
    readsAs readBalanced s = decide (s.count '(' = s.count ')') := by
  rw [readsAs, isValidBy, validateBy, Python.Reader.check]
  by_cases balanced : s.count '(' = s.count ')'
  · obtain ⟨root, tree⟩ := @exists_tree_readBalanced (String.ofList s) (by simpa using balanced)
    simp [tree, balanced, Except.map, Except.isOk, Except.toBool]
  · have refused : readBalanced (String.ofList s) = .ok (Python.nodeOf [] "ERROR" [] [] []) := by
      rw [readBalanced, String.toList_ofList, if_neg balanced]
    simp only [Python.Reader.tree, refused, balanced, decide_false]
    rfl

theorem comparesAlike_readBalanced : ComparesAlike (readsAs readBalanced) where
  blank_behind := by
    intro front gap back blank _ accepted
    have opened : '(' ∉ gap := fun mem => absurd (blank _ mem) (by decide)
    have closed : ')' ∉ gap := fun mem => absurd (blank _ mem) (by decide)
    simpa [readsAs_readBalanced, List.count_eq_zero.mpr opened, List.count_eq_zero.mpr closed] using
      accepted
  blank_in_front := by
    intro front gap back blank _ accepted
    have opened : '(' ∉ gap := fun mem => absurd (blank _ mem) (by decide)
    have closed : ')' ∉ gap := fun mem => absurd (blank _ mem) (by decide)
    simpa [readsAs_readBalanced, List.count_eq_zero.mpr opened, List.count_eq_zero.mpr closed] using
      accepted
  identity := by
    intro front back _ _ accepted
    simpa [readsAs_readBalanced] using accepted

/-- The reader of the grammar agrees on the text and on what comes out. -/
theorem identity_keeps_valid_in_condition :
    ComparesAlike (readsAs readBalanced) ∧
      isValidBy readBalanced "if (x == None):\n    pass" .python = true ∧
      isValid "if (x == None):\n    pass" .python = true ∧
      ∃ f ∈ (generateBy readBalanced 0 "if (x == None):\n    pass" .python).1,
        Titled identityLead f.title ∧ joinsName f.before = false ∧
          ∃ fixed, apply "if (x == None):\n    pass" f = .ok fixed ∧
            fixed = "if (x is None):\n    pass" ∧ isValidBy readBalanced fixed .python = true ∧
            isValid fixed .python = true := by
  have valid : isValidBy readBalanced "if (x == None):\n    pass" .python = true := by decide +kernel
  have agrees : isValid "if (x == None):\n    pass" .python = true := by decide +kernel
  have proposed : ∃ f ∈ (generateBy readBalanced 0 "if (x == None):\n    pass" .python).1,
      Titled identityLead f.title ∧ joinsName f.before = false ∧
        (apply "if (x == None):\n    pass" f).toOption = some "if (x is None):\n    pass" := by
    decide +kernel
  obtain ⟨f, mem, titled, apart, result⟩ := proposed
  obtain ⟨fixed, applied, stays⟩ :=
    identity_keeps_valid readBalanced comparesAlike_readBalanced 0 valid f mem titled apart
  obtain rfl : fixed = "if (x is None):\n    pass" := by
    rw [applied] at result
    exact Option.some.inj result
  exact ⟨comparesAlike_readBalanced, valid, agrees, f, mem, titled, apart, _, applied, rfl, stays,
    by decide +kernel⟩

/-- An `is` that is joined to the name in front of it leaves two names in a row. -/
theorem identity_joined_to_name :
    isValid "x==None" .python = true ∧
      ∃ f ∈ (generate 0 "x==None" .python).1, Titled identityLead f.title ∧ f.automatic = true ∧
        (apply "x==None" f).toOption = some "xis None" ∧ isValid "xis None" .python = false := by
  decide +kernel

end SnippetAudit.Fix
