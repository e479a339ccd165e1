import Mathlib.Data.List.Chain
import SnippetAudit.Proofs.Finding.Occurrence
import SnippetAudit.Proofs.Fix.Coverage
import SnippetAudit.Proofs.Fix.TrailingBlanks

/-!
What the fixes for weaknesses leave on their lines.

Both rewrite every match that a search finds, so what they leave are the matches that start inside another one.
The pattern for assignments of markup takes in the character behind the equals sign, and that for calls of
`eval` the one in front of the name. So the one leaves an assignment that is what another one assigns
(`occurs_assignText_iff`), the other a call with which the argument of another one begins
(`occurs_evaluateLiterals_iff`). Neither makes a match or hides one (`transparent_assignText`,
`transparent_evaluateLiterals`), and what is left is proposed to be rewritten again (`weakness_remains_iff`).
-/

namespace SnippetAudit.Fix

open Text Finding Battery

/-! ### Assignments of markup -/

/-- Assign text in place of markup: a match with the name of the property changed. -/
def assignText (found : List Char) : List Char :=
  "textContent".toList ++ found.drop "innerHTML".toList.length

/-- An assignment is told by the word that it begins with and by what does not follow. -/
theorem assignedFirst_iff_isPrefix {s : List Char} :
    AssignedFirst s ↔ ∃ w, Gapped "innerHTML" "=" w ∧ w <+: s ∧ ¬ (w ++ ['=']) <+: s := by
  have follows (w rest : List Char) : (w ++ ['=']) <+: w ++ rest ↔ rest.head? = some '=' := by
    rw [List.prefix_append_right_inj]
    cases rest with
    | nil => simp
    | cons d tail => simp [List.cons_prefix_cons, eq_comm]
  constructor
  · rintro ⟨w, rest, word, rfl, other⟩
    exact ⟨w, word, List.prefix_append w rest, mt (follows w rest).mp other⟩
  · rintro ⟨w, word, ⟨rest, rfl⟩, other⟩
    exact ⟨w, rest, word, rfl, mt (follows w rest).mpr other⟩

/-- A word without the first letters of `innerHTML` and `textContent` is seen after replacing where it was
before. -/
theorem isPrefix_assignText_iff {w s : List Char} (absent : 'i' ∉ w) (absent' : 't' ∉ w) (b : Char) :
    w <+: replaceFrom innerHtmlAssignment assignText (some b) 0 s ↔ w <+: s := by
  refine isPrefix_replaceFrom_iff ?_ b
  intro v nonempty hv b s n t found
  obtain ⟨x, v, rfl⟩ := List.exists_cons_of_ne_nil nonempty
  have mem : x ∈ w := hv.mem List.mem_cons_self
  have first := head?_of_innerHtmlAssignment (some b) s (by rw [found]; rfl)
  obtain ⟨rest, rfl⟩ := List.head?_eq_some_iff.mp first
  refine iff_of_false ?_ ?_
  · intro seen
    have same : x = 't' := (List.cons_prefix_cons.mp seen).1
    exact absent' (same ▸ mem)
  · intro seen
    have same : x = 'i' := (List.cons_prefix_cons.mp seen).1
    exact absent (same ▸ mem)

theorem assignedFirst_assignText_iff (c : Char) (rest : List Char) :
    AssignedFirst (c :: replaceFrom innerHtmlAssignment assignText (some c) 0 rest) ↔
      AssignedFirst (c :: rest) := by
  rw [assignedFirst_iff_isPrefix, assignedFirst_iff_isPrefix]
  refine exists_congr fun w => and_congr_right fun word => ?_
  obtain ⟨more, rfl, absent, absent'⟩ := exists_of_gapped_innerHtml word
  have absent₂ : 'i' ∉ more ++ ['='] := by simp [absent]
  have absent₂' : 't' ∉ more ++ ['='] := by simp [absent']
  rw [List.cons_append, List.cons_prefix_cons, List.cons_prefix_cons, List.cons_prefix_cons,
    List.cons_prefix_cons, isPrefix_assignText_iff absent absent',
    isPrefix_assignText_iff absent₂ absent₂']

/-- What takes the place of a match ends as the match does. -/
theorem exists_assignText {w : List Char} (word : Gapped "innerHTML" "=" w) :
    ∃ tail, tail ≠ [] ∧ 'i' ∉ tail ∧ w = "innerHTML".toList ++ tail ∧
      ∀ post, assignText (w ++ post) = "textContent".toList ++ tail ++ post := by
  obtain ⟨gap, blank, rfl⟩ := word
  have apart : 'i' ∉ gap := not_mem_of_blank blank (by decide)
  have cut (front lead tail post : List Char) :
      front ++ (lead ++ tail ++ post).drop lead.length = front ++ tail ++ post := by
    rw [List.append_assoc lead, List.drop_left, List.append_assoc]
  exact ⟨gap ++ "=".toList, by simp, by simp [apart], rfl, fun post => cut _ _ _ _⟩

/-- Texts with one end have one last character. -/
theorem getLast?_append_append {tail : List Char} (nonempty : tail ≠ []) (u v post : List Char) :
    (u ++ tail ++ post).getLast? = (v ++ tail ++ post).getLast? := by
  rw [List.append_assoc, List.append_assoc,
    List.getLast?_append_of_ne_nil _ (List.append_ne_nil_of_left_ne_nil nonempty post),
    List.getLast?_append_of_ne_nil _ (List.append_ne_nil_of_left_ne_nil nonempty post)]

theorem transparent_assignText : Transparent innerHtmlAssignment assignText where
  keeps := by
    intro before c rest
    rw [Bool.eq_iff_iff, isSome_innerHtmlAssignment_iff, isSome_innerHtmlAssignment_iff,
      assignedFirst_assignText_iff]
  ends := by
    intro before c rest n found
    have positive := (lengthens_innerHtmlAssignment _ _ _ found).1
    obtain ⟨w, post, word, cut, -, rfl⟩ := innerHtmlAssignment_eq_some_iff.mp found
    obtain ⟨tail, nonempty, -, rfl, assigned⟩ := exists_assignText word
    rw [lastMatched_eq_getLast? positive, cut, (take_of_length _ post).1, assigned]
    exact getLast?_append_append nonempty _ _ _
  echoes := by
    intro before c rest n found
    obtain ⟨k, rfl⟩ := Nat.exists_eq_add_of_lt (lengthens_innerHtmlAssignment _ _ _ found).1
    obtain ⟨more, post, rfl, rfl, word, absent, -, taken, left⟩ := exists_of_innerHtmlAssignment found
    obtain ⟨tail, -, absent', -, assigned⟩ := exists_assignText word
    have absent₂ : 'i' ∉ "textContent".toList ++ tail := by simp [absent']
    rw [Nat.zero_add, Nat.add_sub_cancel] at taken left
    rw [Nat.zero_add, Nat.add_sub_cancel, List.take_succ_cons, taken, left, ← List.cons_append, assigned,
      startsIn_innerHtmlAssignment_iff absent₂, startsIn_innerHtmlAssignment_iff absent]
    -- Behind the assignment is one character of the match, if any, and the search goes on behind that.
    refine exists_congr fun d => and_congr_right fun first => ?_
    obtain ⟨others, rfl⟩ := List.head?_eq_some_iff.mp first
    have behind : lastMatched 'i' (more ++ d :: others) (k + 1) = some d := by
      rw [lastMatched, Nat.add_sub_cancel, taken]
      simp
    rw [behind]
    exact assignedFirst_assignText_iff d others

/-- **Assigning text leaves an assignment of markup exactly if one is what another assigns.** -/
theorem occurs_assignText_iff (s : List Char) :
    occurs innerHtmlAssignment (replace innerHtmlAssignment assignText s) = true ↔ Chained s := by
  rw [transparent_assignText.occurs_replace_iff, overlapsFrom_innerHtmlAssignment_iff]

/-! ### Calls of `eval` -/

/-- A call of `eval` that stands for itself begins its argument with a call of `eval`. -/
def Nested (line : List Char) : Prop :=
  ∃ pre call rest, line = pre ++ (call ++ rest) ∧ Gapped "eval" "(" call ∧
    (∀ c ∈ pre.getLast?, Separates c) ∧ CallFirst rest

/-- No word that stands for itself begins with a given letter at `y`, where `x` is in front of it. -/
def Quiet (letter x y : Char) : Prop := Separates x → y ≠ letter

section Calls

variable {before : Option Char} {c letter : Char} {s t u w call rest : List Char} {n : Nat}

/-- Inside a name nothing stands for itself. -/
theorem isChain_quiet_append (joined : u.all (fun x => isWordChar x || x = '.') = true)
    (quiet : w.IsChain (Quiet letter)) : (u ++ w).IsChain (Quiet letter) := by
  induction u with
  | nil => exact quiet
  | cons x u ih =>
    rw [List.all_cons, Bool.and_eq_true] at joined
    refine List.isChain_cons.mpr ⟨fun _ _ apart => ?_, ih joined.2⟩
    rw [separates_iff.mp apart] at joined
    cases joined.1

theorem isChain_quiet_of_not_mem (absent : letter ∉ w) : w.IsChain (Quiet letter) := by
  induction w with
  | nil => exact .nil
  | cons x w ih =>
    rw [List.mem_cons, not_or] at absent
    refine List.isChain_cons.mpr ⟨?_, ih absent.2⟩
    rintro y first - rfl
    exact absent.2 (List.mem_of_head? first)

/-- No word begins inside a call before its argument. -/
theorem isChain_quiet_call (word : Gapped "eval" "(" call) (seen : isBlank letter = false)
    (other : letter ≠ '(') : call.IsChain (Quiet letter) := by
  obtain ⟨gap, blank, rfl⟩ := word
  refine isChain_quiet_append (by decide) (isChain_quiet_of_not_mem ?_)
  rw [List.mem_append, not_or]
  exact ⟨not_mem_of_blank blank seen, by simpa using other⟩

/-- So the pattern matches nowhere in such a part of a text, unless the whole text begins with a call. -/
theorem startsIn_plainEvalCall_eq_zero {d : Char} (quiet : (u ++ [d]).IsChain (Quiet 'e'))
    (other : before = none → u.head? ≠ some 'e') : startsIn plainEvalCall before u (d :: t) = 0 := by
  induction u generalizing before with
  | nil => rfl
  | cons c u ih =>
    rw [List.cons_append, List.isChain_cons] at quiet
    have here : (plainEvalCall before (c :: (u ++ d :: t))).isSome = false := by
      rw [Bool.eq_false_iff, ne_eq, isSome_plainEvalCall_iff]
      rintro (⟨start, first⟩ | ⟨_, _, same, apart, first⟩)
      · exact other start first.head?
      · obtain ⟨rfl, rfl⟩ := List.cons.inj same
        have next : (u ++ [d]).head? = some 'e' := by
          rw [← first.head?]
          cases u <;> rfl
        exact quiet.1 'e' next apart rfl
    rw [startsIn_cons, here, ih quiet.2 (by simp)]
    rfl

/-- At a parenthesis the pattern matches exactly if a call is behind it. -/
theorem isSome_plainEvalCall_parenthesis_iff :
    (plainEvalCall before ('(' :: t)).isSome = true ↔ CallFirst t := by
  have notFirst : ¬ CallFirst ('(' :: t) := fun first => absurd first.head? (by simp)
  have apart : Separates '(' := by decide
  rw [isSome_plainEvalCall_iff]
  constructor
  · rintro (⟨-, first⟩ | ⟨_, _, same, -, first⟩)
    · exact absurd first notFirst
    · obtain ⟨-, rfl⟩ := List.cons.inj same
      exact first
  · intro first
    exact .inr ⟨'(', t, rfl, apart, first⟩

/-- Behind such a part of a text and a parenthesis, a match starts exactly if a call is there. -/
theorem startsIn_plainEvalCall_pos_iff (quiet : (u ++ ['(']).IsChain (Quiet 'e'))
    (other : before = none → u.head? ≠ some 'e') :
    0 < startsIn plainEvalCall before (u ++ ['(']) t ↔ CallFirst t := by
  rw [startsIn_concat_pos_iff (startsIn_plainEvalCall_eq_zero quiet other),
    isSome_plainEvalCall_parenthesis_iff]

/-- What a match takes in and what it leaves, without the first character. -/
theorem take_drop_of_plainEvalCall {lead post : List Char} (word : Gapped "eval" "(" call)
    (cut : c :: rest = lead ++ (call ++ post)) :
    c :: rest.take (lead.length + call.length - 1) = lead ++ call ∧
      rest.drop (lead.length + call.length - 1) = post := by
  have nonempty : lead ++ call ≠ [] :=
    List.append_ne_nil_of_right_ne_nil lead (word.ne_nil visible_parenthesis)
  obtain ⟨d, whole, same⟩ := List.exists_cons_of_ne_nil nonempty
  rw [← List.append_assoc, same, List.cons_append] at cut
  obtain ⟨rfl, rfl⟩ := List.cons.inj cut
  rw [← List.length_append, same, List.length_cons, Nat.add_sub_cancel, List.take_left, List.drop_left]
  exact ⟨rfl, rfl⟩

/-- A match ends with its parenthesis, and so does what takes its place. In front of that, no word begins with
the first letter of a call. -/
theorem exists_of_plainEvalCall_cons (found : plainEvalCall before (c :: rest) = some n) :
    ∃ u v, rest.take (n - 1) = u ++ ['('] ∧ evaluateLiterals ((c :: rest).take n) = v ++ ['('] ∧
      (u ++ ['(']).IsChain (Quiet 'e') ∧ (v ++ ['(']).IsChain (Quiet 'e') ∧ v.head? ≠ some 'e' := by
  obtain ⟨lead, call, post, cut, word, rfl, begins⟩ := plainEvalCall_eq_some_iff.mp found
  have quiet : call.IsChain (Quiet 'e') := isChain_quiet_call word (by decide) (by decide)
  have literal : ("ast.literal_".toList ++ call).IsChain (Quiet 'e') :=
    isChain_quiet_append (by decide) quiet
  have taken := (take_drop_of_plainEvalCall word cut).1
  have whole : (c :: rest).take (lead.length + call.length) = lead ++ call := by
    rw [cut, ← List.append_assoc, ← List.length_append, List.take_left]
  rw [whole]
  obtain ⟨gap, -, rfl⟩ := exists_of_gapped_eval word
  have assoc (p q : List Char) : p ++ (q ++ gap ++ ['(']) = p ++ (q ++ gap) ++ ['('] :=
    (List.append_assoc p _ _).symm
  rcases begins with ⟨rfl, -⟩ | ⟨c, rfl, apart⟩
  · rw [evaluateLiterals_append (by simp) word]
    refine ⟨"val".toList ++ gap, "ast.literal_".toList ++ ("eval".toList ++ gap),
      (List.cons.inj taken).2, assoc _ _, quiet.tail, ?_, ?_⟩
    · rw [← assoc]
      exact literal
    · simp
  · rw [evaluateLiterals_append (by simp [apart.1]) word]
    refine ⟨"eval".toList ++ gap, c :: ("ast.literal_".toList ++ ("eval".toList ++ gap)),
      (List.cons.inj taken).2, congrArg (c :: ·) (assoc _ _), quiet, ?_, ?_⟩
    · rw [List.cons_append, ← assoc]
      exact List.isChain_cons.mpr ⟨by simp [Quiet], literal⟩
    · rintro ⟨⟩
      exact absurd apart (by decide)

/-- A part of a text in which no name begins is seen after replacing where it was before. -/
theorem isPrefix_evaluateLiterals_iff (quiet : w.IsChain (Quiet 'e')) (quiet' : w.IsChain (Quiet 'a'))
    (b : Char) :
    w <+: replaceFrom plainEvalCall evaluateLiterals (some b) 0 s ↔ w <+: s := by
  refine isPrefix_replaceFrom_iff ?_ b
  intro v nonempty hv b s n t found
  obtain ⟨lead, call, post, rfl, word, rfl, ⟨-, start⟩ | ⟨c, rfl, apart⟩⟩ :=
    plainEvalCall_eq_some_iff.mp found
  · cases start
  · have before := quiet.suffix hv
    have after := quiet'.suffix hv
    have taken : ([c] ++ (call ++ post)).take ([c].length + call.length) = [c] ++ call := by
      rw [← List.append_assoc, ← List.length_append, List.take_left]
    rw [taken, evaluateLiterals_append (by simp [apart.1]) word]
    obtain ⟨gap, -, rfl⟩ := word
    match v, nonempty with
    | [x], _ => simp
    | x :: y :: v, _ =>
      rw [List.isChain_cons_cons] at before after
      refine iff_of_false ?_ ?_
      · intro seen
        obtain ⟨rfl, next⟩ := List.cons_prefix_cons.mp seen
        exact after.1 apart (List.cons_prefix_cons.mp next).1
      · intro seen
        obtain ⟨rfl, next⟩ := List.cons_prefix_cons.mp seen
        exact before.1 apart (List.cons_prefix_cons.mp next).1

theorem callFirst_evaluateLiterals_iff (b : Char) :
    CallFirst (replaceFrom plainEvalCall evaluateLiterals (some b) 0 s) ↔ CallFirst s :=
  exists_congr fun _ => and_congr_right fun word => isPrefix_evaluateLiterals_iff
    (isChain_quiet_call word (by decide) (by decide)) (isChain_quiet_call word (by decide) (by decide)) b

theorem callFirst_cons_evaluateLiterals_iff (c : Char) :
    CallFirst (c :: replaceFrom plainEvalCall evaluateLiterals (some c) 0 s) ↔ CallFirst (c :: s) := by
  refine exists_congr fun call => and_congr_right fun word => ?_
  have quiet : call.IsChain (Quiet 'e') := isChain_quiet_call word (by decide) (by decide)
  have quiet' : call.IsChain (Quiet 'a') := isChain_quiet_call word (by decide) (by decide)
  cases call with
  | nil => simp
  | cons x more =>
    rw [List.cons_prefix_cons, List.cons_prefix_cons,
      isPrefix_evaluateLiterals_iff (w := more) quiet.tail quiet'.tail]

theorem transparent_evaluateLiterals : Transparent plainEvalCall evaluateLiterals where
  keeps := by
    intro before c rest
    have behind (t : List Char) : (∃ d tail, c :: t = d :: tail ∧ Separates d ∧ CallFirst tail) ↔
        Separates c ∧ CallFirst t := by
      simp
    rw [Bool.eq_iff_iff, isSome_plainEvalCall_iff, isSome_plainEvalCall_iff, behind, behind,
      callFirst_cons_evaluateLiterals_iff, callFirst_evaluateLiterals_iff]
  ends := by
    intro before c rest n found
    obtain ⟨u, v, taken, put, -⟩ := exists_of_plainEvalCall_cons found
    rw [lastMatched, taken, put]
    simp
  echoes := by
    intro before c rest n found
    obtain ⟨u, v, taken, put, quiet, quiet', other⟩ := exists_of_plainEvalCall_cons found
    have behind : lastMatched c rest n = some '(' := by
      rw [lastMatched, taken]
      simp
    rw [put, taken, behind, startsIn_plainEvalCall_pos_iff quiet' fun _ => other,
      startsIn_plainEvalCall_pos_iff quiet (by simp), callFirst_evaluateLiterals_iff]

/-- **A call starts inside another match exactly if it is its argument that begins with one.** -/
theorem overlapsFrom_plainEvalCall_iff : OverlapsFrom plainEvalCall none s ↔ Nested s := by
  rw [overlapsFrom_iff]
  constructor
  · rintro ⟨pre, c, rest, n, rfl, found, inside⟩
    obtain ⟨u, -, taken, -, quiet, -⟩ := exists_of_plainEvalCall_cons found
    rw [taken, startsIn_plainEvalCall_pos_iff quiet (by simp)] at inside
    obtain ⟨lead, call, post, cut, word, rfl, begins⟩ := plainEvalCall_eq_some_iff.mp found
    rw [(take_drop_of_plainEvalCall word cut).2] at inside
    refine ⟨pre ++ lead, call, post, by rw [cut, List.append_assoc], word, ?_, inside⟩
    rcases begins with ⟨rfl, start⟩ | ⟨c, rfl, apart⟩
    · rw [Option.or_none] at start
      simp [start]
    · simpa using apart
  · rintro ⟨pre, call, post, rfl, word, apart, behind⟩
    -- The match takes in the character in front of the call, if there is one.
    obtain ⟨front, lead, rfl, begins⟩ : ∃ front lead, pre = front ++ lead ∧
        (lead = [] ∧ front.getLast?.or none = none ∨ ∃ c, lead = [c] ∧ Separates c) := by
      rcases List.eq_nil_or_concat pre with rfl | ⟨front, c, rfl⟩
      · exact ⟨[], [], rfl, .inl ⟨rfl, rfl⟩⟩
      · exact ⟨front, [c], List.concat_eq_append, .inr ⟨c, rfl, apart c (by simp)⟩⟩
    have nonempty : lead ++ (call ++ post) ≠ [] := by simp [word.ne_nil visible_parenthesis]
    obtain ⟨c, rest, cut⟩ := List.exists_cons_of_ne_nil nonempty
    have cut := cut.symm
    have found := plainEvalCall_eq_some_iff.mpr ⟨lead, call, post, cut, word, rfl, begins⟩
    obtain ⟨u, -, taken, -, quiet, -⟩ := exists_of_plainEvalCall_cons found
    refine ⟨front, c, rest, _, by rw [cut, List.append_assoc], found, ?_⟩
    rw [taken, startsIn_plainEvalCall_pos_iff quiet (by simp), (take_drop_of_plainEvalCall word cut).2]
    exact behind

/-- **Evaluating literals leaves a call of `eval` exactly if one is the beginning of another one's argument.** -/
theorem occurs_evaluateLiterals_iff (s : List Char) :
    occurs plainEvalCall (replace plainEvalCall evaluateLiterals s) = true ↔ Nested s := by
  rw [transparent_evaluateLiterals.occurs_replace_iff, overlapsFrom_plainEvalCall_iff]

end Calls

/-! ### Rewrites of one line -/

/-- What replacing puts into a text was in the text, or comes from what takes the place of a part of it. -/
theorem mem_replaceFrom {m : Matcher} {f : List Char → List Char} {before : Option Char} {skip : Nat}
    {x : Char} {s : List Char} (mem : x ∈ replaceFrom m f before skip s)
    (adds : ∀ piece, x ∈ f piece → x ∈ piece) : x ∈ s := by
  induction s generalizing before skip with
  | nil => exact mem
  | cons c rest ih =>
    cases skip with
    | succ skip => exact List.mem_cons_of_mem c (ih mem)
    | zero =>
      rw [replaceFrom] at mem
      split at mem
      · rcases List.mem_append.mp mem with mem | mem
        · exact List.mem_of_mem_take (adds _ mem)
        · exact List.mem_cons_of_mem c (ih mem)
      · rcases List.mem_cons.mp mem with rfl | mem
        · exact List.mem_cons_self
        · exact List.mem_cons_of_mem c (ih mem)

/-- A rule for lines that puts the rewrite of a line in its place, for exactly the lines on which something is
found. What is rewritten gets longer and no new line, and the rewrite leaves something exactly on lines of one
form. -/
structure Mitigates (m : Matcher) (f : List Char → List Char) (joined : List Char → Prop)
    (rule : Nat → String → Option Proposal) : Prop where
  fires : ∀ number {line}, foundOn m line = true → ∃ p, rule number line = some p
  edits : ∀ {number line p}, rule number line = some p → foundOn m line = true ∧
    p.first = number ∧ p.last = number ∧ p.before = line ∧ p.after = rewriteLine m f line
  lengthens : Lengthens m f
  unbroken : ∀ piece, '\n' ∈ f piece → '\n' ∈ piece
  leaves : ∀ s, occurs m (replace m f s) = true ↔ joined s

theorem mitigates_evalCallFix : Mitigates plainEvalCall evaluateLiterals Nested evalCallFix where
  fires number _ found := answers_evalCallFix.fires number found
  edits := by
    intro number line p found
    rw [evalCallFix] at found
    split at found <;> cases found
    next here => exact ⟨here, rfl, rfl, rfl, rfl⟩
  lengthens := lengthens_plainEvalCall
  unbroken := by
    intro piece mem
    simp only [evaluateLiterals, List.mem_append] at mem
    rcases mem with (mem | mem) | mem
    · exact (List.takeWhile_prefix _).mem mem
    · exact absurd mem (by decide)
    · exact List.mem_of_mem_drop mem
  leaves := occurs_evaluateLiterals_iff

theorem mitigates_innerHtmlFix : Mitigates innerHtmlAssignment assignText Chained innerHtmlFix where
  fires number _ found := answers_innerHtmlFix.fires number found
  edits := by
    intro number line p found
    rw [innerHtmlFix] at found
    split at found <;> cases found
    next here => exact ⟨here, rfl, rfl, rfl, rfl⟩
  lengthens := lengthens_innerHtmlAssignment
  unbroken := by
    intro piece mem
    rcases List.mem_append.mp mem with mem | mem
    · exact absurd mem (by decide)
    · exact List.mem_of_mem_drop mem
  leaves := occurs_assignText_iff

namespace Mitigates

variable {m : Matcher} {f : List Char → List Char} {joined : List Char → Prop}
  {rule : Nat → String → Option Proposal} {code : String} {p : Proposal}

/-- What such a rule proposes edits one line. -/
theorem exists_editsLine (h : Mitigates m f joined rule) (mem : p ∈ eachLine rule code) :
    ∃ pre post, EditsLine code pre post p ∧ p.after = rewriteLine m f p.before ∧
      IsLine p.after ∧ p.after ≠ "" := by
  obtain ⟨pre, line, post, cut, found⟩ := mem_eachLine.mp mem
  obtain ⟨here, first, last, rfl, after⟩ := h.edits found
  refine ⟨pre, post, ⟨cut, first, last⟩, after, ?_, ?_⟩
  · have mem : p.before ∈ lines code := by rw [cut]; simp
    intro broken
    rw [after, toList_rewriteLine] at broken
    exact isLine_of_mem_lines mem (mem_replaceFrom broken h.unbroken)
  · intro empty
    have longer := length_lt_length_replaceFrom h.lengthens here
    rw [after, ← String.toList_inj, toList_rewriteLine, replace] at empty
    rw [empty] at longer
    exact Nat.not_lt_zero _ longer

/-- Something is found in what it puts in place exactly on lines of the one form. -/
theorem foundOn_after_iff (h : Mitigates m f joined rule) (mem : p ∈ eachLine rule code) :
    foundOn m p.after = true ↔ joined p.before.toList := by
  obtain ⟨pre, post, -, after, -⟩ := h.exists_editsLine mem
  rw [after, foundOn, toList_rewriteLine, h.leaves]

/-- The rule proposes something for a line exactly if something is found on it. -/
theorem exists_mem_eachLine_iff (h : Mitigates m f joined rule) {i : Nat} {line : String}
    (there : (lines code)[i]? = some line) :
    (∃ q ∈ eachLine rule code, q.first = i + 1) ↔ foundOn m line = true := by
  constructor
  · rintro ⟨q, mem, first⟩
    obtain ⟨pre, line', post, cut, found⟩ := mem_eachLine.mp mem
    obtain ⟨here, first', -⟩ := h.edits found
    obtain rfl : pre.length = i := Nat.succ.inj (first'.symm.trans first)
    rw [cut] at there
    obtain rfl : line' = line := by simpa using there
    exact here
  · intro here
    obtain ⟨pre, post, cut, rfl⟩ := getElem?_eq_some_iff_append.mp there
    obtain ⟨q, found⟩ := h.fires (pre.length + 1) here
    exact ⟨q, mem_eachLine.mpr ⟨pre, line, post, cut, found⟩, (h.edits found).2.1⟩

/-- **Applying what such a rule proposes** puts its text on its line, for which the rule then proposes
something again exactly if the line was of the one form. -/
theorem exists_apply (h : Mitigates m f joined rule) (mem : p ∈ eachLine rule code) (n : Nat) :
    ∃ fixed, apply code (p.toFix n) = .ok fixed ∧ (lines fixed)[p.first - 1]? = some p.after ∧
      ((∃ q ∈ eachLine rule fixed, q.first = p.first) ↔ joined p.before.toList) := by
  obtain ⟨pre, post, edits, -, clean, nonempty⟩ := h.exists_editsLine mem
  obtain ⟨fixed, applied, result⟩ := edits.exists_apply n clean
  rw [if_neg fun both => nonempty both.1] at result
  have there : (lines fixed)[pre.length]? = some p.after := by
    rw [result, edits.lines_eq]
    simp
  refine ⟨fixed, applied, ?_, ?_⟩
  · rw [edits.first_eq, Nat.add_sub_cancel]
    exact there
  · rw [edits.first_eq, h.exists_mem_eachLine_iff there, h.foundOn_after_iff mem]

end Mitigates

/-! ### Fixes for weaknesses -/

/-- The rule that proposes fixes for weaknesses. -/
def weaknessRule : Language → Nat → String → Option Proposal
  | .python => evalCallFix
  | .javascript | .typescript => innerHtmlFix
  | .java | .cpp => fun _ _ => none

/-- The pattern on which it does. -/
def weaknessTrigger : Language → Matcher
  | .python => plainEvalCall
  | .javascript | .typescript => innerHtmlAssignment
  | .java | .cpp => fun _ _ => none

/-- Two matches of the pattern are joined on a line: one begins the argument of the other, or is what the
other assigns. -/
def Joined : Language → List Char → Prop
  | .python => Nested
  | .javascript | .typescript => Chained
  | .java | .cpp => fun _ => False

section Fixes

variable {read : Python.Reader} {counter : Nat} {code : String} {language : Language} {p : Proposal} {f : Fix}

/-- **What is proposed for a weakness comes from this rule**, and all that comes from it is. -/
theorem mem_weaknessRule_iff :
    p ∈ proposalsBy read language code ∧ p.kind = .security ↔ p ∈ eachLine (weaknessRule language) code := by
  have script : p ∈ Battery.script code ∧ p.kind = .security ↔ p ∈ eachLine innerHtmlFix code := by
    simp only [Battery.script, List.mem_append]
    constructor
    · rintro ⟨(mem | mem) | mem, security⟩
      · have kind : p.kind = .style := field_of_mem_eachLine Proposal.kind (fun _ _ => rfl) (fun _ _ => rfl) mem
        cases kind.symm.trans security
      · have kind : p.kind = .style := field_of_mem_eachLine Proposal.kind (fun _ _ => rfl) (fun _ _ => rfl) mem
        cases kind.symm.trans security
      · exact mem
    · intro mem
      exact ⟨.inr mem, field_of_mem_eachLine Proposal.kind (fun _ _ => rfl) (fun _ _ => rfl) mem⟩
  have python : p ∈ Battery.python read code ∧ p.kind = .security ↔ p ∈ eachLine evalCallFix code := by
    simp only [Battery.python, List.mem_append]
    constructor
    · rintro ⟨(((((mem | mem) | mem) | mem) | mem) | mem) | mem, security⟩
      · obtain ⟨b, -, found⟩ := List.mem_filterMap.mp mem
        obtain ⟨-, _, -, rfl⟩ := unusedImport_eq_some_iff.mp found
        cases security
      · have kind : p.kind = .style := field_of_mem_eachLine Proposal.kind trailingBlanks_eq (fun _ _ => rfl) mem
        cases kind.symm.trans security
      · obtain ⟨d, -, found⟩ := List.mem_filterMap.mp mem
        obtain ⟨-, _, -, rfl⟩ := missingDocumentation_eq_some_iff.mp found
        cases security
      · have kind : p.kind = .style := field_of_mem_eachLine Proposal.kind (fun _ _ => rfl) (fun _ _ => rfl) mem
        cases kind.symm.trans security
      · have kind : p.kind = .refactor := field_of_mem_eachLine Proposal.kind (fun _ _ => rfl) (fun _ _ => rfl) mem
        cases kind.symm.trans security
      · obtain ⟨_, _, _, _, -, -, found⟩ := mem_comprehensions mem
        cases (fields_of_comprehensionFix found).1.symm.trans security
      · exact mem
    · intro mem
      exact ⟨.inr mem, field_of_mem_eachLine Proposal.kind (fun _ _ => rfl) (fun _ _ => rfl) mem⟩
  cases language with
  | python => exact python
  | javascript => exact script
  | typescript => exact script
  | java | cpp => simp [proposalsBy, weaknessRule, eachLine]

/-- The rule does as rules do that rewrite lines. -/
theorem exists_mitigates (mem : p ∈ eachLine (weaknessRule language) code) :
    ∃ r, Mitigates (weaknessTrigger language) r (Joined language) (weaknessRule language) := by
  cases language with
  | python => exact ⟨_, mitigates_evalCallFix⟩
  | javascript => exact ⟨_, mitigates_innerHtmlFix⟩
  | typescript => exact ⟨_, mitigates_innerHtmlFix⟩
  | java | cpp => simp [weaknessRule, eachLine] at mem

/-- There is a fix for a weakness of a line exactly if the rule proposes something for it. -/
theorem exists_security_iff {i : Nat} :
    (∃ f ∈ (generateBy read counter code language).1, f.kind = .security ∧ f.first = i) ↔
      ∃ p ∈ eachLine (weaknessRule language) code, p.first = i := by
  constructor
  · rintro ⟨f, mem, security, first⟩
    obtain ⟨p, proposed, n, rfl⟩ := exists_of_mem_numbered mem
    exact ⟨p, mem_weaknessRule_iff.mp ⟨proposed, security⟩, first⟩
  · rintro ⟨p, mem, first⟩
    obtain ⟨proposed, security⟩ := mem_weaknessRule_iff.mpr mem
    obtain ⟨n, mem⟩ := exists_mem_numbered counter proposed
    exact ⟨p.toFix n, mem, security, first⟩

/-- **When a weakness is mended in one pass.** A fix for a weakness can be applied and puts its text on its
line. What it looks for is then still found on that line, and a fix for a weakness is proposed for it again,
exactly if a call of `eval` begins the argument of another one there, or `innerHTML` is assigned directly to
`innerHTML`. -/
theorem weakness_remains_iff (read : Python.Reader) (counter : Nat) {code : String} {language : Language}
    {f : Fix} (mem : f ∈ (generateBy read counter code language).1) (security : f.kind = .security) :
    ∃ fixed, apply code f = .ok fixed ∧ (lines fixed)[f.first - 1]? = some f.after ∧
      (occurs (weaknessTrigger language) f.after.toList = true ↔ Joined language f.before.toList) ∧
      ∀ counter', (∃ g ∈ (generateBy read counter' fixed language).1,
        g.kind = .security ∧ g.first = f.first) ↔ Joined language f.before.toList := by
  obtain ⟨p, proposed, n, rfl⟩ := exists_of_mem_numbered mem
  have inside := mem_weaknessRule_iff.mp ⟨proposed, security⟩
  obtain ⟨r, mitigates⟩ := exists_mitigates inside
  obtain ⟨fixed, applied, there, again⟩ := mitigates.exists_apply inside n
  refine ⟨fixed, applied, there, mitigates.foundOn_after_iff inside, fun counter' => ?_⟩
  rw [exists_security_iff]
  exact again

end Fixes

/-- A single call is mended in one pass. -/
theorem weakness_remains_iff_of_two_lines :
    ∃ f ∈ (generate 0 "y = 1\nx = eval(y)" .python).1, f.kind = .security ∧ f.first = 2 ∧
      ∃ fixed, apply "y = 1\nx = eval(y)" f = .ok fixed ∧
        (lines fixed)[1]? = some "x = ast.literal_eval(y)" ∧
        ¬ ∃ g ∈ (generate 1 fixed .python).1, g.kind = .security ∧ g.first = 2 := by
  have proposed : ∃ f ∈ (generate 0 "y = 1\nx = eval(y)" .python).1, f.kind = .security ∧ f.first = 2 ∧
      f.after = "x = ast.literal_eval(y)" := by
    decide +kernel
  obtain ⟨f, mem, security, first, after⟩ := proposed
  obtain ⟨fixed, applied, there, found, again⟩ :=
    weakness_remains_iff Python.readTree 0 mem security
  have clear : occurs (weaknessTrigger .python) f.after.toList = false := by
    rw [after]
    decide
  rw [first, after] at there
  refine ⟨f, mem, security, first, fixed, applied, there, ?_⟩
  rw [first] at again
  intro proposed
  rw [found.mpr ((again 1).mp proposed)] at clear
  cases clear

/-- A call that is the argument of another one is left, and so is an assignment that another one assigns: they
are proposed to be replaced again. -/
theorem second_call_left :
    (∃ f ∈ (generate 0 "x = eval(eval(y))" .python).1, f.kind = .security ∧
      f.after = "x = ast.literal_eval(eval(y))" ∧ occurs plainEvalCall f.after.toList = true ∧
      (apply "x = eval(eval(y))" f).toOption = some f.after ∧
      ∃ g ∈ (generate 1 f.after .python).1, g.kind = .security ∧ g.first = f.first) ∧
    ∃ f ∈ (generate 0 "a.innerHTML=innerHTML=b" .javascript).1, f.kind = .security ∧
      f.after = "a.textContent=innerHTML=b" ∧ occurs innerHtmlAssignment f.after.toList = true ∧
      (apply "a.innerHTML=innerHTML=b" f).toOption = some f.after ∧
      ∃ g ∈ (generate 1 f.after .javascript).1, g.kind = .security ∧ g.first = f.first := by
  decide +kernel

end SnippetAudit.Fix
