import Mathlib
import SnippetAudit.Python.CasePattern
import SnippetAudit.Proofs.Python.Layout

/-!
Reading an expression keeps to the frame.

Each reader is a chain of readers that do, so each has one specification, and a loop is followed round by
round. Whatever is nested is read by the parsers that are handed in (`Nested.Keeps`), and the knot is tied
last (`keeps_nested`).
-/

set_option mvcgen.warning false

namespace SnippetAudit.Python

open Std.Do

/-! ### Results of a reader -/

section Yields

variable {ε α : Type} {x : Except ε α} {a : α} {Q : α → Prop}

/-- Whatever is answered has a property. -/
abbrev Yields (x : Except ε α) (Q : α → Prop) : Prop := ⦃⌜True⌝⦄ x ⦃⇓? a => ⌜Q a⌝⦄

theorem yields_iff : Yields x Q ↔ ∀ a, x = .ok a → Q a := by
  cases x with
  | error e => exact iff_of_true (fun _ => trivial) nofun
  | ok a => exact ⟨fun h b same => Except.ok.inj same ▸ h trivial, fun h _ => h a rfl⟩

theorem yields_ok (h : Q a) : Yields (.ok a : Except ε α) Q :=
  fun _ => h

theorem Yields.bind {β : Type} {f : α → Except ε β} {R : β → Prop} (first : Yields x Q)
    (second : ∀ a, Q a → Yields (f a) R) : Yields (x >>= f) R := by
  rw [yields_iff] at first ⊢
  intro b h
  obtain ⟨a, answer, h⟩ := bind_eq_ok_iff.mp h
  exact yields_iff.mp (second a (first a answer)) b h

theorem Yields.imp {R : α → Prop} (h : Yields x Q) (more : ∀ a, Q a → R a) : Yields x R :=
  yields_iff.mpr fun a answer => more a (yields_iff.mp h a answer)

theorem Yields.map {β : Type} {f : α → β} {R : β → Prop} (h : Yields x Q) (more : ∀ a, Q a → R (f a)) :
    Yields (x.map f) R := by
  cases x with
  | error e => exact yields_iff.mpr nofun
  | ok a => exact yields_ok (more a (yields_iff.mp h a rfl))

@[spec] theorem ok_spec {Q : PostCond α (.except ε .pure)} : ⦃Q.1 a⦄ (.ok a : Except ε α) ⦃Q⦄ :=
  Triple.pure a .rfl

@[spec] theorem error_spec {e : ε} {Q : PostCond α (.except ε .pure)} :
    ⦃Q.2.1 e⦄ (.error e : Except ε α) ⦃Q⦄ :=
  fun h => h

end Yields

variable {F : Frame} {cur cur' : Cursor} {P : Nested} {around : Around} {want : Expecting} {fuel : Nat}
  {target : Cursor → Except Stuck (Form × Cursor)}

/-! ### Fixed tokens -/

@[spec] theorem within_stuck {α : Type} {Q : α → Prop} : Yields (cur.stuck want) Q :=
  yields_iff.mpr nofun

@[spec] theorem within_expect {lexeme : String} (s : cur.Within F) :
    Yields (cur.expect want lexeme) (·.Within F) :=
  yields_iff.mpr fun _ => s.expect

@[spec] theorem within_expectWord {w : String} (s : cur.Within F) :
    Yields (cur.expectWord want w) (·.Within F) :=
  yields_iff.mpr fun _ => s.expectWord

@[spec] theorem within_expectName (s : cur.Within F) :
    Yields (cur.expectName want) (·.2.Within F) :=
  yields_iff.mpr fun _ => s.expectName

/-! ### What is nested -/

/-- The parsers for what may be nested keep to every frame. -/
structure Nested.Keeps (P : Nested) : Prop where
  expression : ∀ {F : Frame} {around : Around} {cur : Cursor}, cur.Within F →
    Yields (P.expression around cur) (·.2.Within F)
  interpolation : ∀ {F : Frame} {cur : Cursor}, cur.Within F →
    Yields (P.interpolation cur) (·.2.Within F)

/-- A parser for one target keeps to every frame. -/
abbrev KeepsTarget (target : Cursor → Except Stuck (Form × Cursor)) : Prop :=
  ∀ {F : Frame} {cur : Cursor}, cur.Within F → Yields (target cur) (·.2.Within F)

@[spec] theorem within_expression (hP : P.Keeps) (s : cur.Within F) :
    Yields (P.expression around cur) (·.2.Within F) :=
  hP.expression s

theorem within_interpolation (hP : P.Keeps) (s : cur.Within F) :
    Yields (P.interpolation cur) (·.2.Within F) :=
  hP.interpolation s

@[grind →] theorem within_of_expression (hP : P.Keeps) (s : cur.Within F) {read : Form × Cursor}
    (h : P.expression around cur = .ok read) : read.2.Within F :=
  yields_iff.mp (hP.expression s) _ h

/-! ### String literals -/

theorem suffix_afterEscape (s : List Char) : afterEscape s <:+ s := by
  unfold afterEscape
  grind

grind_pattern suffix_afterEscape => afterEscape s

theorem suffix_afterRawEscape (mark : Char) (s : List Char) : afterRawEscape mark s <:+ s := by
  unfold afterRawEscape
  grind

grind_pattern suffix_afterRawEscape => afterRawEscape mark s

@[spec] theorem within_literalBody (hP : P.Keeps) {q : Quote} {content : Bool} (s : cur.Within F.inside) :
    Yields (literalBody P.interpolation q fuel content cur) (·.2.Within F) := by
  have interpolated {cur : Cursor} (s : cur.Within F.inside) :
      Yields (P.interpolation cur) (·.2.Within F.inside) :=
    hP.interpolation s
  induction fuel generalizing cur content with
  | zero => mvcgen [literalBody]
  | succ fuel ih =>
    mvcgen [literalBody, ih, interpolated]
    all_goals grind

@[spec] theorem within_literal (hP : P.Keeps) {q : Quote} (s : cur.Within F.inside) :
    Yields (literal P.interpolation q cur) (·.2.Within F) := by
  mvcgen [literal]

@[spec] theorem within_literals (hP : P.Keeps) {q : Quote} (s : cur.Within F.inside) :
    Yields (literals P around fuel q cur) (·.2.Within F) := by
  induction fuel generalizing cur q with
  | zero => mvcgen [literals]
  | succ fuel ih =>
    mvcgen [literals, ih]
    all_goals grind

@[spec] theorem within_annotationWithin (hP : P.Keeps) (s : cur.Within F) :
    Yields (annotationWithin P around fuel cur) (·.2.Within F) := by
  induction fuel generalizing cur with
  | zero => mvcgen [annotationWithin]
  | succ fuel ih =>
    mvcgen [annotationWithin, ih]
    all_goals grind

@[spec] theorem within_typing (hP : P.Keeps) (s : cur.Within F) :
    Yields (typing P around cur) (·.2.Within F) := by
  mvcgen [typing]

@[spec] theorem within_yieldWithin (hP : P.Keeps) (s : cur.Within F) :
    Yields (yieldWithin P around fuel cur) (·.2.Within F) := by
  induction fuel generalizing cur with
  | zero => mvcgen [yieldWithin]
  | succ fuel ih =>
    mvcgen [yieldWithin, ih]
    all_goals grind

@[spec] theorem within_yielding (hP : P.Keeps) (s : cur.Within F) :
    Yields (yielding P around cur) (·.2.Within F) := by
  mvcgen [yielding]
  all_goals grind

/-! ### Brackets -/

@[spec] theorem within_targetsWithin (ht : KeepsTarget target) (s : cur.Within F) :
    Yields (targetsWithin target fuel cur) (·.Within F) := by
  induction fuel generalizing cur with
  | zero => mvcgen [targetsWithin]
  | succ fuel ih =>
    rw [targetsWithin]
    refine (ht s).bind fun (form, behind) s => ?_
    mvcgen [ih]
    all_goals grind

@[spec] theorem within_sourcesWithin (hP : P.Keeps) (s : cur.Within F) :
    Yields (sourcesWithin P fuel cur) (·.Within F) := by
  induction fuel generalizing cur with
  | zero => mvcgen [sourcesWithin]
  | succ fuel ih =>
    mvcgen [sourcesWithin, ih]
    all_goals grind

@[spec] theorem within_clausesWithin (hP : P.Keeps) (ht : KeepsTarget target) (s : cur.Within F) :
    Yields (clausesWithin P target fuel cur) (·.Within F) := by
  induction fuel generalizing cur with
  | zero => mvcgen [clausesWithin]
  | succ fuel ih =>
    mvcgen [clausesWithin, ih]
    all_goals grind

@[spec] theorem within_clauses (hP : P.Keeps) (ht : KeepsTarget target) (s : cur.Within F) :
    Yields (clauses P target cur) (·.Within F) := by
  mvcgen [clauses]

@[spec] theorem within_element (hP : P.Keeps) (s : cur.Within F) :
    Yields (element P cur) (·.2.Within F) := by
  mvcgen [element]
  all_goals grind

@[spec] theorem within_elementsWithin (hP : P.Keeps) {closer : String} {targets : Bool} (s : cur.Within F) :
    Yields (elementsWithin P closer fuel targets cur) (·.2.Within F) := by
  induction fuel generalizing cur targets with
  | zero => mvcgen [elementsWithin]
  | succ fuel ih =>
    mvcgen [elementsWithin, ih]
    all_goals grind

@[spec] theorem within_enclosed (hP : P.Keeps) (ht : KeepsTarget target) {closer : String} (s : cur.Within F) :
    Yields (enclosed P target closer cur) (·.2.Within F) := by
  mvcgen [enclosed]
  all_goals grind

@[spec] theorem within_entry (hP : P.Keeps) (s : cur.Within F) :
    Yields (entry P cur) (·.Within F) := by
  mvcgen [entry]
  all_goals grind

@[spec] theorem within_entriesWithin (hP : P.Keeps) (s : cur.Within F) :
    Yields (entriesWithin P fuel cur) (·.2.Within F) := by
  induction fuel generalizing cur with
  | zero => mvcgen [entriesWithin]
  | succ fuel ih =>
    mvcgen [entriesWithin, ih]
    all_goals grind

@[spec] theorem within_braced (hP : P.Keeps) (ht : KeepsTarget target) (s : cur.Within F) :
    Yields (braced P target cur) (·.2.Within F) := by
  mvcgen [braced]
  all_goals grind

/-! ### Arguments and subscripts -/

@[spec] theorem within_argument (hP : P.Keeps) (s : cur.Within F) :
    Yields (argument P cur) (·.2.Within F) := by
  mvcgen [argument]
  all_goals grind

@[spec] theorem within_argumentsWithin (hP : P.Keeps) (ht : KeepsTarget target) {only : Bool}
    (s : cur.Within F) :
    Yields (argumentsWithin P target fuel only cur) (·.Within F) := by
  induction fuel generalizing cur only with
  | zero => mvcgen [argumentsWithin]
  | succ fuel ih =>
    mvcgen [argumentsWithin, ih]
    all_goals grind

@[spec] theorem within_arguments (hP : P.Keeps) (ht : KeepsTarget target) (s : cur.Within F) :
    Yields (arguments P target cur) (·.Within F) := by
  mvcgen [arguments]
  all_goals grind

@[spec] theorem within_bound (hP : P.Keeps) (s : cur.Within F) :
    Yields (bound P cur) (·.Within F) := by
  mvcgen [bound]
  all_goals grind

@[spec] theorem within_subscript (hP : P.Keeps) (s : cur.Within F) :
    Yields (subscript P cur) (·.Within F) := by
  mvcgen [subscript]
  all_goals grind

@[spec] theorem within_subscriptsWithin (hP : P.Keeps) (s : cur.Within F) :
    Yields (subscriptsWithin P fuel cur) (·.Within F) := by
  induction fuel generalizing cur with
  | zero => mvcgen [subscriptsWithin]
  | succ fuel ih =>
    mvcgen [subscriptsWithin, ih]
    all_goals grind

/-! ### Operands -/

@[spec] theorem within_trailersWithin (hP : P.Keeps) (ht : KeepsTarget target) {form : Form}
    {placed : Bool} (s : cur.Within F) :
    Yields (trailersWithin P target around fuel form placed cur) (·.2.Within F) := by
  induction fuel generalizing cur form placed with
  | zero => mvcgen [trailersWithin]
  | succ fuel ih =>
    mvcgen [trailersWithin, ih]
    all_goals grind

@[spec] theorem within_atom (hP : P.Keeps) (ht : KeepsTarget target) (s : cur.Within F) :
    Yields (atom P target around want cur) (·.2.Within F) := by
  mvcgen [atom]
  all_goals grind

@[spec] theorem within_placeable (hP : P.Keeps) (ht : KeepsTarget target) (s : cur.Within F) :
    Yields (placeable P target around want cur) (·.2.Within F) := by
  mvcgen [placeable]
  all_goals grind

@[spec] theorem within_starredOperand (hP : P.Keeps) (ht : KeepsTarget target) (s : cur.Within F) :
    Yields (starredOperand P target around cur) (·.2.Within F) := by
  mvcgen [starredOperand]

@[spec] theorem within_operandWithin (hP : P.Keeps) (ht : KeepsTarget target) (s : cur.Within F) :
    Yields (operandWithin P target around fuel want cur) (·.2.Within F) := by
  induction fuel generalizing cur want with
  | zero => mvcgen [operandWithin]
  | succ fuel ih =>
    unfold operandWithin
    extract_lets tail
    have ends : Yields (tail cur) (·.2.Within F) :=
      (within_placeable hP ht s).bind fun _ s => yields_ok s
    split
    next found plain =>
      have s := s.plain? plain
      split
      · mvcgen [ih]
        grind
      · mvcgen [ih]
        grind
      · mvcgen [ih]
        grind
      · mvcgen
        grind
      · split
        next rest word =>
          extract_lets behind awaits
          split
          · mvcgen [ih]
            grind
          · exact ends
        next => exact ends
    next => exact ends

@[spec] theorem within_operator? (s : cur.Within F) :
    Yields (cur.operator? around) (fun answer => ∀ found ∈ answer, found.Within F) := by
  mvcgen [Cursor.operator?]
  all_goals grind

@[spec] theorem within_operandsWithin (hP : P.Keeps) (ht : KeepsTarget target) {form : Form}
    (s : cur.Within F) :
    Yields (operandsWithin P target around fuel form cur) (·.2.Within F) := by
  induction fuel generalizing cur form with
  | zero => mvcgen [operandsWithin]
  | succ fuel ih =>
    mvcgen [operandsWithin, ih]
    all_goals grind

/-! ### Parameters -/

@[spec] theorem within_parameter (hP : P.Keeps) (ht : KeepsTarget target) {typed : Bool} (s : cur.Within F) :
    Yields (parameter P target typed around cur) (·.Within F) := by
  mvcgen [parameter]
  all_goals grind

@[spec] theorem within_parametersWithin (hP : P.Keeps) (ht : KeepsTarget target) {typed : Bool}
    {closer : String} (s : cur.Within F) :
    Yields (parametersWithin P target typed around closer fuel cur) (·.Within F) := by
  induction fuel generalizing cur with
  | zero => mvcgen [parametersWithin]
  | succ fuel ih =>
    mvcgen [parametersWithin, ih]
    all_goals grind

/-! ### Expressions -/

@[spec] theorem within_termWithin (hP : P.Keeps) (ht : KeepsTarget target) (s : cur.Within F) :
    Yields (termWithin P target around fuel cur) (·.2.Within F) := by
  induction fuel generalizing cur with
  | zero => mvcgen [termWithin]
  | succ fuel ih =>
    mvcgen [termWithin, ih]
    all_goals grind

@[spec] theorem within_termsWithin (hP : P.Keeps) (ht : KeepsTarget target) {form : Form} (s : cur.Within F) :
    Yields (termsWithin P target around fuel form cur) (·.2.Within F) := by
  induction fuel generalizing cur form with
  | zero => mvcgen [termsWithin]
  | succ fuel ih =>
    mvcgen [termsWithin, ih]
    all_goals grind

theorem keepsTarget_loopTarget (hP : P.Keeps) (fuel : Nat) : KeepsTarget (loopTarget P fuel) := by
  induction fuel with
  | zero =>
    intro F cur s
    mvcgen [loopTarget]
  | succ fuel ih =>
    intro F cur s
    mvcgen [loopTarget, ih]
    all_goals grind

theorem within_expressionOver (hP : P.Keeps) (s : cur.Within F) :
    Yields (expressionOver P around cur) (·.2.Within F) := by
  have ht := @keepsTarget_loopTarget P hP cur.fuel
  exact (within_termWithin hP ht s).bind fun _ s => within_termsWithin hP ht s

/-! ### Interpolations -/

@[spec] theorem within_formatWithin (hP : P.Keeps) (s : cur.Within F) :
    Yields (formatWithin P fuel cur) (·.Within F) := by
  induction fuel generalizing cur with
  | zero => mvcgen [formatWithin]
  | succ fuel ih =>
    mvcgen [formatWithin, ih, within_interpolation]
    all_goals grind

@[spec] theorem within_interpolatedWithin (hP : P.Keeps) (s : cur.Within F) :
    Yields (interpolatedWithin P fuel cur) (·.Within F) := by
  induction fuel generalizing cur with
  | zero => mvcgen [interpolatedWithin]
  | succ fuel ih =>
    mvcgen [interpolatedWithin, ih]
    all_goals grind

theorem within_interpolationOver (hP : P.Keeps) (s : cur.Within F) :
    Yields (interpolationOver P cur) (·.2.Within F) := by
  unfold interpolationOver
  extract_lets want close
  have closes {cur : Cursor} (s : cur.Within F) : Yields (close cur) (·.2.Within F) := by
    unfold close
    extract_lets signed converted
    have s : signed.Within F := s.getD fun _ => s.on?
    have s : converted.Within F := by
      unfold converted
      grind
    split
    next format colon =>
      exact (within_formatWithin hP (s.on? colon)).bind fun _ s => yields_ok s
    next => exact (within_expect s).bind fun _ s => yields_ok s
  split
  next behind word => exact (within_yielding hP (s.onWord? word)).bind fun _ s => closes s
  next => exact (within_interpolatedWithin hP s).bind fun _ s => closes s

/-- **Reading an expression keeps to the frame**, however deep it is nested. -/
theorem keeps_nested (depth : Nat) : (nested depth).Keeps := by
  induction depth with
  | zero => exact ⟨fun _ => yields_iff.mpr nofun, fun _ => yields_iff.mpr nofun⟩
  | succ depth ih => exact ⟨within_expressionOver ih, within_interpolationOver ih⟩

/-! ### Patterns of `case` clauses -/

/-- A parser for one pattern keeps to every frame. -/
abbrev KeepsPattern (pattern : Cursor → Except Stuck Cursor) : Prop :=
  ∀ {F : Frame} {cur : Cursor}, cur.Within F → Yields (pattern cur) (·.Within F)

@[spec] theorem within_numberPattern (s : cur.Within F) :
    Yields (numberPattern around cur) (·.Within F) := by
  unfold numberPattern
  extract_lets start digits
  have hdigits {cur cur' : Cursor} (s : cur.Within F) (h : digits cur = some cur') : cur'.Within F := by
    unfold digits at h
    grind
  have s : start.Within F := s.getD fun _ => s.on?
  clear_value start digits
  split
  next => exact within_stuck
  next cur number =>
    have s := hdigits s number
    split
    next => exact yields_ok s
    next behind sign =>
      have s : behind.Within F := by
        rw [← Option.or_eq_orElse, Option.or_eq_some_iff] at sign
        rcases sign with plus | ⟨-, minus⟩
        · exact s.on? plus
        · exact s.on? minus
      split
      next second => exact yields_ok (hdigits s second)
      next => exact within_stuck

@[spec] theorem within_dottedWithin (s : cur.Within F) :
    Yields (dottedWithin around fuel cur) (·.Within F) := by
  induction fuel generalizing cur with
  | zero => mvcgen [dottedWithin]
  | succ fuel ih =>
    mvcgen [dottedWithin, ih]
    all_goals grind

@[spec] theorem within_patternsWithin {pattern : Cursor → Except Stuck Cursor} {closer : String}
    (hp : KeepsPattern pattern) (s : cur.Within F) :
    Yields (patternsWithin pattern closer fuel cur) (·.Within F) := by
  induction fuel generalizing cur with
  | zero => mvcgen [patternsWithin]
  | succ fuel ih =>
    rw [patternsWithin]
    split
    next behind closing => exact yields_ok (s.on? closing)
    next =>
      refine (hp (s.settle _)).bind fun cur s => ?_
      mvcgen [ih]
      all_goals grind

@[spec] theorem within_patternPart (hP : P.Keeps) {nestedPattern simple : Cursor → Except Stuck Cursor}
    (hn : KeepsPattern nestedPattern) (hs : KeepsPattern simple) (s : cur.Within F) :
    Yields (patternPart P nestedPattern simple around cur) (·.Within F) := by
  unfold patternPart
  split
  next found opened =>
    exact (within_literals hP (within_of_next_quote s opened).2).bind fun _ s => yields_ok s
  next found plain =>
    have s := within_of_next_plain s plain
    have passed {rest : List Char} (h : rest <:+ found.rest) : ({ found with rest } : Cursor).Within F :=
      s.move h
    split
    · exact within_patternsWithin hn (passed (by grind))
    · exact within_patternsWithin hn (passed (by grind))
    · extract_lets item
      have hitem : KeepsPattern item := by
        intro F cur s
        unfold item
        split
        · exact hs s
        · exact (hs s).bind fun _ s => (within_expect s).bind fun _ s => hn s
      exact within_patternsWithin hitem (passed (by grind))
    · exact (within_expectName (passed (by grind))).bind fun _ s => yields_ok s
    · exact (within_expectName (passed (by grind))).bind fun _ s => yields_ok s
    · exact within_numberPattern s
    · split
      · exact within_numberPattern s
      split
      · exact yields_iff.mpr nofun
      next w rest word =>
        have s := passed (suffix_of_word? word)
        extract_lets behind
        split
        · exact yields_ok s
        split
        · exact yields_iff.mpr nofun
        refine (within_dottedWithin s).bind fun cur dotted => ?_
        split
        next opened => exact within_patternsWithin hn (dotted.on? opened)
        next =>
          split
          next equals => exact hs (s.onEquals? equals)
          next => exact yields_ok dotted
  next => exact yields_iff.mpr nofun

/-- **Reading a pattern keeps to the frame**, however deep it is nested. -/
theorem keepsPattern_casePattern (hP : P.Keeps) (depth : Nat) (around : Around) :
    KeepsPattern (casePattern P depth around) := by
  induction depth generalizing around with
  | zero => exact fun _ => yields_iff.mpr nofun
  | succ depth ih =>
    intro F cur s
    unfold casePattern
    extract_lets part
    have hpart : KeepsPattern part := fun s => within_patternPart hP (ih _) (ih _) s
    have bars {fuel : Nat} {cur : Cursor} (s : cur.Within F) :
        Yields (casePattern.bars around part fuel cur) (·.Within F) := by
      induction fuel generalizing cur with
      | zero => exact yields_iff.mpr nofun
      | succ fuel ih =>
        rw [casePattern.bars]
        split
        next behind bar => exact (hpart (s.on? bar)).bind fun _ s => ih s
        next => exact yields_ok s
    refine (hpart s).bind fun cur s => (bars s).bind fun cur s => ?_
    mvcgen
    all_goals grind

end SnippetAudit.Python
