import SnippetAudit.Proofs.Python.Expression
import SnippetAudit.Proofs.Python.Documentation
import SnippetAudit.Proofs.Python.Stand

/-!
Where the nodes of simple statements stand.

Reading a statement keeps to the frame, and all nodes that it makes stand behind its first token. A line
begins with its first statement, and that is a string if the line is nothing but a literal
(`within_lineWithin`).
-/

set_option mvcgen.warning false

namespace SnippetAudit.Python

open Std.Do Source Text

/-- The frame of what is behind a place of a source in which some blocks are open. -/
def Source.frame (src : Source) (t : List Char) (blocks : List Nat) : Frame :=
  ⟨t, blocks, src.text.length, true⟩

variable {src : Source} {F : Frame} {cur : Cursor} {around : Around} {want : Expecting} {fuel : Nat}
  {blocks : List Nat} {start t : List Char}

theorem Yields.faultIn {α : Type} {x : Except Stuck α} {Q : α → Prop} (h : Yields x Q) :
    Yields (Python.faultIn start x) Q := by
  cases x with
  | error stuck => exact yields_iff.mpr nofun
  | ok a => exact yields_ok (yields_iff.mp h a rfl)

/-- What is answered is the answer. -/
theorem Yields.answered {ε α : Type} {x : Except ε α} {Q : α → Prop} (h : Yields x Q) :
    Yields x fun a => x = .ok a ∧ Q a :=
  yields_iff.mpr fun a answer => ⟨answer, yields_iff.mp h a answer⟩

/-! ### Expressions in statements -/

section Expressions

variable (hP : src.parsers.Keeps)

include hP

@[spec] theorem within_sourceExpression (s : cur.Within F) :
    Yields (src.expression around cur) (·.2.Within F) :=
  hP.expression s

theorem keepsTarget_target : KeepsTarget src.target :=
  fun {_ cur} s => keepsTarget_loopTarget hP cur.fuel s

@[spec] theorem within_expressionsWithin {targets : Bool} (s : cur.Within F) :
    Yields (src.expressionsWithin around fuel targets cur) (·.2.Within F) := by
  induction fuel generalizing cur targets with
  | zero => mvcgen [Source.expressionsWithin]
  | succ fuel ih =>
    mvcgen [Source.expressionsWithin, ih]
    all_goals grind

@[spec] theorem within_expressions (s : cur.Within F) :
    Yields (src.expressions around cur) (·.2.Within F) :=
  within_expressionsWithin hP s

@[spec] theorem within_expressionRowWithin (s : cur.Within F) :
    Yields (src.expressionRowWithin around fuel cur) (·.Within F) := by
  induction fuel generalizing cur with
  | zero => mvcgen [Source.expressionRowWithin]
  | succ fuel ih =>
    mvcgen [Source.expressionRowWithin, ih]
    all_goals grind

@[spec] theorem within_expressionRow (s : cur.Within F) :
    Yields (src.expressionRow around cur) (·.Within F) :=
  within_expressionRowWithin hP s

@[spec] theorem within_assignmentWithin (s : cur.Within F) :
    Yields (src.assignmentWithin fuel cur) (·.2.Within F) := by
  induction fuel generalizing cur with
  | zero => mvcgen [Source.assignmentWithin]
  | succ fuel ih =>
    mvcgen [Source.assignmentWithin, ih]
    all_goals grind

end Expressions

/-! ### Imports -/

/-- What is read of a node: it stands behind a place, and reading keeps to the frame. -/
abbrev Reads (src : Source) (t : List Char) (blocks : List Nat) (read : Node × Cursor) : Prop :=
  read.1.Stands src t ∧ read.2.Within (src.frame t blocks)

/-- What is read of several nodes. -/
abbrev ReadsAll (src : Source) (t : List Char) (blocks : List Nat) (read : List Node × Cursor) : Prop :=
  (∀ n ∈ read.1, n.Stands src t) ∧ read.2.Within (src.frame t blocks)

/-- What is read of a simple statement from a place on. -/
structure ReadsDraft (src : Source) (t : List Char) (blocks : List Nat) (read : Draft × Cursor) : Prop where
  kind : ordinary read.1.kind = true
  children : ∀ n ∈ read.1.children, n.Stands src t
  within : read.2.Within (src.frame t blocks)

section Imports

variable (inside : t <:+ src.text)

include inside

/-- A dotted name stands where it is read. -/
theorem within_dottedName (s : cur.Within (src.frame t blocks)) :
    Yields (src.dottedName around want cur) fun (name, cur') => name.kind = "dotted_name" ∧
      name.Stands src (cur.settle want).rest ∧ cur'.Within (src.frame t blocks) := by
  have found := s.settle want
  refine (within_expectName found).bind fun (_, cur) s => (within_dottedWithin s).bind fun cur s =>
    yields_ok ⟨rfl, ?_, s⟩
  exact stands_node rfl (found.rest.trans inside) nofun

theorem within_importListWithin (s : cur.Within (src.frame t blocks)) :
    Yields (src.importListWithin around want fuel cur) (ReadsAll src t blocks) := by
  induction fuel generalizing cur want with
  | zero => exact yields_iff.mpr nofun
  | succ fuel ih =>
    unfold Source.importListWithin
    have place := (s.settle want).rest
    refine (within_dottedName inside s).bind ?_
    rintro ⟨name, cur⟩ ⟨kind, stands, s⟩
    dsimp -zeta only
    have plain : ordinary name.kind = true := by rw [kind]; rfl
    extract_lets behind
    have more {read : Node × Cursor} (plain : ordinary read.1.kind = true)
        (reads : Reads src t blocks read) : Yields (behind read) (ReadsAll src t blocks) := by
      obtain ⟨stands, s⟩ := reads
      unfold behind
      extract_lets name
      have named : name.Stands src t := stands.within plain "name"
      have single : ∀ n ∈ [name], n.Stands src t := stands_singleton named
      split
      next => exact yields_ok ⟨single, s⟩
      next _ comma =>
        have s := s.onComma? comma
        extract_lets ends
        split
        · exact yields_ok ⟨single, s⟩
        · exact (ih s).bind fun _ ⟨others, s⟩ => yields_ok ⟨stands_cons named others, s⟩
    split
    next word =>
      refine (within_expectName (s.onWord? word)).bind fun _ s => more rfl ⟨?_, s⟩
      have inner := stands_singleton (stands.within plain "name")
      exact (stands_node rfl (place.trans inside) inner).mono place
    next => exact more plain ⟨stands.mono place, s⟩

theorem within_importNames (s : cur.Within (src.frame t blocks)) :
    Yields (src.importNames cur) (ReadsAll src t blocks) := by
  unfold Source.importNames
  split
  next opened =>
    exact (within_importListWithin inside (s.on? opened)).bind fun (names, cur) ⟨stand, s⟩ =>
      (within_expect s).bind fun _ s => yields_ok ⟨stand, s⟩
  next => exact within_importListWithin inside s

omit inside in
theorem within_dotsWithin (s : cur.Within F) : (dotsWithin fuel cur).Within F := by
  induction fuel generalizing cur with
  | zero => exact s
  | succ fuel ih =>
    unfold dotsWithin
    split
    next dot => exact ih (s.on? dot)
    next => exact s

theorem within_importFrom (s : cur.Within (src.frame t blocks)) :
    Yields (src.importFrom cur) (ReadsDraft src t blocks) := by
  unfold Source.importFrom
  split
  next future =>
    exact (within_expectWord (s.onWord? future)).bind fun _ s =>
      (within_importNames inside s).bind fun _ ⟨stand, s⟩ => yields_ok ⟨rfl, stand, s⟩
  next =>
    extract_lets behind relative names
    have dots : behind.Within (src.frame t blocks) := within_dotsWithin s
    have listed {cur : Cursor} (s : cur.Within (src.frame t blocks)) :
        Yields (names cur) (ReadsDraft src t blocks) := by
      unfold names
      refine (within_expectWord s).bind fun cur s => ?_
      split
      next star =>
        have first := s.upcoming {}
        rw [upcoming_of_on? star] at first ⊢
        refine yields_ok ⟨rfl, ?_, s.on? star⟩
        exact stands_singleton ((stands_wildcard (first.trans inside)).mono first)
      next =>
        exact (within_importNames inside s).bind fun _ ⟨stand, s⟩ => yields_ok ⟨rfl, stand, s⟩
    split
    · exact listed dots
    · exact (within_dottedName inside dots).bind fun _ ⟨_, _, s⟩ => listed s

end Imports

/-! ### Simple statements -/

theorem within_nameRowWithin (s : cur.Within F) : Yields (nameRowWithin fuel cur) (·.Within F) := by
  induction fuel generalizing cur with
  | zero => exact yields_iff.mpr nofun
  | succ fuel ih =>
    mvcgen [nameRowWithin, ih]
    all_goals grind

theorem yields_readEither {first second : Except Stuck (Draft × Cursor)} {Q : Draft × Cursor → Prop}
    (h : Yields first Q) (h' : Yields second Q) : Yields (readEither first second) Q := by
  unfold readEither
  split
  · split
    · exact h
    · exact h'
  · exact h'

/-- A statement without nodes below it. -/
theorem readsDraft_leaf {kind : String} (h : ordinary kind = true) (s : cur.Within (src.frame t blocks)) :
    ReadsDraft src t blocks (⟨kind, []⟩, cur) :=
  ⟨h, nofun, s⟩

section Statements

variable (hP : src.parsers.Keeps)

include hP

theorem within_assignment (inside : t <:+ src.text) (s : cur.Within (src.frame t blocks)) :
    Yields (src.assignment cur) (ReadsDraft src t blocks) := by
  have place := s.rest
  refine (within_assignmentWithin hP s).bind fun (quoted, cur) s => yields_ok ⟨rfl, ?_, s⟩
  cases quoted with
  | none => exact nofun
  | some behind =>
    have string : (src.node "string" _ behind []).Stands src t :=
      (stands_node rfl (place.trans inside) (List.forall_mem_nil _)).mono place
    exact stands_singleton string

theorem within_printStatement (s : cur.Within (src.frame t blocks)) :
    Yields (src.printStatement cur) (ReadsDraft src t blocks) := by
  unfold Source.printStatement
  split
  next redirected =>
    refine (within_sourceExpression hP (s.on? redirected)).bind fun (_, cur) s => ?_
    dsimp only
    split
    next comma =>
      have s := s.onComma? comma
      split
      · exact yields_ok (readsDraft_leaf rfl s)
      · exact (within_expressions hP s).bind fun _ s => yields_ok (readsDraft_leaf rfl s)
    next => exact yields_ok (readsDraft_leaf rfl s)
  next => exact (within_expressions hP s).bind fun _ s => yields_ok (readsDraft_leaf rfl s)

theorem within_execStatement (s : cur.Within (src.frame t blocks)) :
    Yields (src.execStatement cur) (ReadsDraft src t blocks) := by
  unfold Source.execStatement
  extract_lets within
  have places {cur : Cursor} (s : cur.Within (src.frame t blocks)) :
      Yields (within cur) (ReadsDraft src t blocks) := by
    unfold within
    split
    next word =>
      exact (within_expressionRow hP (s.onWord? word)).bind fun _ s => yields_ok (readsDraft_leaf rfl s)
    next => exact yields_ok (readsDraft_leaf rfl s)
  split
  next quote =>
    exact (within_literal hP (within_of_next_quote s quote).2).bind fun _ s => places s
  next => exact (within_expectName s).bind fun _ s => places s

theorem within_typeAlias (s : cur.Within (src.frame t blocks)) :
    Yields (src.typeAlias cur) (ReadsDraft src t blocks) := by
  unfold Source.typeAlias
  refine (within_typing hP s).bind fun (_, cur) s => ?_
  dsimp only
  split
  next equals =>
    exact (within_typing hP (s.onEquals? equals)).bind fun _ s => yields_ok (readsDraft_leaf rfl s)
  next => exact within_stuck

theorem within_keywordStatement {w : String} {parsed : Except Stuck (Draft × Cursor)}
    (inside : t <:+ src.text) (s : cur.Within (src.frame t blocks)) (found : src.keywordStatement w cur = some parsed) :
    Yields parsed (ReadsDraft src t blocks) := by
  unfold Source.keywordStatement at found
  extract_lets optional leaf cause at found
  have operand {cur : Cursor} (s : cur.Within (src.frame t blocks)) :
      Yields (optional cur) (·.Within (src.frame t blocks)) := by
    unfold optional
    split
    · exact yields_ok s
    · exact (within_expressions hP s).bind fun _ s => yields_ok s
  have simple {kind : String} {read : Except Stuck Cursor} (plain : ordinary kind = true)
      (h : Yields read (·.Within (src.frame t blocks))) (found : leaf kind read = some parsed) :
      Yields parsed (ReadsDraft src t blocks) := by
    cases found
    exact h.map fun _ s => readsDraft_leaf plain s
  clear_value optional leaf
  split at found
  · cases found
    exact (within_importListWithin inside s).bind fun _ ⟨stand, s⟩ => yields_ok ⟨rfl, stand, s⟩
  split at found
  · cases found
    exact within_importFrom inside s
  split at found
  · exact simple rfl (within_expressionRow hP s) found
  split at found
  · exact simple rfl (operand s) found
  split at found
  · exact simple rfl ((within_expressions hP s).bind fun _ s => yields_ok s) found
  split at found
  · refine simple rfl ?_ found
    have caused {cur : Cursor} (s : cur.Within (src.frame t blocks)) :
        Yields (cause cur) (·.Within (src.frame t blocks)) := by
      unfold cause
      split
      next word => exact (within_sourceExpression hP (s.onWord? word)).bind fun _ s => yields_ok s
      next => exact yields_ok s
    split
    · exact caused s
    · exact (operand s).bind fun _ s => caused s
  split at found
  next named =>
    simp only [Bool.or_eq_true, beq_iff_eq, or_assoc] at named
    refine simple ?_ (yields_ok s) found
    rcases named with rfl | rfl | rfl <;> rfl
  split at found
  next named =>
    simp only [Bool.or_eq_true, beq_iff_eq] at named
    refine simple ?_ (within_nameRowWithin s) found
    rcases named with rfl | rfl <;> rfl
  next => cases found

/-- **Reading a simple statement keeps to the frame**, and its nodes stand behind its first token. -/
theorem within_simpleStatement (inside : t <:+ src.text) (s : cur.Within (src.frame t blocks)) :
    Yields (src.simpleStatement cur) (ReadsDraft src t blocks) := by
  unfold Source.simpleStatement
  split
  next => exact within_assignment hP inside s
  next w rest word =>
    have behind : ({ cur with rest } : Cursor).Within (src.frame t blocks) := s.move (suffix_of_word? word)
    dsimp only
    split
    next parsed keyword => exact within_keywordStatement hP inside behind keyword
    next =>
      have plain := @within_assignment src cur blocks t hP inside s
      split
      · split
        · split
          · exact plain
          · exact within_printStatement hP behind
        · exact yields_readEither plain (within_printStatement hP behind)
      split
      · exact yields_readEither (within_execStatement hP behind) plain
      split
      · exact yields_readEither (within_typeAlias hP behind) plain
      · exact plain

end Statements

/-! ### Lines -/

/-- What is read of one statement or block: its node stands behind a place, and reading comes to the end of a
line with the same open blocks. -/
abbrev ReadNode (src : Source) (t : List Char) (blocks : List Nat) (read : Node × Cursor) : Prop :=
  read.1.Stands src t ∧ read.2.Rests (src.frame t blocks)

/-- What is read of some statements. -/
abbrev ReadNodes (src : Source) (t : List Char) (blocks : List Nat) (read : List Node × Cursor) : Prop :=
  (∀ n ∈ read.1, n.Stands src t) ∧ read.2.Rests (src.frame t blocks)

theorem readNodes_widen {s : List Char} {read : List Node × Cursor} (h : ReadNodes src s blocks read)
    (inside : s <:+ t) : ReadNodes src t blocks read :=
  ⟨fun n mem => (h.1 n mem).mono inside, h.2.widen inside⟩

/-- The node of a statement that starts at a place. -/
structure Node.IsAt (src : Source) (s : List Char) (n : Node) : Prop where
  starts : n.StartsAt src s
  named : n.label.named = true
  kind : n.kind ≠ "comment"

/-- A statement is an expression, and that a string, if it is a literal that ends its line. -/
structure Node.StatementAt (src : Source) (s : List Char) (n : Node) : Prop extends n.IsAt src s where
  literal : ∀ words post, s = quoted words post → Spelled words → post = [] ∨ post.head? = some '\n' →
    n.kind = "expression_statement" ∧ ∃ value, n.namedChildren.head? = some value ∧ value.kind = "string"

/-- Statements of which the first starts at a place. -/
def StartAt (src : Source) (s : List Char) (ns : List Node) : Prop :=
  ∃ first more, ns = first :: more ∧ first.StatementAt src s

theorem isAt_node {kind : String} {behind : List Char} {children : List Node} (h : ordinary kind = true) :
    (src.node kind start behind children).IsAt src start :=
  ⟨startsAt_node, rfl, (ne_of_ordinary h).1⟩

/-- A literal that ends its line, at a cursor. -/
theorem Cursor.Within.atLiteral {words post : List Char} (s : cur.Within (src.frame t blocks))
    (inside : t <:+ src.text) (read : cur.rest = quoted words post) (spelled : Spelled words)
    (ends : post = [] ∨ post.head? = some '\n') : cur.AtLiteral words post :=
  ⟨spelled, read, ends, by rw [s.bound]; exact (s.rest.trans inside).length_le⟩

section Lines

variable (parsers : ∃ n, src.parsers = nested (n + 1))

include parsers

theorem keeps_parsers : src.parsers.Keeps := by
  obtain ⟨n, same⟩ := parsers
  rw [same]
  exact keeps_nested _

/-- **The statements of a line** stand behind its first token, where the first of them starts. -/
theorem within_lineWithin (inside : t <:+ src.text) (s : cur.Within (src.frame t blocks)) :
    Yields (src.lineWithin fuel cur) fun read =>
      ReadNodes src cur.rest blocks read ∧ StartAt src cur.rest read.1 := by
  have hP := keeps_parsers parsers
  induction fuel generalizing cur t with
  | zero => exact yields_iff.mpr nofun
  | succ fuel ih =>
    have place : cur.rest <:+ src.text := s.rest.trans inside
    unfold Source.lineWithin
    refine (within_simpleStatement hP place s.here).answered.faultIn.bind ?_
    rintro ⟨draft, ended⟩ ⟨answer, reads⟩
    dsimp -zeta only
    extract_lets leaf
    have stands : leaf.Stands src cur.rest := stands_node reads.kind place reads.children
    have first : leaf.StatementAt src cur.rest := by
      refine ⟨isAt_node reads.kind, fun words post read spelled ends => ?_⟩
      have literal := simpleStatement_of_atLiteral (s.atLiteral inside read spelled ends) parsers
      cases answer.symm.trans literal
      exact ⟨rfl, _, rfl, rfl⟩
    have single : ∀ n ∈ [leaf], n.Stands src cur.rest := stands_singleton stands
    have s := reads.within
    split
    next found newline => exact yields_ok ⟨⟨single, rests_of_next_newline s newline⟩, leaf, [], rfl, first⟩
    next found plain =>
      have s := within_of_next_plain s plain
      split
      next rest semicolon =>
        have s := s.move (show rest <:+ found.rest by rw [semicolon]; exact List.suffix_cons _ _)
        extract_lets behind
        split
        next newline =>
          exact yields_ok ⟨⟨single, rests_of_next_newline s newline⟩, leaf, [], rfl, first⟩
        next =>
          have s := s.settle { newline := true, quote := true }
          refine (ih place s).bind fun _ ⟨more, _⟩ => ?_
          have more := readNodes_widen more s.rest
          exact yields_ok ⟨⟨stands_cons stands more.1, more.2⟩, leaf, _, rfl, first⟩
      next => exact yields_iff.mpr nofun
    next => exact yields_iff.mpr nofun

end Lines

end SnippetAudit.Python
