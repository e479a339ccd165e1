import SnippetAudit.Proofs.Python.Statement

/-!
Where the nodes of compound statements and of blocks stand.

Reading a block comes to the end of a line and closes whatever it opens (`readsSuite`), so the statements of a
block start where the block that is open allows it (`Opens`). A definition is laid out as its block is read
behind its colon (`laidOut_definition`).
-/

set_option mvcgen.warning false

namespace SnippetAudit.Python

open Std.Do Source Text

variable {src : Source} {F : Frame} {cur : Cursor} {fuel : Nat} {blocks : List Nat} {start t : List Char}

/-! ### Heads of compound statements -/

/-- The node of a name behind a place. -/
def Node.Names (src : Source) (t : List Char) (n : Node) : Prop :=
  ∃ place behind, place <:+ t ∧ n = (src.node "identifier" place behind []).within "name"

/-- What is read of the head of a definition: its name, and reading keeps to the frame. -/
abbrev ReadsHead (src : Source) (t : List Char) (blocks : List Nat) (read : Node × Cursor) : Prop :=
  read.1.Names src t ∧ read.2.Within (src.frame t blocks)

theorem Node.Names.stands {n : Node} (h : n.Names src t) (inside : t <:+ src.text) : n.Stands src t := by
  obtain ⟨place, behind, here, rfl⟩ := h
  exact ((stands_node rfl (here.trans inside) (List.forall_mem_nil _)).within rfl "name").mono here

theorem within_definedName (s : cur.Within (src.frame t blocks)) :
    Yields (src.definedName cur) (ReadsHead src t blocks) :=
  (within_expectName s).bind fun (_, _) s' => yields_ok ⟨⟨_, _, s.upcoming {}, rfl⟩, s'⟩

section Heads

variable (hP : src.parsers.Keeps)

include hP

theorem within_handledWithin (s : cur.Within F) : Yields (src.handledWithin fuel cur) (·.Within F) := by
  induction fuel generalizing cur with
  | zero => exact yields_iff.mpr nofun
  | succ fuel ih =>
    mvcgen [Source.handledWithin, ih]
    all_goals grind

@[spec] theorem within_typeParametersWithin (s : cur.Within F) :
    Yields (src.typeParametersWithin fuel cur) (·.Within F) := by
  induction fuel generalizing cur with
  | zero => exact yields_iff.mpr nofun
  | succ fuel ih =>
    mvcgen [Source.typeParametersWithin, ih]
    all_goals grind

@[spec] theorem within_typeParameters (s : cur.Within F) :
    Yields (src.typeParameters cur) (·.Within F) := by
  mvcgen [Source.typeParameters]
  all_goals grind

theorem within_signature (s : cur.Within (src.frame t blocks)) :
    Yields (src.signature cur) (ReadsHead src t blocks) := by
  unfold Source.signature
  refine (within_definedName s).bind fun (name, cur) ⟨named, s⟩ =>
    (within_typeParameters hP s).bind fun cur s => (within_expect s).bind fun cur s => ?_
  extract_lets answered
  have answer {cur : Cursor} (s : cur.Within (src.frame t blocks)) :
      Yields (answered cur) (ReadsHead src t blocks) := by
    unfold answered
    split
    next arrow =>
      have s := s.on? arrow
      split
      next stars => exact (within_expectName (s.on? stars)).bind fun _ s => yields_ok ⟨named, s⟩
      next => exact (within_sourceExpression hP s).bind fun _ s => yields_ok ⟨named, s⟩
    next => exact yields_ok ⟨named, s⟩
  split
  next closed => exact answer (s.on? closed)
  next =>
    exact (within_parametersWithin hP (keepsTarget_target hP) s).bind fun _ s =>
      (within_expect s).bind fun _ s => answer s

theorem within_classHead (s : cur.Within (src.frame t blocks)) :
    Yields (src.classHead cur) (ReadsHead src t blocks) := by
  unfold Source.classHead
  refine (within_definedName s).bind fun (name, cur) ⟨named, s⟩ =>
    (within_typeParameters hP s).bind fun cur s => ?_
  split
  next opened =>
    exact (within_arguments hP (keepsTarget_target hP) (s.on? opened)).bind fun _ s => yields_ok ⟨named, s⟩
  next => exact yields_ok ⟨named, s⟩

theorem within_casePatternsWithin (s : cur.Within F) :
    Yields (src.casePatternsWithin fuel cur) (·.Within F) := by
  induction fuel generalizing cur with
  | zero => exact yields_iff.mpr nofun
  | succ fuel ih =>
    unfold Source.casePatternsWithin
    refine (keepsPattern_casePattern hP _ _ s).bind fun cur s => ?_
    split
    next behind comma =>
      have s := s.onComma? comma
      split
      · exact yields_ok s
      · exact ih s
    next => exact yields_ok s

end Heads

/-! ### Blocks -/

/-- A block that is read from a place on: the first token below, if the line of the place ends there, is that
of the first statement exactly if it is indented further than the open block. -/
structure Node.BlockAt (src : Source) (cur : Cursor) (block : Node) : Prop where
  kind : block.kind = "block"
  first : block.children = [] ∨ ∃ s, s <:+ src.text ∧ StartAt src s block.children
  below : EndsLine cur.rest → ∀ line margin rest, cur.rest = line ++ '\n' :: (margin ++ rest) →
    '\n' ∉ line → (∀ c ∈ margin, isMargin c = true) → AtToken rest →
      if cur.indents.headD 0 < marginWidth 0 margin then StartAt src rest block.children
      else block.children = []

/-- A block read at some depth of nesting keeps to the frame. -/
abbrev ReadsSuite (src : Source) (depth : Nat) : Prop :=
  ∀ {t : List Char} {blocks : List Nat} {cur : Cursor}, t <:+ src.text → cur.Within (src.frame t blocks) →
    Yields (src.suite depth cur) fun read => ReadNode src t blocks read ∧ read.1.BlockAt src cur

theorem exists_firstStatement?_of_startAt {block : Node} {s : List Char} (h : StartAt src s block.children) :
    ∃ first, block.firstStatement? = some first ∧ first.StatementAt src s := by
  obtain ⟨first, more, children, statement⟩ := h
  refine ⟨first, ?_, statement⟩
  simp [Node.firstStatement?, Node.namedChildren, children, statement.named, statement.kind]

theorem firstStatement?_of_children_eq_nil {block : Node} (h : block.children = []) :
    block.firstStatement? = none := by
  rw [Node.firstStatement?, Node.namedChildren, h]
  rfl

section Definition

variable {name block : Node} {behind : Cursor} {stop : List Char} {kind : String}

/-- The block of a definition is the child that is said to be its body. -/
theorem childBy?_body {colon : Node} (named : name.Names src t) (token : colon.label.field = none) :
    (src.node kind start stop [name, colon, block.within "body"]).childBy? "body" =
      some (block.within "body") := by
  obtain ⟨place, last, -, rfl⟩ := named
  simp [Node.childBy?, Node.childrenBy, token]

/-- **A definition is laid out as its block is read.** -/
theorem laidOut_definition (h : start <:+ src.text) (opens : Opens (src.frame src.text blocks) start)
    (word : AtWord start) (named : name.Names src t) (colon : ':' :: behind.rest <:+ src.text)
    (s : behind.Within (src.frame t blocks)) (body : block.BlockAt src behind) :
    (src.node kind start stop
      [name, tokenOf src.text ":" (':' :: behind.rest) behind.rest, block.within "body"]).LaidOut src.code
        (blocks.headD 0) := by
  have found := @childBy?_body src start t name block stop kind
    (tokenOf src.text ":" (':' :: behind.rest) behind.rest) named rfl
  have open_blocks : behind.indents = blocks := s.indents
  refine ⟨?body, ?literal, ?indented⟩
  case body =>
    intro token mem is_colon rest starts ends line margin below read clean blank at_token
    obtain rfl : token = tokenOf src.text ":" (':' :: behind.rest) behind.rest := by
      obtain ⟨place, last, -, rfl⟩ := named
      simp only [children_node, List.mem_cons, List.not_mem_nil, or_false] at mem
      rcases mem with rfl | rfl | rfl
      · exact absurd is_colon (show "identifier" ≠ ":" by decide)
      · rfl
      · rw [Node.kind_within, body.kind] at is_colon
        exact absurd is_colon (by decide)
    obtain ⟨-, rfl⟩ := List.cons.inj (Node.StartsAt.unique ⟨rfl, rfl⟩ colon starts)
    have first := body.below ends line margin below read clean blank at_token
    rw [open_blocks] at first
    refine ⟨_, found, ?_⟩
    split_ifs at first ⊢
    · rw [← Node.children_within block "body"] at first
      obtain ⟨first, is_first, statement⟩ := exists_firstStatement?_of_startAt first
      have inside : below <:+ behind.rest := by
        rw [read, ← List.cons_append, ← List.append_assoc]
        exact List.suffix_append _ _
      exact ⟨first, is_first, statement.starts.starts (inside.trans (suffix_of_cons_suffix colon))⟩
    · exact firstStatement?_of_children_eq_nil (by rwa [Node.children_within])
  case literal =>
    intro block' is_body first statement words post starts spelled ends
    cases found.symm.trans is_body
    rcases body.first with none | ⟨place, inside, begins⟩
    · rw [firstStatement?_of_children_eq_nil (by rwa [Node.children_within])] at statement
      cases statement
    · rw [← Node.children_within block "body"] at begins
      obtain ⟨_, is_first, here⟩ := exists_firstStatement?_of_startAt begins
      cases is_first.symm.trans statement
      exact here.literal words post (here.starts.unique inside starts).symm spelled ends
  case indented =>
    intro wide place starts above front whole clean unjoined known
    rw [Source.code, String.toList_ofList] at whole known
    obtain rfl : place = start := startsAt_node.unique h starts
    have margin := headD_le_of_opens opens rfl word clean whole unjoined known
    exact margin.resolve_left (Nat.ne_of_gt wide)

end Definition

/-! ### Compound statements -/

/-- What is read of a statement that starts at a place. -/
abbrev ReadStatement (src : Source) (start : List Char) (blocks : List Nat) (read : Node × Cursor) : Prop :=
  ReadNode src start blocks read ∧ read.1.IsAt src start

/-- Most statements have all their nodes behind their first token. -/
theorem readStatement_node {kind : String} {children : List Node} (h : ordinary kind = true)
    (inside : start <:+ src.text) (stand : ∀ m ∈ children, m.Stands src start)
    (s : cur.Rests (src.frame start blocks)) :
    ReadStatement src start blocks (src.node kind start cur.rest children, cur) :=
  ⟨⟨stands_node h inside stand, s⟩, isAt_node h⟩

/-- Where a definition begins a word starts. -/
theorem atWord_of_word? {s rest : List Char} {w : String} (word : word? s = some (w, rest))
    (known : w = "def" ∨ w = "class" ∨ w = "async") : AtWord s := by
  have first : s.head? = w.toList.head? := by
    unfold word? at word
    grind [String.toList_ofList]
  have at_letter {c : Char} (letter : s.head? = some c) (known : c = 'd' ∨ c = 'c' ∨ c = 'a') :
      AtWord s := by
    obtain ⟨rest, rfl⟩ := List.head?_eq_some_iff.mp letter
    rcases known with rfl | rfl | rfl <;> exact ⟨rfl, _, rfl, by decide⟩
  rcases known with rfl | rfl | rfl
  · exact at_letter first (.inl rfl)
  · exact at_letter first (.inr (.inl rfl))
  · exact at_letter first (.inr (.inr rfl))

section Compound

variable {depth : Nat} (hP : src.parsers.Keeps) (hs : ReadsSuite src depth)

include hP hs

omit hP in
/-- A colon and a block. -/
theorem within_colonBlock (inside : t <:+ src.text) (s : cur.Within (src.frame t blocks)) :
    Yields (do
      let cur ← faultIn start (cur.expect {} ":")
      src.suite depth cur) (ReadNode src t blocks) :=
  (within_expect s).faultIn.bind fun _ s => (hs inside s).imp fun _ read => read.1

theorem within_clause {conditional : Bool} (inside : t <:+ src.text) (s : cur.Within (src.frame t blocks)) :
    Yields (src.clause (src.suite depth) start conditional cur) (ReadNode src t blocks) := by
  unfold Source.clause
  split
  · exact (within_sourceExpression hP s).faultIn.bind fun _ s => within_colonBlock hs inside s
  · exact within_colonBlock hs inside s

theorem within_clausesAfter {words : List (String × Bool × Bool)}
    (known : ∀ word ∈ words, ordinary (word.1 ++ "_clause") = true) (inside : t <:+ src.text)
    (s : cur.Rests (src.frame t blocks)) :
    Yields (src.clausesAfter (src.suite depth) words fuel cur) (ReadNodes src t blocks) := by
  induction fuel generalizing words cur with
  | zero =>
    cases words <;> exact yields_ok ⟨nofun, s⟩
  | succ fuel ih =>
    cases words with
    | nil => exact yields_ok ⟨nofun, s⟩
    | cons first others =>
      obtain ⟨w, conditional, repeated⟩ := first
      have kind := known _ List.mem_cons_self
      have known' := fun word mem => known word (List.mem_cons_of_mem _ mem)
      unfold Source.clausesAfter
      extract_lets at'
      split
      next => exact ih known' s
      next behind word =>
        have place : at'.rest <:+ t := (s.toWithin.settle _).rest
        refine (within_clause hP hs (place.trans inside) (s.toWithin.settle_onWord? word)).bind
          fun _ ⟨block, s⟩ => ?_
        have later : ∀ word ∈ if repeated then (w, conditional, repeated) :: others else others,
            ordinary (word.1 ++ "_clause") = true := by
          split
          · exact known
          · exact known'
        refine (ih later (s.widen place)).bind fun _ ⟨more, s⟩ => yields_ok ⟨stands_cons ?_ more, s⟩
        exact (stands_node kind (place.trans inside) (stands_singleton block)).mono place

theorem within_elseClause (inside : t <:+ src.text) (s : cur.Rests (src.frame t blocks)) :
    Yields (src.elseClause (src.suite depth) cur) (ReadNodes src t blocks) :=
  within_clausesAfter hP hs (by decide) inside s

theorem within_handlers (inside : t <:+ src.text) (s : cur.Rests (src.frame t blocks)) :
    Yields (src.handlers (src.suite depth) fuel cur) (ReadNodes src t blocks) := by
  induction fuel generalizing cur with
  | zero => exact yields_ok ⟨nofun, s⟩
  | succ fuel ih =>
    unfold Source.handlers
    extract_lets at' handled
    split
    next => exact yields_ok ⟨nofun, s⟩
    next behind word =>
      have place : at'.rest <:+ t := (s.toWithin.settle _).rest
      have word := s.toWithin.settle_onWord? word
      have s : ((behind.on? { quote := true } "*").getD behind).Within (src.frame at'.rest blocks) :=
        word.getD fun _ => word.on?
      have caught {cur : Cursor} (s : cur.Within (src.frame at'.rest blocks)) :
          Yields (handled cur) (ReadNodes src t blocks) := by
        refine (within_expect s).faultIn.bind fun _ s => (hs (place.trans inside) s).bind
          fun _ ⟨⟨block, s⟩, _⟩ => (ih (s.widen place)).bind fun _ ⟨more, s⟩ =>
            yields_ok ⟨stands_cons ?_ more, s⟩
        exact (stands_node rfl (place.trans inside) (stands_singleton block)).mono place
      dsimp only
      split
      · exact caught s
      · exact (within_handledWithin hP s).faultIn.bind fun _ s => caught s

omit hP in
/-- **A definition keeps to the frame**, and is laid out as its block is read. -/
theorem within_definition {kind : String} {head : Cursor → Except Stuck (Node × Cursor)}
    (defines : kind = "function_definition" ∨ kind = "class_definition") (inside : start <:+ src.text)
    (opens : Opens (src.frame src.text blocks) start) (word : AtWord start)
    (hh : Yields (head cur) (ReadsHead src start blocks)) :
    Yields (src.definition (src.suite depth) start kind head cur) (ReadStatement src start blocks) := by
  unfold Source.definition
  refine hh.faultIn.bind fun (name, ended) ⟨named, s⟩ => ?_
  refine (within_expect s).answered.faultIn.bind fun behind ⟨passed, s'⟩ => ?_
  refine (hs inside s').bind fun (block, cur) ⟨⟨stands, rests⟩, body⟩ => yields_ok ?_
  have place : ended.upcoming {} = ':' :: behind.rest := upcoming_of_expect passed
  have colon := s.upcoming {}
  rw [place] at colon ⊢
  have plain : ordinary block.kind = true := by rw [body.kind]; rfl
  have stand : ∀ m ∈ [name, tokenOf src.text ":" (':' :: behind.rest) behind.rest, block.within "body"],
      m.Stands src start :=
    stands_cons (named.stands inside) <| stands_cons ((stands_token rfl (colon.trans inside)).mono colon) <|
      stands_singleton (stands.within plain "body")
  have different : kind ≠ "wildcard_import" ∧ kind ≠ "comment" := by
    rcases defines with rfl | rfl <;> decide
  exact ⟨⟨stands_of_kept inside stand (absurd · different.1) fun _ =>
    ⟨_, laidOut_definition inside opens word named (colon.trans inside) s' body⟩, rests⟩,
    startsAt_node, rfl, different.2⟩

theorem within_definition? {parsed : Except Fault (Node × Cursor)} (inside : cur.rest <:+ src.text)
    (s : cur.Within (src.frame cur.rest blocks)) (opens : Opens (src.frame src.text blocks) cur.rest)
    (found : src.definition? (src.suite depth) cur = some parsed) :
    Yields parsed (ReadStatement src cur.rest blocks) := by
  unfold Source.definition? at found
  split at found
  next => cases found
  next w rest word =>
    have behind : ({ cur with rest } : Cursor).Within (src.frame cur.rest blocks) :=
      s.move (suffix_of_word? word)
    dsimp only at found
    split at found
    next named =>
      cases found
      have word := atWord_of_word? word (.inl (eq_of_beq named))
      exact within_definition hs (.inl rfl) inside opens word (within_signature hP behind)
    split at found
    next named =>
      cases found
      have word := atWord_of_word? word (.inr (.inl (eq_of_beq named)))
      exact within_definition hs (.inr rfl) inside opens word (within_classHead hP behind)
    split at found
    next named =>
      have word := atWord_of_word? word (.inr (.inr (eq_of_beq named)))
      obtain ⟨cur', function, rfl⟩ := Option.map_eq_some_iff.mp found
      exact within_definition hs (.inl rfl) inside opens word (within_signature hP (behind.onWord? function))
    next => cases found

theorem within_decorated (inside : start <:+ src.text) (s : cur.Within (src.frame start blocks)) :
    Yields (src.decorated (src.suite depth) start fuel cur) (ReadStatement src start blocks) := by
  induction fuel generalizing cur with
  | zero => exact yields_iff.mpr nofun
  | succ fuel ih =>
    unfold Source.decorated
    refine (within_sourceExpression hP s).faultIn.bind fun (_, cur) s => ?_
    dsimp only
    split
    next found newline =>
      have line := rests_of_next_newline s newline
      have s := line.toWithin
      split
      next again => exact ih (s.on? again)
      next =>
        split
        next => exact within_stuck.faultIn
        next found plain =>
          split
          next parsed definition =>
            have opens := opens_of_plain? (line.widen inside) plain
            have s := s.plain? plain
            refine (within_definition? hP hs (s.rest.trans inside) s.here opens definition).bind
              fun (d, cur) ⟨⟨stands, rests⟩, _⟩ => yields_ok ?_
            exact readStatement_node rfl inside (stands_singleton (stands.mono s.rest)) (rests.widen s.rest)
          next => exact yields_iff.mpr nofun
    next => exact yields_iff.mpr nofun

theorem within_forStatement (inside : start <:+ src.text) (s : cur.Within (src.frame start blocks)) :
    Yields (src.forStatement (src.suite depth) start cur) (ReadStatement src start blocks) := by
  unfold Source.forStatement
  exact (within_targetsWithin (keepsTarget_target hP) s).faultIn.bind fun _ s =>
    (within_expressions hP s).faultIn.bind fun _ s => (within_expect s).faultIn.bind fun _ s =>
      (hs inside s).bind fun _ ⟨⟨block, s⟩, _⟩ => (within_elseClause hP hs inside s).bind fun _ ⟨more, s⟩ =>
        yields_ok (readStatement_node rfl inside (stands_cons block more) s)

theorem within_withStatement (inside : start <:+ src.text) (s : cur.Within (src.frame start blocks)) :
    Yields (src.withStatement (src.suite depth) start cur) (ReadStatement src start blocks) := by
  unfold Source.withStatement
  exact (within_expressions hP s).faultIn.bind fun _ s => (within_expect s).faultIn.bind fun _ s =>
    (hs inside s).bind fun _ ⟨⟨block, s⟩, _⟩ =>
      yields_ok (readStatement_node rfl inside (stands_singleton block) s)

/-- The clauses of a `match` statement end with its block. -/
theorem within_casesWithin (inside : t <:+ src.text) (s : cur.Within (src.frame t blocks)) :
    Yields (src.casesWithin (src.suite depth) fuel cur)
      (ReadNodes src (cur.upcoming { dedent := true }) blocks.tail) := by
  induction fuel generalizing cur t with
  | zero => exact yields_iff.mpr nofun
  | succ fuel ih =>
    unfold Source.casesWithin
    split
    next dedent =>
      rw [upcoming_of_next dedent]
      exact yields_ok ⟨nofun, (rests_of_next_dedent s rfl dedent).here⟩
    next token found other next =>
      rw [upcoming_of_next next]
      have here : found.Within (src.frame t blocks) :=
        within_of_next s next (fun indent => by simpa using (wanted_of_next next).1 indent) other
      have place := here.rest.trans inside
      have s : found.Within (src.frame found.rest blocks) := here.here
      refine (within_expectWord s).faultIn.bind fun cur s =>
        (within_casePatternsWithin hP s).faultIn.bind fun cur s => ?_
      extract_lets behind
      have guarded {cur : Cursor} (s : cur.Within (src.frame found.rest blocks)) :
          Yields (behind cur) (ReadNodes src found.rest blocks.tail) := by
        refine (within_expect s).faultIn.bind fun _ s => (hs place s).bind fun _ ⟨⟨block, s⟩, _⟩ =>
          (ih place s.toWithin).bind fun _ more => yields_ok ?_
        have more := readNodes_widen more (s.upcoming _)
        exact ⟨stands_cons (stands_node rfl place (stands_singleton block)) more.1, more.2⟩
      split
      next guard => exact (within_sourceExpression hP (s.onWord? guard)).faultIn.bind fun _ s => guarded s
      next => exact guarded s

theorem within_matchStatement (inside : start <:+ src.text) (s : cur.Within (src.frame start blocks)) :
    Yields (src.matchStatement (src.suite depth) start cur) (ReadStatement src start blocks) := by
  unfold Source.matchStatement
  refine (within_expressions hP s).faultIn.bind fun _ s => (within_expect s).faultIn.bind fun cur s => ?_
  split
  next cur indent =>
    obtain ⟨width, s⟩ := within_of_next_indent s indent
    have place := s.upcoming { dedent := true }
    refine (within_casesWithin hP hs inside s).bind fun (cases, ended) ⟨stand, s⟩ => yields_ok ?_
    have block : (src.node "block" (cur.upcoming _) ended.rest cases).Stands src start :=
      .mono (stands_node rfl (place.trans inside) stand) place
    exact readStatement_node rfl inside (stands_singleton block) (s.widen place)
  next cur newline =>
    have s := rests_of_next_newline s newline
    have block : (src.node "block" cur.rest cur.rest []).Stands src start :=
      .mono (stands_node rfl (s.rest.trans inside) (List.forall_mem_nil _)) s.rest
    exact yields_ok (readStatement_node rfl inside (stands_singleton block) s)
  next => exact yields_iff.mpr nofun

theorem within_compound? {parsed : Except Fault (Node × Cursor)} (inside : cur.rest <:+ src.text)
    (s : cur.Within (src.frame cur.rest blocks)) (opens : Opens (src.frame src.text blocks) cur.rest)
    (found : src.compound? (src.suite depth) cur = some parsed) :
    Yields parsed (ReadStatement src cur.rest blocks) := by
  unfold Source.compound? at found
  dsimp only at found
  split at found
  next rest decorator =>
    cases found
    exact within_decorated hP hs inside (s.move (by rw [decorator]; exact List.suffix_cons _ _))
  split at found
  next => cases found
  next w rest word =>
    have behind : ({ cur with rest } : Cursor).Within (src.frame cur.rest blocks) :=
      s.move (suffix_of_word? word)
    split at found
    · cases found
      exact (within_clause hP hs inside behind).bind fun _ ⟨block, s⟩ =>
        (within_clausesAfter hP hs (by decide) inside s).bind fun _ ⟨more, s⟩ =>
          yields_ok (readStatement_node rfl inside (stands_cons block more) s)
    split at found
    · cases found
      exact (within_clause hP hs inside behind).bind fun _ ⟨block, s⟩ =>
        (within_elseClause hP hs inside s).bind fun _ ⟨more, s⟩ =>
          yields_ok (readStatement_node rfl inside (stands_cons block more) s)
    split at found
    · cases found
      exact (within_clause hP hs inside behind).bind fun _ ⟨block, s⟩ =>
        (within_handlers hP hs inside s).bind fun _ ⟨caught, s⟩ =>
          (within_clausesAfter hP hs (by decide) inside s).bind fun _ ⟨more, s⟩ =>
            yields_ok (readStatement_node rfl inside (stands_append (stands_cons block caught) more) s)
    split at found
    · cases found
      exact within_forStatement hP hs inside behind
    split at found
    · cases found
      exact within_withStatement hP hs inside behind
    split at found
    · split at found
      next word =>
        cases found
        exact within_forStatement hP hs inside (behind.onWord? word)
      split at found
      next word =>
        cases found
        exact within_withStatement hP hs inside (behind.onWord? word)
      next => exact within_definition? hP hs inside s opens found
    split at found
    · split at found
      next parsed match' =>
        cases found
        exact yields_ok (yields_iff.mp (within_matchStatement hP hs inside behind) _ match')
      next => cases found
    · exact within_definition? hP hs inside s opens found

end Compound

/-! ### Statements and blocks -/

section Blocks

variable {depth : Nat} (parsers : ∃ n, src.parsers = nested (n + 1)) (hs : ReadsSuite src depth)

include parsers hs

/-- **Reading a statement comes to the end of a line**, and its nodes stand behind its first token. -/
theorem within_statement (inside : t <:+ src.text) (s : cur.Within (src.frame t blocks))
    (opens : Opens (src.frame src.text blocks) cur.rest) :
    Yields (src.statement (src.suite depth) cur) fun read =>
      ReadNodes src cur.rest blocks read ∧ StartAt src cur.rest read.1 := by
  have hP := keeps_parsers parsers
  have place := s.rest.trans inside
  unfold Source.statement
  split
  next parsed found =>
    refine (within_compound? hP hs place s.here opens found).map fun (n, _) ⟨⟨stands, rests⟩, here⟩ => ?_
    refine ⟨⟨stands_singleton stands, rests⟩, n, [], rfl, here, ?_⟩
    intro words post read spelled ends
    rw [compound?_of_atLiteral (s.atLiteral inside read spelled ends)] at found
    cases found
  next => exact within_lineWithin parsers inside s

/-- Reading the statements of a block ends with the block. -/
theorem within_blockWithin (inside : t <:+ src.text) (s : cur.Rests (src.frame t blocks)) :
    Yields (src.blockWithin (src.suite depth) fuel cur) fun read =>
      ReadNodes src (cur.upcoming { dedent := true, quote := true }) blocks.tail read ∧
        ((cur.next { dedent := true, quote := true }).1 = .dedent ∧ read.1 = [] ∨
          StartAt src (cur.upcoming { dedent := true, quote := true }) read.1) := by
  induction fuel generalizing cur t with
  | zero => exact yields_iff.mpr nofun
  | succ fuel ih =>
    unfold Source.blockWithin
    split
    next dedent =>
      rw [upcoming_of_next dedent, dedent]
      exact yields_ok ⟨⟨nofun, (rests_of_next_dedent s.toWithin rfl dedent).here⟩, .inl ⟨rfl, rfl⟩⟩
    next token found other next =>
      rw [upcoming_of_next next]
      have opens : Opens (src.frame src.text blocks) found.rest :=
        .inr ⟨cur, _, token, found, s.widen inside, ⟨rfl, rfl, .inl rfl⟩, next, other, rfl⟩
      have here : found.Within (src.frame t blocks) :=
        within_of_next s.toWithin next (fun indent => by simpa using (wanted_of_next next).1 indent) other
      have place := here.rest.trans inside
      refine (within_statement parsers hs inside here opens).bind fun (first, cur) ⟨⟨stand, s⟩, begins⟩ =>
        (ih place s).bind fun (others, cur) ⟨more, _⟩ => yields_ok ?_
      obtain ⟨stand', s'⟩ := readNodes_widen more (s.upcoming _)
      obtain ⟨n, later, rfl, statement⟩ := begins
      exact ⟨⟨stands_append stand stand', s'⟩, .inr ⟨n, later ++ others, rfl, statement⟩⟩

end Blocks

/-- **A block closes what it opens**, however deep it is nested. -/
theorem readsSuite (parsers : ∃ n, src.parsers = nested (n + 1)) (depth : Nat) : ReadsSuite src depth := by
  induction depth with
  | zero => exact fun _ _ => yields_iff.mpr nofun
  | succ depth ih =>
    intro t blocks cur inside s
    have enough : cur.rest.length ≤ cur.bound := by rw [s.bound]; exact (s.rest.trans inside).length_le
    unfold Source.suite
    split
    next opened indent =>
      obtain ⟨width, rests⟩ := rests_of_next_indent s indent
      have place := rests.upcoming { dedent := true, quote := true }
      refine (within_blockWithin parsers ih inside rests).bind
        fun (nodes, ended) ⟨⟨stand, rests'⟩, begins⟩ => yields_ok ⟨⟨?_, rests'.widen place⟩, rfl, ?_, ?_⟩
      · exact .mono (stands_node rfl (place.trans inside) stand) place
      · exact begins.imp And.right fun begins => ⟨_, place.trans inside, begins⟩
      · intro ends line margin rest read clean blank token
        obtain ⟨below, -, above, found⟩ := exists_above_of_endsLine ends clean read blank token enough
        rw [indent] at found
        split_ifs at found ⊢ with deeper
        · cases found
          have inner : Cursor.Above (marginWidth 0 margin) rest
              ⟨below, marginWidth 0 margin :: cur.indents, cur.interpolating, cur.bound⟩ :=
            ⟨above.passed, above.skipped⟩
          obtain ⟨next, found, other⟩ := inner.next_of_indents token rfl
          rw [upcoming_of_next found, found] at begins
          exact begins.resolve_left fun ends => other ends.1
        · cases found
    next ended newline =>
      have rests := rests_of_next_newline s newline
      refine yields_ok ⟨⟨?_, rests⟩, rfl, .inl rfl, ?_⟩
      · exact .mono (stands_node rfl (rests.rest.trans inside) (List.forall_mem_nil _)) rests.rest
      · intro ends line margin rest read clean blank token
        obtain ⟨below, -, -, found⟩ := exists_above_of_endsLine ends clean read blank token enough
        rw [newline] at found
        split_ifs at found ⊢
        · cases found
        · rfl
    next token found flat other next =>
      have here : found.Within (src.frame t blocks) :=
        within_of_next s next flat fun dedent => by simpa using (wanted_of_next next).2 dedent
      refine (within_lineWithin parsers inside here).bind
        fun (nodes, cur) ⟨⟨stand, rests⟩, begins⟩ => yields_ok ⟨⟨?_, rests.widen here.rest⟩, rfl, ?_, ?_⟩
      · exact .mono (stands_node rfl (here.rest.trans inside) stand) here.rest
      · exact .inr ⟨_, here.rest.trans inside, begins⟩
      · intro ends line margin rest read clean blank token
        obtain ⟨below, -, -, found⟩ := exists_above_of_endsLine ends clean read blank token enough
        rw [next] at found
        split_ifs at found
        · cases found
          exact absurd rfl flat
        · cases found
          exact absurd rfl other

end SnippetAudit.Python
