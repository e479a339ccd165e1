import SnippetAudit.Proofs.Python.Suite

/-!
Nodes that stand where they say.

The parser of the grammar gives a node the place that it starts reading at, as the rest of the text from there
on. A node stands behind a place if it starts there or further on, and so do all nodes below it, with their
children behind them (`Node.Stands`). Most nodes are made in one way, so one lemma tells when they stand
(`stands_node`).
-/

namespace SnippetAudit.Python

open Text

/-! ### Places -/

section Front

variable {text s t : List Char}

theorem frontOf_append (pre s : List Char) : frontOf (pre ++ s) s = pre := by
  rw [frontOf, List.length_append, Nat.add_sub_cancel, List.take_left]

theorem frontOf_append_self (h : s <:+ text) : frontOf text s ++ s = text := by
  obtain ⟨pre, rfl⟩ := h
  rw [frontOf_append]

/-- What is further on has more in front of it. -/
theorem byteLength_frontOf_le (h : t <:+ text) (inside : s <:+ t) :
    byteLength (frontOf text t) ≤ byteLength (frontOf text s) := by
  obtain ⟨pre, rfl⟩ := h
  obtain ⟨between, rfl⟩ := inside
  rw [frontOf_append, ← List.append_assoc, frontOf_append, byteLength_append]
  exact Nat.le_add_right _ _

end Front

/-- The text of a source. -/
def Source.code (src : Source) : String := String.ofList src.text

/-- A node starts at a rest of the source. -/
def Node.StartsAt (src : Source) (s : List Char) (n : Node) : Prop :=
  n.start = byteLength (frontOf src.text s) ∧ n.row = (frontOf src.text s).count '\n'

/-- A node starts at some place behind another. -/
def Node.In (src : Source) (t : List Char) (n : Node) : Prop := ∃ s, s <:+ t ∧ n.StartsAt src s

section Places

variable {src : Source} {n m : Node} {s t : List Char}

theorem Node.StartsAt.starts (h : n.StartsAt src s) (inside : s <:+ src.text) : n.Starts src.code s := by
  refine ⟨frontOf src.text s, ?_, h.1.symm, h.2.symm⟩
  rw [Source.code, String.toList_ofList, frontOf_append_self inside]

theorem Node.StartsAt.unique {rest : List Char} (h : n.StartsAt src s) (inside : s <:+ src.text)
    (starts : n.Starts src.code rest) : rest = s :=
  starts.unique (h.starts inside)

theorem Node.In.mono (h : n.In src s) (inside : s <:+ t) : n.In src t := by
  obtain ⟨place, behind, starts⟩ := h
  exact ⟨place, behind.trans inside, starts⟩

theorem Node.In.start_le (h : n.In src t) (inside : t <:+ src.text) (starts : m.StartsAt src t) :
    m.start ≤ n.start := by
  obtain ⟨place, behind, here⟩ := h
  rw [starts.1, here.1]
  exact byteLength_frontOf_le inside behind

end Places

/-! ### Trees -/

/-- All nodes of a tree have a property. -/
inductive Node.All (P : Node → Prop) : Node → Prop where
  | node {label : Label} {children : List Node} : P (.node label children) → (∀ n ∈ children, n.All P) →
      Node.All P (.node label children)

section All

variable {P : Node → Prop} {n m root : Node}

theorem Node.All.here (h : n.All P) : P n := by
  cases h with
  | node here _ => exact here

theorem Node.All.child (h : n.All P) (mem : m ∈ n.children) : m.All P := by
  cases h with
  | node _ below => exact below m mem

theorem Node.All.at? {p : List Nat} (h : root.All P) (found : root.at? p = some n) : n.All P := by
  induction p generalizing root with
  | nil => rwa [← Option.some.inj found]
  | cons i p ih =>
    obtain ⟨child, inside, found⟩ := Option.bind_eq_some_iff.mp found
    exact ih (h.child (List.mem_of_getElem? inside)) found

theorem Node.All.of_mem_walk (h : root.All P) (mem : n ∈ root.walk) : P n := by
  obtain ⟨p, found⟩ := mem_walk_iff.mp mem
  exact (h.at? found).here

end All

/-- What the parser keeps to at one node. -/
structure Node.Sound (src : Source) (n : Node) : Prop where
  place : n.In src src.text
  covers : ∀ m ∈ n.children, n.start ≤ m.start
  star : n.kind = "wildcard_import" → n.text? src.code = some "*"
  laidOut : n.isDefinition = true → ∃ top, n.LaidOut src.code top

/-- A node with all nodes below it stands behind a place. -/
structure Node.Stands (src : Source) (t : List Char) (n : Node) : Prop where
  sound : n.All (Node.Sound src)
  place : n.In src t

/-- The kinds of nodes that are no comments and of which no more is known than their places. -/
def ordinary (kind : String) : Bool :=
  kind != "comment" && kind != "wildcard_import" && kind != "function_definition" && kind != "class_definition"

section Stands

variable {src : Source} {n : Node} {ns ms : List Node} {s t start behind : List Char} {kind : String}
  {children : List Node}

theorem Node.Stands.mono (h : n.Stands src s) (inside : s <:+ t) : n.Stands src t :=
  ⟨h.sound, h.place.mono inside⟩

theorem stands_cons (h : n.Stands src t) (hs : ∀ m ∈ ns, m.Stands src t) : ∀ m ∈ n :: ns, m.Stands src t := by
  simpa using ⟨h, hs⟩

theorem stands_singleton (h : n.Stands src t) : ∀ m ∈ [n], m.Stands src t :=
  fun _ mem => List.mem_singleton.mp mem ▸ h

theorem stands_append (hn : ∀ n ∈ ns, n.Stands src t) (hm : ∀ m ∈ ms, m.Stands src t) :
    ∀ m ∈ ns ++ ms, m.Stands src t := by
  intro m mem
  rcases List.mem_append.mp mem with mem | mem
  · exact hn m mem
  · exact hm m mem

theorem ne_of_ordinary (h : ordinary kind = true) : kind ≠ "comment" ∧ kind ≠ "wildcard_import" ∧
    kind ≠ "function_definition" ∧ kind ≠ "class_definition" := by
  simpa [ordinary, and_assoc] using h

theorem isDefinition_iff :
    n.isDefinition = true ↔ n.kind = "function_definition" ∨ n.kind = "class_definition" := by
  simp [Node.isDefinition]

/-- A node of an ordinary kind is sound if it has its children behind it. -/
theorem sound_of_ordinary (h : ordinary n.kind = true) (place : n.In src src.text)
    (covers : ∀ m ∈ n.children, n.start ≤ m.start) : n.Sound src :=
  have ⟨_, star, function, classType⟩ := ne_of_ordinary h
  ⟨place, covers, fun wildcard => absurd wildcard star, fun defines =>
    absurd (isDefinition_iff.mp defines) (not_or.mpr ⟨function, classType⟩)⟩

@[simp] theorem children_node : (src.node kind start behind children).children = children := rfl

theorem startsAt_node : (src.node kind start behind children).StartsAt src start := ⟨rfl, rfl⟩

/-- The text of a node is what is passed from its place up to the one behind it. -/
theorem text?_node {passed : List Char} (inside : passed ++ behind <:+ src.text) :
    (src.node kind (passed ++ behind) behind children).text? src.code = some (String.ofList passed) := by
  obtain ⟨before, whole⟩ := inside
  have start : frontOf src.text (passed ++ behind) = before := by rw [← whole, frontOf_append]
  have stop : frontOf src.text behind = before ++ passed := by
    rw [← whole, ← List.append_assoc, frontOf_append]
  refine Option.map_eq_some_iff.mpr ⟨passed, bytes?_eq_some_iff.mpr ⟨before, behind, ?_, ?_, ?_⟩, rfl⟩
  · rw [Source.code, String.toList_ofList, whole]
  · change byteLength before = byteLength (frontOf src.text (passed ++ behind))
    rw [start]
  · change byteLength passed =
      byteLength (frontOf src.text behind) - byteLength (frontOf src.text (passed ++ behind))
    rw [start, stop, byteLength_append, Nat.add_sub_cancel_left]

/-- **A node stands where it starts**, if its children stand behind it and it is what its kind says. -/
theorem stands_of_kept (inside : start <:+ src.text) (stand : ∀ m ∈ children, m.Stands src start)
    (star : kind = "wildcard_import" → (src.node kind start behind children).text? src.code = some "*")
    (laidOut : kind = "function_definition" ∨ kind = "class_definition" →
      ∃ top, (src.node kind start behind children).LaidOut src.code top) :
    (src.node kind start behind children).Stands src start where
  sound := .node ⟨⟨start, inside, startsAt_node⟩,
    fun m mem => (stand m mem).place.start_le inside startsAt_node, star,
    fun defines => laidOut (isDefinition_iff.mp defines)⟩ fun m mem => (stand m mem).sound
  place := ⟨start, List.suffix_rfl, startsAt_node⟩

/-- A node of an ordinary kind only has to have its children behind it. -/
theorem stands_node (h : ordinary kind = true) (inside : start <:+ src.text)
    (stand : ∀ m ∈ children, m.Stands src start) : (src.node kind start behind children).Stands src start :=
  have ⟨_, star, function, classType⟩ := ne_of_ordinary h
  stands_of_kept inside stand (absurd · star) (absurd · (not_or.mpr ⟨function, classType⟩))

/-- The wildcard of an import is written as a star. -/
theorem stands_wildcard (inside : '*' :: behind <:+ src.text) :
    (src.node "wildcard_import" ('*' :: behind) behind []).Stands src ('*' :: behind) :=
  stands_of_kept inside (List.forall_mem_nil _) (fun _ => @text?_node src behind _ [] ['*'] inside)
    (absurd · (by decide))

theorem stands_token {lexeme : String} (h : ordinary lexeme = true) (inside : start <:+ src.text) :
    (tokenOf src.text lexeme start behind).Stands src start where
  sound := .node (sound_of_ordinary h ⟨start, inside, rfl, rfl⟩ nofun) nofun
  place := ⟨start, List.suffix_rfl, rfl, rfl⟩

@[simp] theorem Node.children_within (n : Node) (field : String) :
    (n.within field).children = n.children := by
  cases n
  rfl

@[simp] theorem Node.kind_within (n : Node) (field : String) : (n.within field).kind = n.kind := by
  cases n
  rfl

@[simp] theorem Node.field_within (n : Node) (field : String) :
    (n.within field).label.field = some field := by
  cases n
  rfl

/-- The field that a node fills says nothing of its place. -/
theorem Node.Stands.within (h : n.Stands src t) (kind : ordinary n.kind = true) (field : String) :
    (n.within field).Stands src t := by
  obtain ⟨sound, place⟩ := h
  cases sound with
  | node here below => exact ⟨.node (sound_of_ordinary kind here.place here.covers) below, place⟩

end Stands

end SnippetAudit.Python
