import SnippetAudit.Proofs.Python.Compound
import SnippetAudit.Python.Grammar

/-!
What the reader for the grammar keeps to.

A tree without a fault is what the statements of the text are read as, to its end. So all its nodes stand where
they say (`sites_readTree`), and definitions are laid out by the rules on indentation (`laysOut_readTree`).
-/

namespace SnippetAudit.Python

open Source

section Whole

variable {src : Source} {cur : Cursor} {fuel : Nat} {blocks : List Nat} {t : List Char}
  (parsers : ∃ n, src.parsers = nested (n + 1))

include parsers

/-- In front of the statements of a module no block is open. -/
theorem stands_of_moduleWithin (inside : t <:+ src.text) (s : cur.Within (src.frame t blocks))
    (flat : ∀ width ∈ blocks, width = 0) :
    Yields (src.moduleWithin fuel cur) fun nodes => ∀ n ∈ nodes, n.Stands src t := by
  induction fuel generalizing cur blocks with
  | zero => exact yields_iff.mpr nofun
  | succ fuel ih =>
    unfold Source.moduleWithin
    split
    next => exact yields_ok nofun
    next token found _ next =>
      have other : token ≠ .indent := fun indent => by simpa using (wanted_of_next next).1 indent
      obtain ⟨blocks, flat, s⟩ : ∃ blocks : List Nat, (∀ width ∈ blocks, width = 0) ∧
          found.Within (src.frame t blocks) := by
        rcases within_or_of_next s next other with s | s
        · exact ⟨blocks, flat, s⟩
        · exact ⟨blocks.tail, fun width mem => flat width (List.mem_of_mem_tail mem), s⟩
      have opens : Opens (src.frame src.text blocks) found.rest := .inl (by
        cases blocks with
        | nil => rfl
        | cons width _ => exact flat width List.mem_cons_self)
      refine (within_statement parsers (readsSuite parsers _) inside s opens).bind fun _ ⟨first, _⟩ => ?_
      have first := readNodes_widen first s.rest
      exact (ih first.2.toWithin flat).bind fun _ others => yields_ok (stands_append first.1 others)

/-- **All nodes of the tree of a text are sound.** -/
theorem sound_of_tree : Yields src.tree (Node.All (Node.Sound src)) :=
  have start : (Cursor.start src.text).Within (src.frame src.text [0]) :=
    ⟨List.suffix_rfl, rfl, rfl, fun _ => rfl⟩
  (stands_of_moduleWithin parsers List.suffix_rfl start (by simp)).bind fun _ nodes =>
    yields_ok (Node.Stands.sound (stands_node rfl List.suffix_rfl nodes))

end Whole

/-! ### The reader -/

theorem isFlawed_faultNode (source : List Char) (fault : Fault) : (fault.node source).isFlawed = true := by
  unfold Fault.node
  extract_lets
  split_ifs <;> rfl

theorem mem_preorders {ns : List Node} {n : Node} (mem : n ∈ ns) : n ∈ Node.preorders ns := by
  induction ns with
  | nil => cases mem
  | cons m ns ih =>
    rw [Node.preorders, List.mem_append]
    rcases List.mem_cons.mp mem with rfl | mem
    · cases n with
      | node label children => exact .inl List.mem_cons_self
    · exact .inr (ih mem)

theorem hasError_of_mem_children {root n : Node} (mem : n ∈ root.children) (flawed : n.isFlawed = true) :
    root.hasError = true := by
  cases root with
  | node label children =>
    exact List.any_eq_true.mpr ⟨n, List.mem_cons_of_mem _ (mem_preorders mem), flawed⟩

variable {code : String} {root : Node}

/-- **The tree of a module has no node for a fault**, so it is what the statements are read as. -/
theorem sound_of_readTree (tree : Reader.tree readTree code = .ok root) :
    root.All (Node.Sound (.ofText code.toList)) := by
  obtain ⟨read, clean, -⟩ := Reader.tree_eq_ok_iff.mp tree
  obtain rfl := Except.ok.inj read
  split at clean
  next root answer =>
    exact yields_iff.mp (sound_of_tree ⟨_, rfl⟩) _ answer
  next fault _ =>
    rw [hasError_of_mem_children List.mem_cons_self (isFlawed_faultNode _ fault)] at clean
    cases clean

theorem code_ofText (code : String) : (Source.ofText code.toList).code = code := String.ofList_toList

/-- **Nodes have their places.** -/
theorem sites_readTree : Reader.Sites readTree where
  starts code root tree n mem := by
    obtain ⟨s, inside, starts⟩ := ((sound_of_readTree tree).of_mem_walk mem).place
    exact ⟨s, code_ofText code ▸ starts.starts inside⟩
  covers code root tree n mem := ((sound_of_readTree tree).of_mem_walk mem).covers
  star code root tree n mem wildcard := by
    have star := ((sound_of_readTree tree).of_mem_walk mem).star wildcard
    rwa [code_ofText] at star

end SnippetAudit.Python
