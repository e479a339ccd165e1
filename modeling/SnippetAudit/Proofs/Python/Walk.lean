import Mathlib.Data.List.Flatten
import Mathlib.Logic.Function.Iterate
import SnippetAudit.Proofs.Python.Module
import SnippetAudit.Python.Grammar

/-!
The walk over a syntax tree.

The walk is a loop over a queue. Behind the rest of a level the queue holds the beginning of the next one, so
the nodes come out level by level (`visit_append`, `visit_eq_levels`). A turn of the loop takes one node away
and puts the nodes below it in, so the number of nodes that are left falls by one (`sizes_turn`), and the loop
ends.

Equal trees may stand at several places of one tree. So nodes are told apart by their positions: the numbers of
the children on the way down from the root. The positions of a level in order (`positions`) make up the walk,
and whatever is read off the nodes of a walk comes in this order (`walk_levelOrder`).
-/

namespace SnippetAudit.Python

namespace Node

/-! ### Levels -/

/-- The nodes so many levels below those of a list, from left to right. -/
def level : Nat → List Node → List Node
  | 0, ns => ns
  | d + 1, ns => level d (ns.flatMap children)

variable {fuel : Nat} {ns queue : List Node}

theorem level_append (d : Nat) (ms ns : List Node) : level d (ms ++ ns) = level d ms ++ level d ns := by
  induction d generalizing ms ns with
  | zero => rfl
  | succ d ih => rw [level, List.flatMap_append, ih, level, level]

/-- A level of several trees is made of the levels of each. -/
theorem level_eq_flatMap (d : Nat) (ns : List Node) : level d ns = ns.flatMap fun n => level d [n] := by
  induction ns with
  | nil =>
    induction d with
    | zero => rfl
    | succ d ih => exact ih
  | cons n ns ih => rw [← List.singleton_append, level_append, ih, List.singleton_append, List.flatMap_cons]

theorem sizes_append (ms ns : List Node) : sizes (ms ++ ns) = sizes ms + sizes ns := by
  induction ms with
  | nil => simp [sizes]
  | cons m ms ih => rw [List.cons_append, sizes, ih, sizes, Nat.add_assoc]

theorem size_eq (n : Node) : n.size = sizes n.children + 1 := by
  cases n
  rw [size, children]

theorem sizes_singleton (n : Node) : sizes [n] = n.size := by
  rw [sizes, sizes, Nat.add_zero]

/-- Some trees are their roots and what is below. -/
theorem sizes_eq (ns : List Node) : sizes ns = ns.length + sizes (ns.flatMap children) := by
  induction ns with
  | nil => rfl
  | cons n ns ih =>
    rw [sizes, ih, size_eq, List.flatMap_cons, sizes_append, List.length_cons]
    omega

theorem size_le_of_mem {n : Node} (mem : n ∈ ns) : n.size ≤ sizes ns := by
  induction ns with
  | nil => cases mem
  | cons m ns ih =>
    rw [sizes]
    rcases List.mem_cons.mp mem with rfl | mem
    · exact Nat.le_add_right _ _
    · exact Nat.le_trans (ih mem) (Nat.le_add_left _ _)

/-- **What stands in front of the queue is taken first, and what is below it comes in behind the rest.** -/
theorem visit_append (ns rest : List Node) (fuel : Nat) :
    visit (ns.length + fuel) (ns ++ rest) = ns ++ visit fuel (rest ++ ns.flatMap children) := by
  induction ns generalizing rest with
  | nil => simp
  | cons n ns ih =>
    calc
      visit ((n :: ns).length + fuel) (n :: ns ++ rest)
        = visit (ns.length + fuel + 1) (n :: (ns ++ rest)) := by
          rw [List.length_cons, Nat.add_right_comm, List.cons_append]
      _ = n :: visit (ns.length + fuel) (ns ++ (rest ++ n.children)) := by
          rw [visit, List.append_assoc]
      _ = n :: (ns ++ visit fuel (rest ++ n.children ++ ns.flatMap children)) := by rw [ih]
      _ = n :: ns ++ visit fuel (rest ++ (n :: ns).flatMap children) := by
          rw [List.flatMap_cons, List.append_assoc, List.cons_append]

/-- **A queue that holds a level is left level by level.** No tree has more levels than nodes. -/
theorem visit_eq_levels {levels : Nat} (enough : sizes ns ≤ fuel) (most : sizes ns ≤ levels) :
    visit fuel ns = (List.range levels).flatMap fun d => level d ns := by
  induction levels generalizing ns fuel with
  | zero =>
    have empty : ns = [] := by
      have := sizes_eq ns
      exact List.length_eq_zero_iff.mp (by omega)
    subst empty
    cases fuel <;> rfl
  | succ levels ih =>
    have counted := sizes_eq ns
    have fewer : sizes (ns.flatMap children) ≤ levels := by
      cases ns with
      | nil => exact Nat.zero_le levels
      | cons n ns =>
        rw [List.length_cons] at counted
        omega
    obtain ⟨left, rfl⟩ : ∃ left, fuel = ns.length + left := Nat.exists_eq_add_of_le (by omega)
    have first := visit_append ns [] left
    rw [List.append_nil, List.nil_append] at first
    rw [first, ih (by omega) fewer, List.range_succ_eq_map, List.flatMap_cons, List.flatMap_map]
    rfl

/-! ### The loop -/

/-- One turn of the loop: a node is taken from the front of the queue, and its children are put in at the
back. -/
def turn : List Node → List Node
  | [] => []
  | n :: queue => queue ++ n.children

/-- **Each turn leaves one node less.** -/
theorem sizes_turn (queue : List Node) : sizes (turn queue) = sizes queue - 1 := by
  cases queue with
  | nil => rfl
  | cons n queue =>
    rw [turn, sizes_append, sizes, size_eq]
    omega

theorem sizes_iterate_turn (k : Nat) (queue : List Node) : sizes (turn^[k] queue) = sizes queue - k := by
  induction k generalizing queue with
  | zero => rfl
  | succ k ih =>
    rw [Function.iterate_succ_apply, ih, sizes_turn]
    omega

/-- The loop has ended as soon as it had a turn for each node. -/
theorem iterate_turn_eq_nil_iff (k : Nat) (queue : List Node) : turn^[k] queue = [] ↔ sizes queue ≤ k := by
  have left := sizes_iterate_turn k queue
  constructor
  · intro ended
    rw [ended, sizes] at left
    omega
  · intro enough
    have counted := sizes_eq (turn^[k] queue)
    exact List.length_eq_zero_iff.mp (by omega)

/-- The node that is listed for a turn is the one in front of the queue. -/
theorem getElem?_visit (k fuel : Nat) (queue : List Node) :
    (visit fuel queue)[k]? = if k < fuel then (turn^[k] queue).head? else none := by
  induction fuel generalizing k queue with
  | zero => simp [visit]
  | succ fuel ih =>
    cases queue with
    | nil =>
      have ended : turn^[k] [] = [] := (iterate_turn_eq_nil_iff k []).mpr (Nat.zero_le k)
      simp [visit, ended]
    | cons n queue =>
      cases k with
      | zero => simp [visit]
      | succ k =>
        rw [visit, List.getElem?_cons_succ, ih, Function.iterate_succ_apply, turn]
        simp only [Nat.add_lt_add_iff_right]

theorem getElem?_walk (root : Node) (k : Nat) : root.walk[k]? = (turn^[k] [root]).head? := by
  rw [walk, getElem?_visit]
  split
  · rfl
  next late =>
    have ended : turn^[k] [root] = [] :=
      (iterate_turn_eq_nil_iff k [root]).mpr (by rw [sizes_singleton]; omega)
    rw [ended, List.head?_nil]

/-! ### Positions -/

/-- The node at a position. -/
def at? : Node → List Nat → Option Node
  | n, [] => some n
  | n, i :: p => n.children[i]?.bind fun m => at? m p

/-- The positions of a level, from left to right. -/
def positions : Nat → Node → List (List Nat)
  | 0, _ => [[]]
  | d + 1, n => n.children.zipIdx.flatMap fun m => (positions d m.1).map (m.2 :: ·)

/-- All positions, level by level. -/
def allPositions (root : Node) : List (List Nat) := (List.range root.size).flatMap fun d => positions d root

/-- One position comes before another: on a level further up, or on the same level further left. Positions of
one level are compared by the first number in which they differ. -/
def Earlier (p q : List Nat) : Prop := p.length < q.length ∨ p.length = q.length ∧ p < q

theorem Earlier.ne {p q : List Nat} (earlier : Earlier p q) : p ≠ q := by
  rintro rfl
  rcases earlier with up | ⟨-, left⟩
  · exact Nat.lt_irrefl _ up
  · exact List.lt_irrefl p left

theorem earlier_append {p q : List Nat} (below : q ≠ []) : Earlier p (p ++ q) := by
  have longer := List.length_pos_of_ne_nil below
  exact .inl (by rw [List.length_append]; omega)

theorem mem_positions_iff {d : Nat} {n : Node} {p : List Nat} :
    p ∈ positions d n ↔ p.length = d ∧ (n.at? p).isSome := by
  induction d generalizing n p with
  | zero =>
    rw [positions, List.mem_singleton, List.length_eq_zero_iff]
    constructor
    · rintro rfl
      exact ⟨rfl, rfl⟩
    · exact And.left
  | succ d ih =>
    rw [positions, List.mem_flatMap]
    constructor
    · rintro ⟨⟨m, i⟩, child, mem⟩
      obtain ⟨q, inside, rfl⟩ := List.mem_map.mp mem
      obtain ⟨long, some⟩ := ih.mp inside
      have here : n.children[i]? = .some m := List.mk_mem_zipIdx_iff_getElem?.mp child
      refine ⟨by rw [List.length_cons, long], ?_⟩
      rw [at?, here]
      exact some
    · rintro ⟨long, some⟩
      cases p with
      | nil => cases long
      | cons i q =>
        rw [at?] at some
        cases here : n.children[i]? with
        | none =>
          rw [here] at some
          cases some
        | some m =>
          rw [here] at some
          have inside : q ∈ positions d m := ih.mpr ⟨Nat.succ.inj long, some⟩
          exact ⟨(m, i), List.mk_mem_zipIdx_iff_getElem?.mpr here, List.mem_map_of_mem inside⟩

/-- **The nodes of a level stand at its positions.** -/
theorem map_at?_positions (d : Nat) (n : Node) : (positions d n).map n.at? = (level d [n]).map some := by
  induction d generalizing n with
  | zero => rfl
  | succ d ih =>
    have below : level (d + 1) [n] = n.children.flatMap fun m => level d [m] := by
      rw [level, List.flatMap_singleton, level_eq_flatMap]
    have child (m : Node × Nat) (mem : m ∈ n.children.zipIdx) :
        ((positions d m.1).map (m.2 :: ·)).map n.at? = (level d [m.1]).map some := by
      have here : n.children[m.2]? = some m.1 := List.mk_mem_zipIdx_iff_getElem?.mp mem
      rw [← ih m.1, List.map_map]
      refine List.map_congr_left fun p _ => ?_
      rw [Function.comp_apply, at?, here, Option.bind_some]
    calc
      (positions (d + 1) n).map n.at?
        = n.children.zipIdx.flatMap fun m => ((positions d m.1).map (m.2 :: ·)).map n.at? := by
          rw [positions, List.map_flatMap]
      _ = n.children.zipIdx.flatMap fun m => (level d [m.1]).map some := List.flatMap_congr child
      _ = (n.children.zipIdx.map Prod.fst).flatMap fun m => (level d [m]).map some := by
          rw [List.flatMap_map]
      _ = (level (d + 1) [n]).map some := by
          rw [List.zipIdx_map_fst, below, List.map_flatMap]

/-- The positions of a level ascend. -/
theorem pairwise_positions (d : Nat) (n : Node) : (positions d n).Pairwise (· < ·) := by
  induction d generalizing n with
  | zero => exact List.pairwise_singleton _ _
  | succ d ih =>
    rw [positions, List.pairwise_flatMap]
    constructor
    · intro m _
      rw [List.pairwise_map]
      exact (ih m.1).imp fun less => List.cons_lt_cons_iff.mpr (.inr ⟨rfl, less⟩)
    · have numbered : (n.children.zipIdx.map Prod.snd).Pairwise (· < ·) := by
        rw [List.zipIdx_map_snd]
        exact List.pairwise_lt_range'
      refine (List.pairwise_map.mp numbered).imp ?_
      intro a b less p inA q inB
      obtain ⟨p, -, rfl⟩ := List.mem_map.mp inA
      obtain ⟨q, -, rfl⟩ := List.mem_map.mp inB
      exact List.cons_lt_cons_iff.mpr (.inl less)

/-- There are at least as many nodes as levels. -/
theorem length_add_size_le {n m : Node} {p : List Nat} (here : n.at? p = some m) :
    p.length + m.size ≤ n.size := by
  induction p generalizing n with
  | nil =>
    cases here
    exact Nat.le_of_eq (Nat.zero_add _)
  | cons i p ih =>
    rw [at?] at here
    obtain ⟨k, child, here⟩ := Option.bind_eq_some_iff.mp here
    have deeper := ih here
    have part := size_le_of_mem (List.mem_of_getElem? child)
    rw [List.length_cons, size_eq n]
    omega

section Order

variable (root : Node)

theorem mem_allPositions_iff {p : List Nat} : p ∈ root.allPositions ↔ (root.at? p).isSome := by
  rw [allPositions, List.mem_flatMap]
  constructor
  · rintro ⟨d, -, mem⟩
    exact (mem_positions_iff.mp mem).2
  · intro some
    obtain ⟨m, here⟩ := Option.isSome_iff_exists.mp some
    have short := length_add_size_le here
    rw [size_eq] at short
    exact ⟨p.length, List.mem_range.mpr (by omega), mem_positions_iff.mpr ⟨rfl, some⟩⟩

theorem pairwise_allPositions : root.allPositions.Pairwise Earlier := by
  rw [allPositions, List.pairwise_flatMap]
  constructor
  · intro d _
    refine (pairwise_positions d root).imp_of_mem ?_
    intro p q inP inQ less
    exact .inr ⟨(mem_positions_iff.mp inP).1.trans (mem_positions_iff.mp inQ).1.symm, less⟩
  · refine List.pairwise_lt_range.imp ?_
    intro d e less p inP q inQ
    rw [← (mem_positions_iff.mp inP).1, ← (mem_positions_iff.mp inQ).1] at less
    exact .inl less

theorem nodup_allPositions : root.allPositions.Nodup :=
  root.pairwise_allPositions.imp Earlier.ne

/-- **The walk takes the nodes at all positions, level by level.** -/
theorem map_at?_allPositions : root.allPositions.map root.at? = root.walk.map some := by
  have one : sizes [root] ≤ root.size := Nat.le_of_eq (sizes_singleton root)
  rw [walk, visit_eq_levels one one, allPositions, List.map_flatMap, List.map_flatMap]
  exact List.flatMap_congr fun d _ => map_at?_positions d root

end Order

theorem mem_walk_iff {root n : Node} : n ∈ root.walk ↔ ∃ p, root.at? p = some n := by
  have same : n ∈ root.walk ↔ some n ∈ root.allPositions.map root.at? := by
    rw [map_at?_allPositions, List.mem_map]
    simp
  rw [same, List.mem_map]
  constructor
  · rintro ⟨p, -, here⟩
    exact ⟨p, here⟩
  · rintro ⟨p, here⟩
    exact ⟨p, root.mem_allPositions_iff.mpr (by rw [here]; rfl), here⟩

end Node

/-! ### What a walk reads -/

section Reading

open Node

variable {α : Type} {code : String} {root : Node} {p q : List Nat}

theorem Node.at?_append (n : Node) (p q : List Nat) : n.at? (p ++ q) = (n.at? p).bind fun m => m.at? q := by
  induction p generalizing n with
  | nil => rfl
  | cons i p ih =>
    rw [List.cons_append, at?, at?, Option.bind_assoc]
    exact congrArg _ (funext fun m => ih m)

/-- A walk takes the children of each node that it takes. -/
theorem Node.mem_walk_of_mem_children {n m : Node} (mem : n ∈ root.walk) (child : m ∈ n.children) :
    m ∈ root.walk := by
  obtain ⟨p, here⟩ := mem_walk_iff.mp mem
  obtain ⟨i, below⟩ := List.getElem?_of_mem child
  refine mem_walk_iff.mpr ⟨p ++ [i], ?_⟩
  rw [at?_append, here, Option.bind_some, at?, below]
  rfl

/-- Where there is a node, there is one at each position on the way to it. -/
theorem Node.isSome_at?_of_append (here : (root.at? (p ++ q)).isSome) : (root.at? p).isSome := by
  rw [at?_append] at here
  exact Option.isSome_of_isSome_bind here

/-- **A node comes after those that it is in.** -/
theorem Node.sublist_allPositions (here : (root.at? (p ++ q)).isSome) (below : q ≠ []) :
    [p, p ++ q].Sublist root.allPositions := by
  have order := root.pairwise_allPositions
  obtain ⟨front, rest, split⟩ := List.append_of_mem (root.mem_allPositions_iff.mpr here)
  have outer : p ∈ front := by
    have mem := root.mem_allPositions_iff.mpr (isSome_at?_of_append here)
    rw [split, List.pairwise_append, List.pairwise_cons] at order
    rw [split, List.mem_append, List.mem_cons] at mem
    rcases mem with inFront | same | inRest
    · exact inFront
    · exact absurd same (earlier_append below).ne
    · -- The inner node is further down, so the outer one cannot follow it.
      have later := order.2.1.1 p inRest
      have longer := List.length_pos_of_ne_nil below
      rcases later with up | ⟨level, -⟩
      · rw [List.length_append] at up
        omega
      · rw [List.length_append] at level
        omega
  rw [split]
  exact (List.singleton_sublist.mpr outer).append (List.singleton_sublist.mpr List.mem_cons_self)

/-- What is read node by node is read position by position. -/
theorem read_walk {read : List Node → List α} (none : read [] = [])
    (additive : ∀ ms ns, read (ms ++ ns) = read ms ++ read ns) (root : Node) :
    read root.walk = root.allPositions.flatMap fun p => read (root.at? p).toList := by
  have nodes : root.walk = root.allPositions.flatMap fun p => (root.at? p).toList := by
    calc
      root.walk = (root.walk.map some).flatMap Option.toList := by
        rw [List.flatMap_map]
        exact (List.flatMap_singleton' root.walk).symm
      _ = (root.allPositions.map root.at?).flatMap Option.toList := by rw [map_at?_allPositions]
      _ = root.allPositions.flatMap fun p => (root.at? p).toList := List.flatMap_map ..
  rw [nodes]
  induction root.allPositions with
  | nil => exact none
  | cons p ps ih => rw [List.flatMap_cons, additive, ih, List.flatMap_cons]

theorem definitionsOf_append (ms ns : List Node) :
    definitionsOf code (ms ++ ns) = definitionsOf code ms ++ definitionsOf code ns := by
  rw [definitionsOf, List.filter_append, List.filterMap_append]
  rfl

theorem importLinesOf_append (ms ns : List Node) :
    importLinesOf (ms ++ ns) = importLinesOf ms ++ importLinesOf ns := by
  rw [importLinesOf, List.filter_append, List.map_append]
  rfl

theorem importBindings_append (ms ns : List Node) :
    importBindings code (ms ++ ns) = importBindings code ms ++ importBindings code ns := by
  rw [importBindings, List.filter_append, List.flatMap_append]
  rfl

/-- A node makes at most one definition. -/
theorem definitionsOf_eq_singleton {n : Option Node} {d : Definition}
    (mem : d ∈ definitionsOf code n.toList) : definitionsOf code n.toList = [d] := by
  cases n with
  | none => cases mem
  | some n =>
    rw [Option.toList_some] at mem ⊢
    cases found : definitionsOf code [n] with
    | nil =>
      rw [found] at mem
      cases mem
    | cons e es =>
      have most : (definitionsOf code [n]).length ≤ 1 :=
        (List.length_filterMap_le _ _).trans (List.length_filter_le _ _)
      rw [found, List.length_cons] at most
      have alone : es = [] := List.length_eq_zero_iff.mp (by omega)
      rw [found, alone, List.mem_singleton] at mem
      rw [alone, mem]

/-- Positions of the nodes of a tree, in the order in which a walk takes them. -/
structure LevelOrder (root : Node) (ps : List (List Nat)) : Prop where
  nodes : ps.map root.at? = root.walk.map some
  /-- Each node is taken once. -/
  once : ∀ p, ps.count p = if (root.at? p).isSome then 1 else 0
  /-- The walk goes level by level, and each level from left to right. -/
  order : ps.Pairwise Earlier
  /-- A node is taken before its children. -/
  parent : ∀ p i, (root.at? (p ++ [i])).isSome → [p, p ++ [i]].Sublist ps

/-- What a module imports and defines is read off its nodes one by one, so nothing is lost or listed twice. -/
structure ReadAlong (code : String) (root : Node) (ps : List (List Nat)) : Prop where
  imports : (root.toModule code).imports = ps.flatMap fun p => importBindings code (root.at? p).toList
  importLines : (root.toModule code).importLines.Perm (ps.flatMap fun p => importLinesOf (root.at? p).toList)
  definitions : (root.toModule code).definitions = ps.flatMap fun p => definitionsOf code (root.at? p).toList
  /-- A definition stands in front of those that are nested in it. -/
  nested : ∀ p q d e, q ≠ [] → d ∈ definitionsOf code (root.at? p).toList →
    e ∈ definitionsOf code (root.at? (p ++ q)).toList → [d, e].Sublist (root.toModule code).definitions

theorem levelOrder_allPositions (root : Node) : LevelOrder root root.allPositions where
  nodes := root.map_at?_allPositions
  once p := by
    rw [root.nodup_allPositions.count]
    simp only [mem_allPositions_iff]
  order := root.pairwise_allPositions
  parent p i here := sublist_allPositions here (List.cons_ne_nil i [])

theorem readAlong_allPositions (code : String) (root : Node) : ReadAlong code root root.allPositions := by
  have definitions : (root.toModule code).definitions =
      root.allPositions.flatMap fun p => definitionsOf code (root.at? p).toList :=
    read_walk rfl definitionsOf_append root
  have lines : importLinesOf root.walk =
      root.allPositions.flatMap fun p => importLinesOf (root.at? p).toList :=
    read_walk rfl importLinesOf_append root
  refine ⟨read_walk rfl importBindings_append root, lines ▸ perm_ascending _, definitions, ?_⟩
  intro p q d e below outer inner
  have here : (root.at? (p ++ q)).isSome := by
    cases found : root.at? (p ++ q) with
    | none =>
      rw [found] at inner
      cases inner
    | some n => rfl
  have order := (sublist_allPositions here below).flatMap fun p => definitionsOf code (root.at? p).toList
  rw [List.flatMap_cons, List.flatMap_singleton, definitionsOf_eq_singleton outer,
    definitionsOf_eq_singleton inner] at order
  rw [definitions]
  exact order

/-- **The walk ends, takes each node once, and goes level by level.** The loop is over after as many turns as
there are nodes, and the node that is listed for a turn is the one that the turn takes. -/
theorem walk_levelOrder (root : Node) :
    (∀ k, turn^[k] [root] = [] ↔ root.size ≤ k) ∧ (∀ k, root.walk[k]? = (turn^[k] [root]).head?) ∧
      ∃ ps, LevelOrder root ps ∧ ∀ code, ReadAlong code root ps := by
  refine ⟨fun k => ?_, getElem?_walk root, root.allPositions, levelOrder_allPositions root,
    fun code => readAlong_allPositions code root⟩
  rw [iterate_turn_eq_nil_iff, sizes_singleton]

/-- The definitions of one level come before those that are nested in them. -/
example :
    let code := "def outer():\n    def inner():\n        pass\n    return inner\n\nclass Later:\n    pass\n"
    (parse code).toOption.map (fun m => m.definitions.map (·.name)) = some ["outer", "Later", "inner"] := by
  decide +kernel

end Reading

end SnippetAudit.Python
