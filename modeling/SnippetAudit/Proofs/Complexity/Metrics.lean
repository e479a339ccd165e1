import SnippetAudit.Complexity

/-!
Named counts as a map from names.

A count that is set is found under its name, and no other count changes (`get?_set`). So of several
counts with one name the last is found (`get?_ofList`). Counts in the order of their names are kept as
they are (`ofList_entries`).
-/

namespace SnippetAudit.Metrics

/-! ### Looking up -/

theorem lookup_cons_eq (key other : String) (n : Nat) (entries : List (String × Nat)) :
    ((key, n) :: entries).lookup other = if other = key then some n else entries.lookup other := by
  rw [List.lookup_cons]
  by_cases same : other = key
  · rw [beq_iff_eq.mpr same, if_pos same]
  · rw [beq_eq_false_iff_ne.mpr same, if_neg same]

theorem lookup_putIn (name other : String) (n : Nat) (entries : List (String × Nat)) :
    (putIn name n entries).lookup other = if other = name then some n else entries.lookup other := by
  induction entries with
  | nil => exact lookup_cons_eq name other n []
  | cons first entries ih =>
    obtain ⟨key, m⟩ := first
    rw [putIn]
    split
    · exact lookup_cons_eq name other n _
    · split
      next same =>
        subst same
        rw [lookup_cons_eq, lookup_cons_eq]
        by_cases here : other = name
        · rw [if_pos here, if_pos here]
        · rw [if_neg here, if_neg here, if_neg here]
      next different =>
        rw [lookup_cons_eq, lookup_cons_eq, ih]
        by_cases here : other = key
        · have apart : other ≠ name := fun same => different (same.symm.trans here)
          rw [if_pos here, if_neg apart, if_pos here]
        · rw [if_neg here, if_neg here]

/-- **A count that is set is found under its name**, and all others are as before. -/
theorem get?_set (m : Metrics) (name other : String) (n : Nat) :
    (m.set name n).get? other = if other = name then some n else m.get? other :=
  lookup_putIn name other n m.entries

/-- **Of several counts with one name the last is found.** -/
theorem get?_ofList (entries : List (String × Nat)) (name : String) :
    (ofList entries).get? name = entries.reverse.lookup name := by
  have from' : ∀ m : Metrics, (entries.foldl (fun m e => m.set e.1 e.2) m).get? name =
      (entries.reverse.lookup name).or (m.get? name) := by
    induction entries with
    | nil => exact fun m => (Option.none_or).symm
    | cons e entries ih =>
      intro m
      rw [List.foldl_cons, ih, get?_set, List.reverse_cons, List.lookup_append, Option.or_assoc,
        lookup_cons_eq]
      by_cases here : name = e.1
      · rw [if_pos here, if_pos here, Option.some_or]
      · rw [if_neg here, if_neg here, List.lookup_nil, Option.none_or]
  exact (from' empty).trans (Option.or_none)

/-- A name that is not given has no count. -/
theorem get?_ofList_eq_none {name : String} {entries : List (String × Nat)}
    (unnamed : ∀ e ∈ entries, e.1 ≠ name) : (ofList entries).get? name = none := by
  rw [get?_ofList, List.lookup_eq_none_iff]
  exact fun e mem => bne_iff_ne.mpr (unnamed e (List.mem_reverse.mp mem)).symm

/-! ### Counts in the order of their names -/

/-- A name behind all others is put at the end. -/
theorem putIn_of_below {name : String} {n : Nat} {entries : List (String × Nat)}
    (below : ∀ e ∈ entries, e.1 < name) : putIn name n entries = entries ++ [(name, n)] := by
  induction entries with
  | nil => rfl
  | cons first rest ih =>
    obtain ⟨other, m⟩ := first
    have less : other < name := below (other, m) List.mem_cons_self
    have different : name ≠ other := by
      rintro rfl
      exact String.lt_irrefl name less
    rw [putIn, if_neg (String.lt_asymm less), if_neg different,
      ih fun e mem => below e (List.mem_cons_of_mem _ mem)]
    rfl

theorem entries_foldl_set {m : Metrics} {entries : List (String × Nat)}
    (ascending : (m.entries ++ entries).Pairwise (·.1 < ·.1)) :
    (entries.foldl (fun m e => m.set e.1 e.2) m).entries = m.entries ++ entries := by
  induction entries generalizing m with
  | nil => rw [List.append_nil]; rfl
  | cons e entries ih =>
    have below : ∀ e' ∈ m.entries, e'.1 < e.1 := fun e' mem =>
      (List.pairwise_append.mp ascending).2.2 e' mem e List.mem_cons_self
    have next : (m.set e.1 e.2).entries = m.entries ++ [e] := putIn_of_below below
    have whole : (m.set e.1 e.2).entries ++ entries = m.entries ++ e :: entries := by
      rw [next, List.append_assoc, List.singleton_append]
    rw [List.foldl_cons, ih (by rwa [whole]), whole]

theorem eq_of_entries_eq {m m' : Metrics} (same : m.entries = m'.entries) : m = m' := by
  cases m
  cases m'
  cases same
  rfl

/-- Counts in the order of their names are kept as they are. -/
theorem ofList_entries (m : Metrics) : ofList m.entries = m :=
  eq_of_entries_eq (entries_foldl_set (m := empty) (by simpa [empty] using m.ascending))

end SnippetAudit.Metrics
