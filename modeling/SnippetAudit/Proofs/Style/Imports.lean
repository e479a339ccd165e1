import Mathlib.Algebra.Order.Field.Rat
import Mathlib.Tactic.FieldSimp
import Mathlib.Tactic.NormNum
import SnippetAudit.Proofs.Python.Module
import SnippetAudit.Style.Extract

/-!
How imports are laid out.

The distances between lines are differences of natural numbers, so there are such distances only where the
lines ascend (`totalGap?_eq_some_iff`). Their sum is the distance from the first line to the last, so nothing
else counts but the number of lines (`importLayout_of_ascending`).
-/

namespace SnippetAudit

/-! ### Distances -/

namespace Style

/-- The distance from a number to a later one. There is none to an earlier one. -/
def distance? (a b : Nat) : Option Nat := if a ≤ b then some (b - a) else none

/-- The sum of the distances between neighbours, if there are all these distances. -/
def totalGap? : List Nat → Option Nat
  | a :: b :: rest => (distance? a b).bind fun gap => (totalGap? (b :: rest)).map (gap + ·)
  | _ => some 0

/-- The mean distance between neighbours. -/
def meanGap (ls : List Nat) : ℚ := totalGap ls / (ls.length - 1 : ℕ)

section Gaps

variable {ls : List Nat} {a first last : Nat}

/-- **Each neighbour has a distance exactly if the numbers ascend.** -/
theorem totalGap?_eq_some_iff {total : Nat} :
    totalGap? ls = some total ↔ ls.IsChain (· ≤ ·) ∧ totalGap ls = total := by
  fun_induction totalGap? ls generalizing total with
  | case1 a b rest ih =>
    rw [List.isChain_cons_cons, totalGap, distance?]
    by_cases ordered : a ≤ b
    · rw [if_pos ordered, Option.bind_some, Option.map_eq_some_iff]
      constructor
      · rintro ⟨_, found, rfl⟩
        obtain ⟨chain, rfl⟩ := ih.mp found
        exact ⟨⟨ordered, chain⟩, rfl⟩
      · rintro ⟨⟨-, chain⟩, rfl⟩
        exact ⟨_, ih.mpr ⟨chain, rfl⟩, rfl⟩
    · simp [ordered]
  | case2 ls short =>
    match ls with
    | [] | [_] => simp [totalGap]
    | a :: b :: rest => exact absurd rfl (short a b rest)

/-- The distances between ascending numbers add up to the one from the first to the last. -/
theorem add_totalGap (chain : (a :: ls).IsChain (· ≤ ·)) :
    a + totalGap (a :: ls) = (a :: ls).getLast (List.cons_ne_nil a ls) := by
  induction ls generalizing a with
  | nil => rfl
  | cons b rest ih =>
    rw [List.isChain_cons_cons] at chain
    obtain ⟨ordered, chain⟩ := chain
    calc
      a + totalGap (a :: b :: rest) = a + ((b - a) + totalGap (b :: rest)) := rfl
      _ = b + totalGap (b :: rest) := by omega
      _ = (b :: rest).getLast (List.cons_ne_nil b rest) := ih chain
      _ = (a :: b :: rest).getLast _ := (List.getLast_cons _).symm

theorem add_totalGap_of_ends (chain : ls.IsChain (· ≤ ·)) (head : ls.head? = some first)
    (final : ls.getLast? = some last) : first + totalGap ls = last := by
  obtain ⟨rest, rfl⟩ := List.head?_eq_some_iff.mp head
  rw [add_totalGap chain]
  rw [List.getLast?_eq_some_getLast (List.cons_ne_nil first rest)] at final
  exact Option.some.inj final

/-- Where there are neighbours, imports are grouped if the mean distance is at most two. -/
theorem importLayout_of_two_le (several : 2 ≤ ls.length) :
    importLayout ls = if totalGap ls ≤ 2 * (ls.length - 1) then .grouped else .scattered := by
  match ls with
  | a :: b :: rest => rfl

theorem meanGap_le_two_iff (several : 2 ≤ ls.length) :
    meanGap ls ≤ 2 ↔ totalGap ls ≤ 2 * (ls.length - 1) := by
  have positive : (0 : ℚ) < (ls.length - 1 : ℕ) := by
    rw [Nat.cast_pos]
    omega
  rw [meanGap, div_le_iff₀ positive]
  exact_mod_cast Iff.rfl

end Gaps

/-- **How imports are laid out depends on the first line, the last one and how many there are.** Where the
lines ascend each has a distance to the next, and they are grouped exactly if the mean distance is at most
two, that is, if the distance from the first to the last is at most twice the number of distances. The lines
of the imports of a module do ascend, so they have these distances, and each name that is bound is on one of
them. -/
theorem importLayout_of_ascending :
    (∀ (ls : List Nat) (first last : Nat), ls.Pairwise (· ≤ ·) → 2 ≤ ls.length →
        ls.head? = some first → ls.getLast? = some last →
        totalGap? ls = some (last - first) ∧ first ≤ last ∧
          (meanGap ls ≤ 2 ↔ last - first ≤ 2 * (ls.length - 1)) ∧
          importLayout ls = if last - first ≤ 2 * (ls.length - 1) then .grouped else .scattered) ∧
      (∀ (read : Python.Reader) (code : String) (m : Python.Module), read.parse code = .ok m →
        m.importLines.Pairwise (· ≤ ·) ∧ ∀ b ∈ m.imports, b.line ∈ m.importLines) ∧
      ∀ (read : Python.Reader) (code : String) (m : Python.Module), read.parse code = .ok m →
        pythonImportsBy read code = importLayout m.importLines ∧
          totalGap? m.importLines = some (totalGap m.importLines) := by
  refine ⟨?_, fun read code m => Python.Reader.importLines_of_parse, ?_⟩
  · intro ls first last sorted several head final
    have chain := sorted.isChain
    have ends := add_totalGap_of_ends chain head final
    have total : totalGap ls = last - first := by omega
    rw [meanGap_le_two_iff several, importLayout_of_two_le several, total]
    exact ⟨totalGap?_eq_some_iff.mpr ⟨chain, total⟩, by omega, Iff.rfl, rfl⟩
  · intro read code m parsed
    have ascend := (Python.Reader.importLines_of_parse parsed).1
    refine ⟨?_, totalGap?_eq_some_iff.mpr ⟨ascend.isChain, rfl⟩⟩
    rw [pythonImportsBy, parsed]

/-- Three lines with a mean distance of two and a half; and an import inside a definition, which is found after
the one below it. -/
theorem importLayout_of_nested_import :
    (totalGap? [2, 3, 7] = some (7 - 2) ∧ importLayout [2, 3, 7] = .scattered) ∧
      ∃ m, Python.parse "def f():\n    import b\nimport a" = .ok m ∧
        m.imports = [⟨"a", 3⟩, ⟨"b", 2⟩] ∧ m.importLines.Pairwise (· ≤ ·) ∧
        (∀ b ∈ m.imports, b.line ∈ m.importLines) ∧
        pythonImportsBy Python.readTree "def f():\n    import b\nimport a" =
          importLayout m.importLines := by
  obtain ⟨ends, tree, layout⟩ := importLayout_of_ascending
  obtain ⟨gaps, -, -, scattered⟩ := ends [2, 3, 7] 2 7 (by decide) (by decide) rfl rfl
  refine ⟨⟨gaps, scattered⟩, ?_⟩
  have bound : (Python.parse "def f():\n    import b\nimport a").toOption.map (·.imports) =
      some [⟨"a", 3⟩, ⟨"b", 2⟩] := by
    decide +kernel
  cases parsed : Python.parse "def f():\n    import b\nimport a" with
  | error e =>
    rw [parsed] at bound
    cases bound
  | ok m =>
    rw [parsed] at bound
    obtain ⟨sorted, found⟩ := tree Python.readTree _ m parsed
    exact ⟨m, rfl, Option.some.inj bound, sorted, found, (layout Python.readTree _ m parsed).1⟩

end Style

end SnippetAudit
