import SnippetAudit.Text.Slice

/-!
Byte offsets as places between characters.

An offset is between two characters of a text exactly if the text has a beginning with so many bytes
(`splitBytes?_eq_some_iff`), and no text has two beginnings with the same number of bytes
(`append_inj_of_byteLength`). So a range of bytes that is a text stands behind one beginning and in front of
one end (`bytes?_eq_some_iff`).
-/

namespace SnippetAudit.Text

theorem byteLength_cons (c : Char) (s : List Char) : byteLength (c :: s) = c.utf8Size + byteLength s := rfl

theorem byteLength_append (s t : List Char) : byteLength (s ++ t) = byteLength s + byteLength t := by
  induction s with
  | nil => exact (Nat.zero_add _).symm
  | cons c s ih => rw [List.cons_append, byteLength_cons, byteLength_cons, ih, Nat.add_assoc]

theorem length_le_byteLength (s : List Char) : s.length ≤ byteLength s := by
  induction s with
  | nil => exact Nat.le_refl _
  | cons c s ih =>
    have wide : 0 < c.utf8Size := c.utf8Size_pos
    rw [List.length_cons, byteLength_cons]
    omega

variable {s before before' behind behind' : List Char} {n start stop : Nat}

/-- A text has one beginning with so many bytes. -/
theorem append_inj_of_byteLength (same : before ++ behind = before' ++ behind')
    (bytes : byteLength before = byteLength before') : before = before' ∧ behind = behind' := by
  induction before generalizing before' with
  | nil =>
    cases before' with
    | nil => exact ⟨rfl, same⟩
    | cons c before' =>
      have wide : 0 < c.utf8Size := c.utf8Size_pos
      rw [byteLength_cons] at bytes
      change 0 = _ at bytes
      omega
  | cons c before ih =>
    cases before' with
    | nil =>
      have wide : 0 < c.utf8Size := c.utf8Size_pos
      rw [byteLength_cons] at bytes
      change _ = 0 at bytes
      omega
    | cons c' before' =>
      obtain ⟨rfl, rest⟩ := List.cons.inj same
      rw [byteLength_cons, byteLength_cons] at bytes
      obtain ⟨rfl, rfl⟩ := ih rest (Nat.add_left_cancel bytes)
      exact ⟨rfl, rfl⟩

theorem splitBytes?_byteLength (before behind : List Char) :
    splitBytes? (byteLength before) (before ++ behind) = some (before, behind) := by
  induction before with
  | nil => cases behind <;> rfl
  | cons c before ih =>
    have wide : 0 < c.utf8Size := c.utf8Size_pos
    obtain ⟨n, some⟩ : ∃ n, c.utf8Size + byteLength before = n + 1 :=
      Nat.exists_eq_add_of_le' (Nat.le_trans wide (Nat.le_add_right _ _))
    rw [byteLength_cons, some, List.cons_append, splitBytes?, ← some, if_pos (Nat.le_add_right _ _),
      Nat.add_sub_cancel_left, ih, Option.map_some]

/-- **A text is split at an offset where it has a beginning with so many bytes.** -/
theorem splitBytes?_eq_some_iff :
    splitBytes? n s = some (before, behind) ↔ s = before ++ behind ∧ byteLength before = n := by
  constructor
  · intro split
    fun_induction splitBytes? n s generalizing before behind with
    | case1 s =>
      cases split
      exact ⟨rfl, rfl⟩
    | case2 => cases split
    | case3 n c s fits ih =>
      obtain ⟨⟨front, rest⟩, found, same⟩ := Option.map_eq_some_iff.mp split
      cases same
      obtain ⟨rfl, bytes⟩ := ih found
      exact ⟨rfl, by rw [byteLength_cons, bytes, Nat.add_sub_of_le fits]⟩
    | case4 => cases split
  · rintro ⟨rfl, rfl⟩
    exact splitBytes?_byteLength before behind

/-- **A range of bytes is a text that stands behind so many bytes.** -/
theorem bytes?_eq_some_iff {text : List Char} :
    bytes? start stop s = some text ↔ ∃ before behind, s = before ++ (text ++ behind) ∧
      byteLength before = start ∧ byteLength text = stop - start := by
  rw [bytes?]
  simp only [Option.bind_eq_bind, Option.bind_eq_some_iff, Option.some.injEq, Prod.exists,
    splitBytes?_eq_some_iff]
  constructor
  · rintro ⟨before, _, ⟨rfl, front⟩, text, behind, ⟨rfl, long⟩, rfl⟩
    exact ⟨before, behind, rfl, front, long⟩
  · rintro ⟨before, behind, rfl, front, long⟩
    exact ⟨before, text ++ behind, ⟨rfl, front⟩, text, behind, ⟨rfl, long⟩, rfl⟩

end SnippetAudit.Text
