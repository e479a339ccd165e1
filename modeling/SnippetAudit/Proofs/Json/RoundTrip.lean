import SnippetAudit.Proofs.Json.Scalar

/-!
Values that were written, as they are read.

A value can be read back (`Readable`) if its numbers can, and if it is nested at most as deep as the
reader goes. Its text is then read back in front of whatever may follow it (`reads_value`), since the
parts of an array or object are followed by blanks, a comma or a closing bracket. So parsing undoes
printing (`parse?_pretty`). The number of parts that the reader allows for is the length of the text,
which is more than there can be (`length_array`, `length_object`).
-/

namespace SnippetAudit.Json

/-! ### Values -/

section Values

variable {bound depth : Nat} {s : List Char}

theorem value_skip {w : List Char} (blank : Blank w) :
    value bound depth (w ++ s) = value bound depth s := by
  rw [value.eq_def, value.eq_def bound depth s]
  simp only [skipSpace_append blank]

theorem value_quoted (text : String) :
    value bound depth (quoted text ++ s) = some (.string text, s) := by
  have read := stringBody_flatMap_escape text.toList s
  have visible : isSpace '"' = false := rfl
  rw [value.eq_def, quoted, List.append_assoc, List.cons_append]
  simp [skipSpace_cons visible, read, String.ofList_toList]

theorem value_number {c : Char} (begins : c.isDigit = true ∨ c = '-') :
    value bound depth (c :: s) = number (c :: s) := by
  have unlike : ∀ d, d.isDigit = false → d ≠ '-' → c ≠ d := by
    rintro d digit sign rfl
    rcases begins with begins | begins
    · rw [digit] at begins
      cases begins
    · exact sign begins
  have visible : isSpace c = false := by
    simp [isSpace, unlike ' ' rfl (by decide), unlike '\n' rfl (by decide),
      unlike '\t' rfl (by decide), unlike '\r' rfl (by decide)]
  rw [value.eq_def]
  simp [skipSpace_cons visible, unlike '"' rfl (by decide), unlike '[' rfl (by decide),
    unlike '{' rfl (by decide), unlike 'n' rfl (by decide), unlike 't' rfl (by decide),
    unlike 'f' rfl (by decide)]

end Values

/-- The values that are written so that they are read back, with at most so many arrays and objects
around each other. -/
inductive Readable : Nat → Json → Prop where
  | null {depth : Nat} : Readable depth .null
  | bool {depth : Nat} (b : Bool) : Readable depth (.bool b)
  | string {depth : Nat} (text : String) : Readable depth (.string text)
  | int {depth : Nat} {n : Int} : -0x8000000000000000 ≤ n → n < 0x10000000000000000 →
      Readable depth (.int n)
  | float {depth : Nat} {x : Float} : ReadsBack x → Readable depth (.float x)
  | array {depth : Nat} {items : List Json} : (∀ j ∈ items, Readable depth j) →
      Readable (depth + 1) (.array items)
  | object {depth : Nat} {members : List (String × Json)} : (∀ m ∈ members, Readable depth m.2) →
      Readable (depth + 1) (.object members)

/-! ### Parts -/

section Parts

variable {sp : Spacing}

theorem ended_append {w : List Char} (blank : Blank w) {s : List Char} (ended : Ended s) :
    Ended (w ++ s) := by
  cases w with
  | nil => exact ended
  | cons c w =>
    have space : isSpace c = true := blank c List.mem_cons_self
    simp only [isSpace, Bool.or_eq_true, decide_eq_true_eq] at space
    rcases space with ((rfl | rfl) | rfl) | rfl <;> exact ⟨rfl, by decide, by decide, by decide⟩

theorem ended_writtenItems (skipped : sp.Skipped) (level : Nat) (items : List Json) (s : List Char) :
    Ended (writtenItems sp level items ++ s) := by
  cases items with
  | nil =>
    rw [writtenItems, List.append_assoc]
    exact ended_append (skipped.line level) ⟨rfl, by decide, by decide, by decide⟩
  | cons j items =>
    rw [writtenItems]
    exact ⟨rfl, by decide, by decide, by decide⟩

theorem ended_writtenMembers (skipped : sp.Skipped) (level : Nat) (members : List (String × Json))
    (s : List Char) : Ended (writtenMembers sp level members ++ s) := by
  cases members with
  | nil =>
    rw [writtenMembers, List.append_assoc]
    exact ended_append (skipped.line level) ⟨rfl, by decide, by decide, by decide⟩
  | cons m members =>
    rw [writtenMembers]
    exact ⟨rfl, by decide, by decide, by decide⟩

/-- Reading one value in front of any text that ends a number, whatever is skipped before. -/
def Reads (sp : Spacing) (level : Nat) (read : List Char → Option (Json × List Char)) (j : Json) :
    Prop :=
  ∀ w s, Blank w → Ended s → read (w ++ (written sp level j ++ s)) = some (j, s)

variable {level fuel : Nat} {read : List Char → Option (Json × List Char)}

theorem items_written (skipped : sp.Skipped) {j : Json} {rest : List Json}
    (reads : ∀ i ∈ j :: rest, Reads sp (level + 1) read i) (enough : rest.length < fuel)
    (w s : List Char) (blank : Blank w) :
    items read fuel (w ++ (written sp (level + 1) j ++ (writtenItems sp level rest ++ s))) =
      some (j :: rest, s) := by
  induction rest generalizing j w fuel with
  | nil =>
    obtain ⟨fuel, rfl⟩ := Nat.exists_eq_add_of_lt enough
    have first := reads j List.mem_cons_self w _ blank (ended_writtenItems skipped level [] s)
    have behind : skipSpace (writtenItems sp level [] ++ s) = ']' :: s := by
      rw [writtenItems, List.append_assoc, skipSpace_append (skipped.line level)]
      rfl
    simp [items, first, behind]
  | cons i rest ih =>
    obtain ⟨fuel, rfl⟩ := Nat.exists_eq_add_of_lt enough
    have first := reads j List.mem_cons_self w _ blank
      (ended_writtenItems skipped level (i :: rest) s)
    have fewer : rest.length < rest.length + 1 + fuel := by omega
    have others := ih (fun k mem => reads k (List.mem_cons_of_mem j mem)) fewer
      (sp.line (level + 1)) (skipped.line _)
    have behind : skipSpace (writtenItems sp level (i :: rest) ++ s) =
        ',' :: (sp.line (level + 1) ++
          (written sp (level + 1) i ++ (writtenItems sp level rest ++ s))) := by
      rw [writtenItems]
      simp only [List.append_assoc, List.cons_append]
      rfl
    rw [items]
    simp [first, behind, others]

/-- A member of an object. -/
def writtenMember (sp : Spacing) (level : Nat) (m : String × Json) : List Char :=
  quoted m.1 ++ ':' :: sp.colon ++ written sp (level + 1) m.2

theorem writtenMembers_cons (sp : Spacing) (level : Nat) (m : String × Json)
    (rest : List (String × Json)) :
    writtenMembers sp level (m :: rest) =
      ',' :: (sp.line (level + 1) ++ (writtenMember sp level m ++ writtenMembers sp level rest)) := by
  simp [writtenMembers, writtenMember]

/-- What is read behind the mark that opens the name of a member. -/
theorem skipSpace_writtenMember {w : List Char} (blank : Blank w) (m : String × Json)
    (s : List Char) :
    skipSpace (w ++ (writtenMember sp level m ++ s)) =
      '"' :: (m.1.toList.flatMap escape ++ '"' :: ':' ::
        (sp.colon ++ (written sp (level + 1) m.2 ++ s))) := by
  have visible : isSpace '"' = false := rfl
  rw [skipSpace_append blank, writtenMember, quoted]
  simp [skipSpace_cons visible]

theorem members_written (skipped : sp.Skipped) {m : String × Json} {rest : List (String × Json)}
    (reads : ∀ n ∈ m :: rest, Reads sp (level + 1) read n.2) (enough : rest.length < fuel)
    (w s : List Char) (blank : Blank w) :
    members read fuel (w ++ (writtenMember sp level m ++ (writtenMembers sp level rest ++ s))) =
      some (m :: rest, s) := by
  have colon : isSpace ':' = false := rfl
  induction rest generalizing m w fuel with
  | nil =>
    obtain ⟨fuel, rfl⟩ := Nat.exists_eq_add_of_lt enough
    have first := reads m List.mem_cons_self sp.colon _ skipped.colon
      (ended_writtenMembers skipped level [] s)
    have behind : skipSpace (writtenMembers sp level [] ++ s) = '}' :: s := by
      rw [writtenMembers, List.append_assoc, skipSpace_append (skipped.line level)]
      rfl
    rw [members, skipSpace_writtenMember blank]
    simp [skipSpace_cons colon, stringBody_flatMap_escape, first, behind]
  | cons n rest ih =>
    obtain ⟨fuel, rfl⟩ := Nat.exists_eq_add_of_lt enough
    have first := reads m List.mem_cons_self sp.colon _ skipped.colon
      (ended_writtenMembers skipped level (n :: rest) s)
    have fewer : rest.length < rest.length + 1 + fuel := by omega
    have others := ih (fun k mem => reads k (List.mem_cons_of_mem m mem)) fewer
      (sp.line (level + 1)) (skipped.line _)
    have behind : skipSpace (writtenMembers sp level (n :: rest) ++ s) =
        ',' :: (sp.line (level + 1) ++
          (writtenMember sp level n ++ (writtenMembers sp level rest ++ s))) := by
      rw [writtenMembers_cons]
      simp only [List.append_assoc, List.cons_append]
      rfl
    rw [members, skipSpace_writtenMember blank]
    simp [skipSpace_cons colon, stringBody_flatMap_escape, first, behind, others]

end Parts

/-! ### Lengths -/

theorem length_writtenItems (sp : Spacing) (level : Nat) (items : List Json) :
    items.length < (writtenItems sp level items).length ∧
      ∀ j ∈ items, (written sp (level + 1) j).length ≤ (writtenItems sp level items).length := by
  induction items with
  | nil => simp [writtenItems]
  | cons i items ih =>
    obtain ⟨many, inner⟩ := ih
    simp only [writtenItems, List.length_append, List.length_cons]
    refine ⟨by omega, fun j mem => ?_⟩
    rcases List.mem_cons.mp mem with rfl | mem
    · omega
    · have := inner j mem
      omega

theorem length_writtenMembers (sp : Spacing) (level : Nat) (members : List (String × Json)) :
    members.length < (writtenMembers sp level members).length ∧
      ∀ m ∈ members,
        (written sp (level + 1) m.2).length ≤ (writtenMembers sp level members).length := by
  induction members with
  | nil => simp [writtenMembers]
  | cons n members ih =>
    obtain ⟨many, inner⟩ := ih
    simp only [writtenMembers, List.length_append, List.length_cons]
    refine ⟨by omega, fun m mem => ?_⟩
    rcases List.mem_cons.mp mem with rfl | mem
    · omega
    · have := inner m mem
      omega

/-- An array is longer than the number of its items, and no item is longer. -/
theorem length_array (sp : Spacing) (level : Nat) (items : List Json) :
    items.length ≤ (written sp level (.array items)).length ∧
      ∀ j ∈ items, (written sp (level + 1) j).length ≤ (written sp level (.array items)).length := by
  cases items with
  | nil => simp [written]
  | cons i items =>
    obtain ⟨many, inner⟩ := length_writtenItems sp level items
    simp only [written, List.length_append, List.length_cons]
    refine ⟨by omega, fun j mem => ?_⟩
    rcases List.mem_cons.mp mem with rfl | mem
    · omega
    · have := inner j mem
      omega

/-- An object is longer than the number of its members, and no member is longer. -/
theorem length_object (sp : Spacing) (level : Nat) (members : List (String × Json)) :
    members.length ≤ (written sp level (.object members)).length ∧
      ∀ m ∈ members,
        (written sp (level + 1) m.2).length ≤ (written sp level (.object members)).length := by
  cases members with
  | nil => simp [written]
  | cons n members =>
    obtain ⟨many, inner⟩ := length_writtenMembers sp level members
    simp only [written, List.length_append, List.length_cons]
    refine ⟨by omega, fun m mem => ?_⟩
    rcases List.mem_cons.mp mem with rfl | mem
    · omega
    · have := inner m mem
      omega

/-! ### Reading what is written -/

section Whole

variable {sp : Spacing} {bound depth level : Nat} {s : List Char}

/-- No value begins with a closing bracket. -/
theorem value_closing {rest : List Char} (closing : skipSpace s = ']' :: rest) :
    value bound depth s = none := by
  rw [value.eq_def]
  simp only [closing]
  rfl

theorem value_array (opened : ∀ rest, skipSpace s ≠ ']' :: rest) :
    value bound (depth + 1) ('[' :: s) =
      (items (value bound depth) bound s).map fun (vs, rest) => (.array vs, rest) := by
  have visible : isSpace '[' = false := rfl
  rw [value.eq_def]
  simp only [skipSpace_cons visible]

theorem value_object (opened : ∀ rest, skipSpace s ≠ '}' :: rest) :
    value bound (depth + 1) ('{' :: s) =
      (members (value bound depth) bound s).map fun (ms, rest) => (.object ms, rest) := by
  have visible : isSpace '{' = false := rfl
  rw [value.eq_def]
  simp only [skipSpace_cons visible]

theorem number_written {x : Float} (back : ReadsBack x) (ended : Ended s) :
    value bound depth (floatText x ++ s) = some (.float x, s) := by
  obtain ⟨c, cs, same, begins⟩ := back.begins
  have read := back.number s ended
  rw [same, List.cons_append] at read ⊢
  rw [value_number begins, read]

theorem intText_begins (n : Int) : ∃ c cs, intText n = c :: cs ∧ (c.isDigit = true ∨ c = '-') := by
  rw [intText]
  split_ifs with negative
  · exact ⟨_, _, rfl, .inr rfl⟩
  · cases written : Nat.toDigits 10 n.toNat with
    | nil => exact absurd written Nat.toDigits_ne_nil
    | cons c cs =>
      refine ⟨c, cs, rfl, .inl ?_⟩
      exact Nat.isDigit_of_mem_toDigits (n := n.toNat) (by decide) (by decide)
        (written ▸ List.mem_cons_self)

theorem integer_written {n : Int} (least : -0x8000000000000000 ≤ n)
    (greatest : n < 0x10000000000000000) (ended : Ended s) :
    value bound depth (intText n ++ s) = some (.int n, s) := by
  obtain ⟨c, cs, same, begins⟩ := intText_begins n
  have read := number_intText least greatest ended
  rw [same, List.cons_append] at read ⊢
  rw [value_number begins, read]

theorem word_written {j : Json} (word : j = .null ∨ ∃ b, j = .bool b) :
    value bound depth (written sp level j ++ s) = some (j, s) := by
  have n : isSpace 'n' = false := rfl
  have t : isSpace 't' = false := rfl
  have f : isSpace 'f' = false := rfl
  rw [value.eq_def]
  rcases word with rfl | ⟨_ | _, rfl⟩ <;>
    simp [written, skipSpace_cons, n, t, f, behindWord]

theorem array_written (skipped : sp.Skipped) {all : List Json}
    (parts : ∀ i ∈ all, Reads sp (level + 1) (value bound depth) i) (many : all.length ≤ bound) :
    value bound (depth + 1) (written sp level (.array all) ++ s) = some (.array all, s) := by
  have line := skipped.line (level + 1)
  cases all with
  | nil =>
    have visible : isSpace '[' = false := rfl
    have closing : isSpace ']' = false := rfl
    rw [value.eq_def]
    simp [written, skipSpace_cons, visible, closing]
  | cons i rest =>
    have enough : rest.length < bound := many
    have read := items_written skipped parts enough _ s line
    -- Otherwise the array would be taken for an empty one.
    have opened : ∀ r, skipSpace (sp.line (level + 1) ++
        (written sp (level + 1) i ++ (writtenItems sp level rest ++ s))) ≠ ']' :: r := by
      intro r closing
      have first := parts i List.mem_cons_self _ _ line (ended_writtenItems skipped level rest s)
      rw [value_closing closing] at first
      cases first
    simp only [written, List.append_assoc, List.cons_append]
    rw [value_array opened, read]
    rfl

theorem object_written (skipped : sp.Skipped) {all : List (String × Json)}
    (parts : ∀ m ∈ all, Reads sp (level + 1) (value bound depth) m.2) (many : all.length ≤ bound) :
    value bound (depth + 1) (written sp level (.object all) ++ s) = some (.object all, s) := by
  have line := skipped.line (level + 1)
  cases all with
  | nil =>
    have visible : isSpace '{' = false := rfl
    have closing : isSpace '}' = false := rfl
    rw [value.eq_def]
    simp [written, skipSpace_cons, visible, closing]
  | cons m rest =>
    have enough : rest.length < bound := many
    have read := members_written skipped parts enough _ s line
    have opened : ∀ r, skipSpace (sp.line (level + 1) ++
        (writtenMember sp level m ++ (writtenMembers sp level rest ++ s))) ≠ '}' :: r := by
      intro r closing
      rw [skipSpace_writtenMember line] at closing
      cases closing
    have whole : written sp level (.object (m :: rest)) ++ s = '{' :: (sp.line (level + 1) ++
        (writtenMember sp level m ++ (writtenMembers sp level rest ++ s))) := by
      simp [written, writtenMember]
    rw [whole, value_object opened, read]
    rfl

/-- **A value that is written is read back**, in front of any text that ends a number. -/
theorem reads_value (skipped : sp.Skipped) {j : Json} (readable : Readable depth j)
    (short : (written sp level j).length ≤ bound) : Reads sp level (value bound depth) j := by
  intro w s blank ended
  rw [value_skip blank]
  clear blank w
  induction readable generalizing level s with
  | null => exact word_written (.inl rfl)
  | bool b => exact word_written (.inr ⟨b, rfl⟩)
  | string text => exact value_quoted text
  | int least greatest => exact integer_written least greatest ended
  | float back => exact number_written back ended
  | @array depth all _ ih =>
    obtain ⟨many, inner⟩ := length_array sp level all
    refine array_written skipped ?_ (by omega)
    intro i mem w s blank ended
    rw [value_skip blank]
    exact ih i mem (Nat.le_trans (inner i mem) short) s ended
  | @object depth all _ ih =>
    obtain ⟨many, inner⟩ := length_object sp level all
    refine object_written skipped ?_ (by omega)
    intro m mem w s blank ended
    rw [value_skip blank]
    exact ih m mem (Nat.le_trans (inner m mem) short) s ended

/-- **A value that is printed is parsed back**, if it is nested at most as deep as may be. -/
theorem parse?_pretty {j : Json} (readable : Readable depthLimit j) :
    parse? (pretty j) = some j := by
  have text : (pretty j).toList = written .pretty 0 j := String.toList_ofList
  have blank : Blank [] := fun _ mem => by cases mem
  have short : (written .pretty 0 j).length ≤ (written .pretty 0 j).length := Nat.le_refl _
  have read := reads_value skipped_pretty readable short [] [] blank trivial
  rw [List.nil_append, List.append_nil] at read
  simp only [parse?, text, read]
  rfl

end Whole

end SnippetAudit.Json
