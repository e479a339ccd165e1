import SnippetAudit.Json.Record

/-!
Values that were encoded, as they are decoded.

An object with exactly the fields of a record is a row of them (`row?_object`), and each field is
found in it if its own value is decoded from what it was encoded as (`required_eq`).
-/

namespace SnippetAudit.Json

/-! ### Rows -/

/-- An object that has each field once is a row of these fields. -/
theorem row?_object {names : List String} {members : List (String × Json)}
    (fields : members.map (·.1) = names) (once : names.Nodup) :
    row? names (.object members) = some ⟨members, false⟩ := by
  have single : (names.any fun n => 1 < members.countP (·.1 == n)) = false := by
    rw [List.any_eq_false]
    intro n _
    have count : members.countP (·.1 == n) = names.count n := by
      rw [← fields, List.count, List.countP_map]
      rfl
    rw [count, decide_eq_true_eq]
    exact Nat.not_lt.mpr (List.nodup_iff_count.mp once n)
  rw [row?, single]
  rfl

theorem required_eq {α : Type} [Coded α] {r : Row} {name : String} {a : α}
    (found : r.cells.lookup name = some (encode a)) (read : decode (encode a) = some a) :
    r.required name = some a := by
  rw [Row.required, found, Option.bind_some, read]

theorem optional_eq {α : Type} [Coded α] {r : Row} {name : String} {o : Option α}
    (found : r.cells.lookup name = some (encode o)) (read : decode (encode o) = some o) :
    r.optional name = some o := by
  rw [Row.optional, found]
  exact read

theorem withDefault_eq {α : Type} [Coded α] {r : Row} {name : String} {a default : α}
    (found : r.cells.lookup name = some (encode a)) (read : decode (encode a) = some a) :
    r.withDefault name default = some a := by
  rw [Row.withDefault, found]
  exact read

/-! ### Records

A record is decoded field by field, so what it was encoded as is decoded by one step for the row and
one for each field. -/

section Steps

variable {α β : Type} [Coded α] {r : Row} {name : String} {b : β}

theorem decode_row {names : List String} {members : List (String × Json)} {next : Row → Option β}
    (fields : members.map (·.1) = names) (once : names.Nodup)
    (rest : next ⟨members, false⟩ = some b) : (row? names (.object members) >>= next) = some b := by
  rw [row?_object fields once]
  exact rest

theorem decode_required {a : α} {next : α → Option β}
    (found : r.cells.lookup name = some (encode a)) (read : decode (encode a) = some a)
    (rest : next a = some b) : (r.required name >>= next) = some b := by
  rw [required_eq found read]
  exact rest

theorem decode_optional {o : Option α} {next : Option α → Option β}
    (found : r.cells.lookup name = some (encode o)) (read : decode (encode o) = some o)
    (rest : next o = some b) : (r.optional name >>= next) = some b := by
  rw [optional_eq found read]
  exact rest

theorem decode_withDefault {a default : α} {next : α → Option β}
    (found : r.cells.lookup name = some (encode a)) (read : decode (encode a) = some a)
    (rest : next a = some b) : (r.withDefault name default >>= next) = some b := by
  rw [withDefault_eq found read]
  exact rest

end Steps

/-! ### Words, options and lists -/

/-- A value is found by its word among values with different words. -/
theorem ofWord_word {α : Type} {word : α → String} {values : List α}
    (distinct : (values.map word).Nodup) {a : α} (mem : a ∈ values) :
    ofWord word values (.string (word a)) = some a := by
  show values.find? (word · == word a) = some a
  induction values with
  | nil => cases mem
  | cons v values ih =>
    rw [List.map_cons, List.nodup_cons] at distinct
    rcases List.mem_cons.mp mem with rfl | later
    · exact List.find?_cons_of_pos (by simp)
    · have other : word v ≠ word a := by
        intro same
        exact distinct.1 (same ▸ List.mem_map_of_mem later)
      rw [List.find?_cons_of_neg (by simpa using other)]
      exact ih distinct.2 later

theorem decode_encode_string (s : String) : decode (encode s) = some s := rfl

theorem decode_encode_bool (b : Bool) : decode (encode b) = some b := rfl

theorem decode_option {α : Type} [Coded α] {j : Json} (present : j ≠ .null) :
    (decode j : Option (Option α)) = (decode j).map some := by
  cases j with
  | null => exact absurd rfl present
  | bool | int | float | string | array | object => rfl

/-- A value that is there must not be written as one that is missing. -/
theorem decode_encode_option {α : Type} [Coded α] {o : Option α}
    (present : ∀ a ∈ o, encode a ≠ .null) (read : ∀ a ∈ o, decode (encode a) = some a) :
    decode (encode o) = some o := by
  cases o with
  | none => rfl
  | some a =>
    show decode (encode a) = some (some a)
    rw [decode_option (present a rfl), read a rfl, Option.map_some]

theorem decode_encode_text (o : Option String) : decode (encode o) = some o :=
  decode_encode_option (fun _ _ => Json.noConfusion) fun s _ => decode_encode_string s

theorem decodeAll_map_encode {α : Type} [Coded α] {as : List α}
    (read : ∀ a ∈ as, decode (encode a) = some a) : decodeAll (as.map encode) = some as := by
  induction as with
  | nil => rfl
  | cons a as ih =>
    rw [List.map_cons, decodeAll, read a List.mem_cons_self,
      ih fun a' mem => read a' (List.mem_cons_of_mem a mem)]
    rfl

theorem decode_encode_list {α : Type} [Coded α] {as : List α}
    (read : ∀ a ∈ as, decode (encode a) = some a) : decode (encode as) = some as :=
  decodeAll_map_encode read

/-! ### Numbers -/

theorem decode_encode_nat (n : Nat) : decode (encode n) = some n := rfl

theorem decode_encode_word (n : UInt32) : decode (encode n) = some n := by
  have word := n.toNat_lt
  show (if _ then _ else _) = _
  rw [if_pos (by omega), Int.toNat_natCast, Nat.toUInt32, UInt32.ofNat_toNat]

theorem decode_encode_float {x : Float} (finite : x.isFinite = true) :
    decode (encode x) = some x := by
  show decode (if _ then _ else _) = _
  rw [if_pos finite]
  rfl

end SnippetAudit.Json
