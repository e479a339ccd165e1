import SnippetAudit.Proofs.Json.Record
import SnippetAudit.Proofs.Json.RoundTrip
import SnippetAudit.Proofs.Style.Merge

/-!
The file of a profile, written and read.

Each part of a profile is decoded from what it is encoded as. A value of a trait is written without
saying which kind it is of, and it is found again because an indentation is an object, a word a string
and a number neither. The text can be parsed because every number in it is read back, the confidences
included: they are tenths, written with one place. So the file of a profile with the current version
is read as that profile (`ofFile?_file`), and every profile that was made by merging snippets is of
this kind (`storable_foldl_merge`).
-/

namespace SnippetAudit.Style

open Json

/-! ### Parts of a profile -/

theorem decode_encode_indentKind (k : IndentKind) : decode (encode k) = some k :=
  ofWord_word (by decide) (by cases k <;> decide)

/-- Which trait a word stands for. -/
theorem find?_name (t : Trait) : Trait.all.find? (·.name == t.name) = some t := by
  cases t <;> decide

theorem decode_encode_indentation (i : Indentation) : decode (encode i) = some i := by
  refine decode_row rfl (by decide) ?_
  refine decode_required rfl (decode_encode_indentKind i.kind) ?_
  refine decode_required rfl (decode_encode_nat i.size) ?_
  rfl

theorem decode_value (j : Json) :
    decode j = ((decode j).map Value.indentation).or
      (((decode j).map Value.text).or ((decode j).map Value.number)) := rfl

/-- The kind of a value need not be written. -/
theorem decode_encode_value (v : Value) : decode (encode v) = some v := by
  rw [decode_value]
  cases v with
  | indentation i =>
    have read : decode (encode (Value.indentation i)) = some i := decode_encode_indentation i
    rw [read]
    rfl
  | text s =>
    have unlike : (decode (encode (Value.text s)) : Option Indentation) = none := rfl
    rw [unlike]
    rfl
  | number n =>
    have unlike : (decode (encode (Value.number n)) : Option Indentation) = none := rfl
    rw [unlike]
    rfl

theorem decode_encode_entry {e : Entry} (finite : e.confidence.isFinite = true) :
    decode (encode e) = some e := by
  refine decode_row rfl (by decide) ?_
  refine decode_required rfl (decode_encode_value e.value) ?_
  refine decode_required rfl (decode_encode_word e.frequency) ?_
  refine decode_required rfl (decode_encode_float finite) ?_
  rfl

/-- The entries of a profile, read from some of its traits. -/
theorem decodeEntries_map {entries : Trait → Option Entry}
    (finite : ∀ t e, entries t = some e → e.confidence.isFinite = true) (ts : List Trait) :
    Profile.decodeEntries ((ts.filterMap fun t => (entries t).map (t, ·)).map
      fun (t, e) => (t.name, encode e)) = some fun t => if t ∈ ts then entries t else none := by
  induction ts with
  | nil => rfl
  | cons t ts ih =>
    cases known : entries t with
    | none =>
      rw [List.filterMap_cons_none (by rw [known]; rfl), ih]
      congr 1
      funext t'
      by_cases same : t' = t
      · simp [same, known]
      · simp [same]
    | some e =>
      rw [List.filterMap_cons_some (by rw [known]; rfl), List.map_cons, Profile.decodeEntries,
        find?_name, ih]
      simp only [decode_encode_entry (finite t e known), Option.bind_eq_bind, Option.bind_some]
      congr 1
      funext t'
      by_cases same : t' = t
      · by_cases later : t ∈ ts <;> simp [same, later, known]
      · simp [same]

theorem decodeEntries_encodeEntries {p : Profile}
    (finite : ∀ t e, p.entries t = some e → e.confidence.isFinite = true) :
    Profile.decodeEntries p.encodeEntries = some p.entries := by
  have all : ∀ t, t ∈ Trait.all := by
    intro t
    cases t <;> decide
  rw [Profile.encodeEntries, Profile.toList, decodeEntries_map finite]
  congr 1
  funext t
  exact if_pos (all t)

/-! ### Numbers in a file -/

/-- Values whose numbers fit in a machine word. -/
def Value.Fits : Value → Prop
  | .indentation i => i.size < 0x10000000000000000
  | .text _ => True
  | .number n => n < 0x10000000000000000

variable {depth : Nat}

theorem readable_nat {n : Nat} (fits : n < 0x10000000000000000) : Readable depth (encode n) :=
  .int (by omega) (by omega)

theorem readable_value {v : Value} (fits : v.Fits) : Readable (depth + 1) (encode v) := by
  cases v with
  | indentation i =>
    refine .object fun m mem => ?_
    simp only [List.mem_cons, List.not_mem_nil, or_false] at mem
    rcases mem with rfl | rfl
    · exact .string _
    · exact readable_nat fits
  | text s => exact .string s
  | number n => exact readable_nat fits

/-- Entries that are written so that they are read back. -/
structure Entry.Storable (e : Entry) : Prop where
  value : e.value.Fits
  finite : e.confidence.isFinite = true
  back : ReadsBack e.confidence

theorem readable_entry {e : Entry} (storable : e.Storable) : Readable (depth + 2) (encode e) := by
  have word := e.frequency.toNat_lt
  refine .object fun m mem => ?_
  simp only [List.mem_cons, List.not_mem_nil, or_false] at mem
  rcases mem with rfl | rfl | rfl
  · exact readable_value storable.value
  · exact .int (by omega) (by omega)
  · show Readable _ (if _ then _ else _)
    rw [if_pos storable.finite]
    exact .float storable.back

/-! ### Confidences -/

/-- The confidence after fewer than ten observations is written with one place. -/
theorem confidenceAfter_text : ∀ n < 10,
    floatText (Entry.confidenceAfter n.toUInt32) = Nat.toDigits 10 0 ++ ['.', Nat.digitChar n] ∧
      Decimal.scaled (Nat.ofDigitChars 10 [Nat.digitChar n] 0) (-1) =
        some (Entry.confidenceAfter n.toUInt32) ∧
      (Nat.digitChar n).isDigit = true ∧
      Nat.ofDigitChars 10 [Nat.digitChar n] 0 < 0x10000000000000000 ∧
      (Entry.confidenceAfter n.toUInt32).isFinite = true := by
  decide +kernel

/-- **Every confidence that is computed is read back.** -/
theorem readsBack_confidenceAfter (frequency : UInt32) :
    (Entry.confidenceAfter frequency).isFinite = true ∧
      ReadsBack (Entry.confidenceAfter frequency) := by
  rcases Nat.lt_or_ge frequency.toNat 10 with few | full
  · obtain ⟨written, scaled, digit, fits, finite⟩ := confidenceAfter_text frequency.toNat few
    rw [Nat.toUInt32, UInt32.ofNat_toNat] at written scaled finite
    refine ⟨finite, readsBack_of_point written (by simp) ?_ fits scaled⟩
    intro d mem
    rw [List.mem_singleton.mp mem]
    exact digit
  · rw [confidenceAfter_full full]
    have written : floatText 1 = Nat.toDigits 10 1 ++ '.' :: ['0'] := by decide +kernel
    refine ⟨by decide +kernel,
      readsBack_of_point written (by simp) ?_ (by decide +kernel) (by decide +kernel)⟩
    intro d mem
    rw [List.mem_singleton.mp mem]
    rfl

/-! ### Files -/

namespace Profile

/-- The members of the object in a file. -/
def members (p : Profile) (updated : String) : List (String × Json) := [
  ("version", encode p.version), ("user_id", encode p.user),
  ("entries", .object p.encodeEntries), ("updated_at", encode updated)]

theorem readable_members {p : Profile}
    (storable : ∀ t e, p.entries t = some e → e.Storable) (updated : String) :
    Readable (depth + 4) (.object (p.members updated)) := by
  have word := p.version.toNat_lt
  refine .object fun m mem => ?_
  simp only [members, List.mem_cons, List.not_mem_nil, or_false] at mem
  rcases mem with rfl | rfl | rfl | rfl
  · exact .int (by omega) (by omega)
  · exact .string _
  · refine .object fun m mem => ?_
    simp only [encodeEntries, toList, List.mem_map, List.mem_filterMap, Option.map_eq_some_iff] at mem
    obtain ⟨-, ⟨t, -, e, known, rfl⟩, rfl⟩ := mem
    exact readable_entry (storable t e known)
  · exact .string _

theorem decode?_members {p : Profile}
    (finite : ∀ t e, p.entries t = some e → e.confidence.isFinite = true) {updated : String}
    (moment : Text.isMoment updated = true) :
    decode? (.object (p.members updated)) = some p := by
  have row : row? ["version", "user_id", "entries", "updated_at"] (.object (p.members updated)) =
      some ⟨p.members updated, false⟩ := row?_object rfl (by decide)
  have version : Row.required ⟨p.members updated, false⟩ "version" = some p.version :=
    required_eq rfl (decode_encode_word p.version)
  have user : Row.required ⟨p.members updated, false⟩ "user_id" = some p.user :=
    required_eq rfl rfl
  have entries : (p.members updated).lookup "entries" = some (.object p.encodeEntries) := rfl
  have time : Row.required ⟨p.members updated, false⟩ "updated_at" = some updated :=
    required_eq rfl rfl
  rw [decode?, row, Option.bind_eq_bind, Option.bind_some, version, user, entries]
  simp [decodeEntries_encodeEntries finite, time, moment]

/-- **A file is read as the profile that was written**, if the profile has the current version and
its numbers are read back. -/
theorem ofFile?_file {p : Profile} (current : p.version = currentVersion)
    (storable : ∀ t e, p.entries t = some e → e.Storable) {updated : String}
    (moment : Text.isMoment updated = true) : ofFile? (p.file updated) = some p := by
  have readable : Readable (123 + 4) (.object (p.members updated)) :=
    readable_members storable updated
  have parsed : Json.parse? (p.file updated) = some (.object (p.members updated)) :=
    parse?_pretty readable
  have decoded := decode?_members (fun t e known => (storable t e known).finite) moment
  rw [ofFile?, parsed, Option.bind_eq_bind, Option.bind_some, decoded]
  exact if_pos current

end Profile

/-! ### Merged profiles -/

/-- Snippets whose numbers fit in a machine word. -/
def Patterns.Fits (s : Patterns) : Prop :=
  s.lineLength < 0x10000000000000000 ∧ s.indentation.size < 0x10000000000000000

instance : DecidablePred Patterns.Fits := fun _ => inferInstanceAs (Decidable (_ ∧ _))

theorem Patterns.Fits.value {s : Patterns} (fits : s.Fits) (t : Trait) : (s.value t).Fits := by
  cases t with
  | indentation => exact fits.2
  | lineLength => exact fits.1
  | naming | quotes | comments | imports => exact trivial

namespace Profile

/-- Every entry that merging makes can be stored. -/
theorem storable_foldl_merge {user : String} {snippets : List Patterns}
    (fits : ∀ s ∈ snippets, s.Fits) :
    ∀ t e, (snippets.foldl merge (new user)).entries t = some e → e.Storable := by
  intro t e known
  cases snippets with
  | nil => cases known
  | cons s rest =>
    rw [entries_foldl] at known
    obtain rfl := Option.some.inj known
    -- The last snippet settled the confidence, so it is one that was computed.
    obtain ⟨finite, back⟩ := readsBack_confidenceAfter
      (((new user).start s t).after (rest.length + 1)).frequency
    rw [← Entry.confidence_after_succ] at finite back
    refine ⟨?_, finite, back⟩
    rw [Entry.value_after]
    exact (fits s List.mem_cons_self).value t

/-- **Nothing is lost by writing and reading a profile.** Whatever the user is called and whatever
snippets were merged, the file is read as the same profile. -/
theorem ofFile?_file_foldl (user : String) (snippets : List Patterns) (updated : String)
    (fits : ∀ s ∈ snippets, s.Fits) (moment : Text.isMoment updated = true) :
    ofFile? ((snippets.foldl merge (new user)).file updated) =
      some (snippets.foldl merge (new user)) := by
  refine ofFile?_file ?_ (storable_foldl_merge fits) moment
  rw [foldl_merge_eq]
  rfl

theorem ofFile?_file_foldl_of_quoted_user :
    (∀ s ∈ [(⟨.camelCase, ⟨.tabs, 1⟩, .double, 42, .above, .es6⟩ : Patterns)], s.Fits) ∧
      Text.isMoment "2024-02-29T23:59:60.5Z" = true ∧
      ofFile? (([⟨.camelCase, ⟨.tabs, 1⟩, .double, 42, .above, .es6⟩].foldl merge
        (new "\"O'Neil\\\t\x01é\"")).file "2024-02-29T23:59:60.5Z") =
        some ([⟨.camelCase, ⟨.tabs, 1⟩, .double, 42, .above, .es6⟩].foldl merge
          (new "\"O'Neil\\\t\x01é\"")) :=
  ⟨by decide, by decide +kernel, ofFile?_file_foldl _ _ _ (by decide) (by decide +kernel)⟩

end Profile

end SnippetAudit.Style
