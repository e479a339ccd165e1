import SnippetAudit.Proofs.Decimal.Rounding
import SnippetAudit.Style.Profile

/-!
Merging snippets into a profile.

An entry does not depend on the others, and each snippet makes one step of it (`entries_merge`). A
trait without an entry behaves as if it had one of frequency zero with the value of the first snippet
(`Profile.start`). So an entry after any number of snippets is known in advance (`entries_foldl`):
its value is the one it started with, its frequency counts the snippets as far as 32 bits go, and its
confidence is a tenth of the frequency or one (`confidenceAfter_eq_min`), whatever was stored before.
-/

namespace SnippetAudit.Style

/-! ### Confidence -/

theorem confidenceAfter_small (n : Nat) (small : n < 10) :
    Entry.confidenceAfter n.toUInt32 = min 1 (Float.ofNat n / 10) := by
  revert n
  decide +kernel

theorem confidenceAfter_full {frequency : UInt32} (full : 10 ≤ frequency.toNat) :
    Entry.confidenceAfter frequency = 1 := by
  have ten : (10 : UInt32).toNat = 10 := rfl
  rw [Entry.confidenceAfter, if_neg]
  rw [UInt32.lt_iff_toNat_lt, ten]
  omega

/-- **The confidence is a tenth of the frequency, and at most one.** -/
theorem confidenceAfter_eq_min (frequency : UInt32) :
    Entry.confidenceAfter frequency = min 1 (Float.ofNat frequency.toNat / 10) := by
  have word := frequency.toNat_lt
  rcases Nat.lt_or_ge frequency.toNat 10 with small | full
  · have counted := confidenceAfter_small frequency.toNat small
    rw [Nat.toUInt32, UInt32.ofNat_toNat] at counted
    exact counted
  · have reached : (1 : Float) ≤ Float.ofNat frequency.toNat / 10 :=
      Decimal.one_le_ofNat_div_ten full (by omega)
    rw [confidenceAfter_full full]
    exact (if_pos reached).symm

/-! ### Entries -/

namespace Entry

/-- An entry before anything was counted. -/
def unseen (value : Value) : Entry := ⟨value, 0, 0⟩

/-- The first observation counts like any other. -/
theorem again_unseen (value : Value) : (unseen value).again = first value := rfl

theorem toNat_frequency_again (e : Entry) :
    e.again.frequency.toNat = min (e.frequency.toNat + 1) 0xFFFFFFFF := by
  have word := e.frequency.toNat_lt
  have greatest : (0xFFFFFFFF : UInt32).toNat = 0xFFFFFFFF := rfl
  rw [again]
  split
  next full =>
    rw [full, greatest]
    rfl
  next more =>
    have below : e.frequency.toNat ≠ 0xFFFFFFFF := fun same => more (UInt32.toNat_inj.mp same)
    rw [UInt32.toNat_add]
    have one : (1 : UInt32).toNat = 1 := rfl
    omega

/-- An entry after some more observations. -/
def after (e : Entry) : Nat → Entry
  | 0 => e
  | n + 1 => e.again.after n

theorem value_after (e : Entry) (n : Nat) : (e.after n).value = e.value := by
  induction n generalizing e with
  | zero => rfl
  | succ n ih => exact ih e.again

/-- Observations are counted as far as 32 bits go. -/
theorem toNat_frequency_after (e : Entry) (n : Nat) :
    (e.after n).frequency.toNat = min (e.frequency.toNat + n) 0xFFFFFFFF := by
  induction n generalizing e with
  | zero =>
    have word := e.frequency.toNat_lt
    rw [after]
    omega
  | succ n ih =>
    rw [after, ih, toNat_frequency_again]
    omega

/-- One observation settles the confidence. -/
theorem confidence_after_succ (e : Entry) (n : Nat) :
    (e.after (n + 1)).confidence = confidenceAfter (e.after (n + 1)).frequency := by
  induction n generalizing e with
  | zero => rfl
  | succ n ih => exact ih e.again

end Entry

/-! ### Profiles -/

namespace Profile

/-- What an entry is counted from, if the given snippet is the next. -/
def start (p : Profile) (s : Patterns) (t : Trait) : Entry :=
  (p.entries t).getD (.unseen (s.value t))

/-- **A step of a profile is a step of each entry.** -/
theorem entries_merge (p : Profile) (s : Patterns) (t : Trait) :
    (p.merge s).entries t = some (p.start s t).again := by
  simp only [merge, start]
  cases p.entries t with
  | none => exact congrArg some (Entry.again_unseen (s.value t)).symm
  | some e => rfl

/-- After the first snippet the others are only counted. -/
theorem entries_foldl_of_some (rest : List Patterns) {p : Profile} {t : Trait} {e : Entry}
    (known : p.entries t = some e) :
    (rest.foldl merge p).entries t = some (e.after rest.length) := by
  induction rest generalizing p e with
  | nil => exact known
  | cons s rest ih =>
    have next : (p.merge s).entries t = some e.again := by
      rw [entries_merge, start, known, Option.getD_some]
    exact ih next

/-- **A run of a profile is a run of each entry.** -/
theorem entries_foldl (p : Profile) (s : Patterns) (rest : List Patterns) (t : Trait) :
    ((s :: rest).foldl merge p).entries t = some ((p.start s t).after (rest.length + 1)) :=
  entries_foldl_of_some rest (entries_merge p s t)

/-- Snippets change nothing but the entries. -/
theorem foldl_merge_eq (p : Profile) (snippets : List Patterns) :
    snippets.foldl merge p = ⟨p.version, p.user, (snippets.foldl merge p).entries⟩ := by
  induction snippets generalizing p with
  | nil => rfl
  | cons s rest ih => exact ih (p.merge s)

/-- **Merging counts, and keeps what was seen first.** After one snippet or more every trait has an
entry. Its value is the one that was stored, or that of the first snippet; its frequency grew by the
number of snippets, as far as 32 bits go; and its confidence is a tenth of the frequency, at most one,
whatever was stored. So of all snippets but the first only the number matters. -/
theorem merge_counts (p : Profile) (s : Patterns) (rest : List Patterns) :
    (∀ t, ∃ e, ((s :: rest).foldl merge p).entries t = some e ∧
      (∀ old, p.entries t = some old → e.value = old.value ∧
        e.frequency.toNat = min (old.frequency.toNat + (s :: rest).length) 0xFFFFFFFF) ∧
      (p.entries t = none → e.value = s.value t ∧
        e.frequency.toNat = min (s :: rest).length 0xFFFFFFFF) ∧
      e.confidence = min 1 (Float.ofNat e.frequency.toNat / 10)) ∧
    ∀ rest' : List Patterns, rest'.length = rest.length →
      (s :: rest').foldl merge p = (s :: rest).foldl merge p := by
  refine ⟨fun t => ⟨_, entries_foldl p s rest t, ?_, ?_, ?_⟩, ?_⟩
  · intro old known
    have start : p.start s t = old := by rw [Profile.start, known, Option.getD_some]
    rw [start]
    exact ⟨Entry.value_after old _, Entry.toNat_frequency_after old _⟩
  · intro unknown
    have start : p.start s t = .unseen (s.value t) := by
      rw [Profile.start, unknown, Option.getD_none]
    have counted := Entry.toNat_frequency_after (.unseen (s.value t)) (rest.length + 1)
    rw [start]
    exact ⟨Entry.value_after _ _, counted.trans (by rw [Nat.add_comm]; rfl)⟩
  · rw [Entry.confidence_after_succ, confidenceAfter_eq_min]
  · intro rest' same
    have entries : ((s :: rest').foldl merge p).entries = ((s :: rest).foldl merge p).entries := by
      funext t
      rw [entries_foldl, entries_foldl, same]
    rw [foldl_merge_eq, foldl_merge_eq p (s :: rest), entries]

end Profile

end SnippetAudit.Style
