import Mathlib.Data.List.Forall2
import SnippetAudit.Proofs.Linter.Report

/-!
Which positions of issues are those of their messages.

A message gives a position as a number of any size, and an issue has 32 bits for it. What does not fit is cut
off, so a position is the number modulo 2³² (`toNat_positionAt`). It is the number itself wherever that fits,
and zero where the message gives none. A number that does not fit leads to a position that no message gave,
unless it happens to be cut to zero (`faithful_iff`).
-/

namespace SnippetAudit.Linter

open Json

/-- A member that is a natural number. -/
def naturalAt (name : String) (message : Json) : Option Nat :=
  match message.member? name with
  | some (.int n) => n.toNat?
  | _ => none

/-- A position is never invented: it is the number that a message gives, or zero, and it is that number
wherever 32 bits are enough. -/
structure Faithful (given : Option Nat) (position : UInt32) : Prop where
  not_invented : position = 0 ∨ given = some position.toNat
  kept : ∀ n, given = some n → n < UInt32.size → position.toNat = n

/-- A position is what a message gives, cut to 32 bits, and so faithful exactly if that fits or nothing is left
of it. -/
def Cut (given : Option Nat) (position : UInt32) : Prop :=
  position.toNat = given.getD 0 % UInt32.size ∧
    (Faithful given position ↔ ∀ n, given = some n → n < UInt32.size ∨ UInt32.size ∣ n)

section

variable {given : Option Nat} {position : UInt32}

/-- **A position is what a message gives modulo 2³².** -/
theorem toNat_positionAt (name : String) (message : Json) :
    (positionAt name message).toNat = (naturalAt name message).getD 0 % UInt32.size := by
  rw [positionAt, naturalAt]
  cases message.member? name with
  | none => rfl
  | some j =>
    cases j with
    | int n => cases n <;> rfl
    | null | bool | float | string | array | object => rfl

/-- A number that is cut off leads to a position that was never given, unless zero is left of it. -/
theorem faithful_iff (cut : position.toNat = given.getD 0 % UInt32.size) :
    Faithful given position ↔ ∀ n, given = some n → n < UInt32.size ∨ UInt32.size ∣ n := by
  have zero : position = 0 ↔ position.toNat = 0 := UInt32.toNat_inj.symm
  cases given with
  | none => exact iff_of_true ⟨.inl (zero.mpr cut), nofun⟩ nofun
  | some n =>
    rw [Option.getD_some] at cut
    constructor
    · rintro ⟨told, -⟩ _ same
      obtain rfl := Option.some.inj same
      rw [zero, cut] at told
      rcases told with none_left | all
      · exact .inr (Nat.dvd_of_mod_eq_zero none_left)
      · rw [Option.some.inj all]
        exact .inl (Nat.mod_lt _ (by decide))
    · intro fits
      constructor
      · rw [zero, cut]
        rcases fits n rfl with small | divides
        · exact .inr (by rw [Nat.mod_eq_of_lt small])
        · exact .inl (Nat.mod_eq_zero_of_dvd divides)
      · rintro _ same small
        obtain rfl := Option.some.inj same
        rw [cut, Nat.mod_eq_of_lt small]

end

theorem cut_positionAt (name : String) (message : Json) :
    Cut (naturalAt name message) (positionAt name message) :=
  ⟨toNat_positionAt name message, faithful_iff (toNat_positionAt name message)⟩

theorem cut_issueOf (kind : Kind) (message : Json) :
    Cut (naturalAt "line" message) (kind.issueOf message).line ∧
      Cut (naturalAt "column" message) (kind.issueOf message).column := by
  cases kind with
  | pylint => exact ⟨cut_positionAt _ _, cut_positionAt _ _⟩
  | eslint => exact ⟨cut_positionAt _ _, cut_positionAt _ _⟩

/-- **Lines and columns of issues are those that their messages give, cut to 32 bits.** So a position is
faithful exactly if the message gives none, one that fits, or one of which zero is left. -/
theorem positions_cut {kind : Kind} {items messages : List Json} (held : Messages kind items messages) :
    ∃ issues, kind.issues? (settled (.array items)) = some issues ∧
      List.Forall₂ (fun message issue =>
        Cut (naturalAt "line" message) issue.line ∧ Cut (naturalAt "column" message) issue.column)
        messages issues := by
  refine ⟨_, issues?_array held, ?_⟩
  rw [List.forall₂_map_right_iff, List.forall₂_same]
  exact fun message _ => cut_issueOf kind message

/-- A line that fits beside a column that is cut to zero, and a message that gives neither. -/
theorem positions_cut_of_two_messages :
    let messages := [.object [("line", .int 7), ("column", .int 0x100000000)], .object [("line", .int (-7))]]
    Messages .eslint [.object [("messages", .array messages)]] messages ∧
      ∃ issues, Kind.eslint.issues? (settled (.array [.object [("messages", .array messages)]])) = some issues ∧
        List.Forall₂ (fun message issue =>
          Cut (naturalAt "line" message) issue.line ∧ Cut (naturalAt "column" message) issue.column)
          messages issues := by
  intro messages
  have held : Messages .eslint [.object [("messages", .array messages)]] messages := .file [] rfl
  exact ⟨held, positions_cut held⟩

/-- A line that does not fit becomes the first one, which the message does not give. -/
theorem line_invented :
    let message := .object [("line", .int 0x100000001)]
    Messages .pylint [message] [message] ∧ naturalAt "line" message = some 0x100000001 ∧
      (Kind.pylint.issues? (settled (.array [message]))).map (·.map (·.line)) = some [1] ∧
      ¬ Faithful (naturalAt "line" message) 1 := by
  intro message
  have given : naturalAt "line" message = some 0x100000001 := by decide +kernel
  refine ⟨.pylint _, given, by decide +kernel, ?_⟩
  rw [given]
  rintro ⟨none_left | all, -⟩
  · exact absurd none_left (by decide)
  · exact absurd all (by decide)

end SnippetAudit.Linter
