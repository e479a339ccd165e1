import SnippetAudit.Embedding.Slot

/-!
Slots whose backend always gives the same.

Such a slot is steady: it holds nothing, or the model that every load would give. Embedding a text and
cleaning up keep it so. Hence what it answers does not depend on when the model was loaded, used or
unloaded, nor on whether it is loaded now (`Steady.embed_fst`).
-/

namespace SnippetAudit.Embedding.Slot

/-- The vector in an answer. -/
def Answer.vector? : Answer → Option Vector
  | vector v => some v
  | none | crashed => .none

/-- A slot that holds nothing, or what its backend gives whenever it is asked. -/
structure Steady (enabled : Bool) (load : Load) (s : Slot) : Prop where
  enabled : s.enabled = enabled
  backend : ∀ n, s.backend n = load
  phase : s.phase = .unloaded ∨ ∃ m lastUsed, load = .model m ∧ s.phase = .loaded m lastUsed

/-- What a steady slot answers. -/
def steadyAnswer (code : String) (enabled : Bool) : Load → Answer
  | .model m => if enabled then answer m code else .none
  | .failed => .none
  | .crashed => if enabled then .crashed else .none

/-- A slot that is steady with the model of a configuration. -/
def SteadyWith (hash : List Char → UInt64) (c : Config.Model) (s : Slot) : Prop :=
  s.Steady c.enabled (tokenBackend hash c.dimensions c.maxTokens 0)

/-- A new slot is steady. -/
theorem steady_standardBy (hash : List Char → UInt64) (c : Config.Model) :
    (standardBy hash c).SteadyWith hash c :=
  ⟨rfl, fun _ => rfl, .inl rfl⟩

section Steady

variable {s : Slot} {enabled : Bool} {load : Load} (steady : s.Steady enabled load) (now : Nat)
  (code : String)

include steady

/-- **A steady slot answers as if nothing had happened before.** -/
theorem Steady.embed_fst : (s.embed now code).1 = steadyAnswer code enabled load := by
  rw [embed, steady.enabled]
  cases enabled with
  | false => cases load <;> rfl
  | true =>
    rcases steady.phase with phase | ⟨m, lastUsed, rfl, phase⟩
    · simp only [phase, Phase.claim, steady.backend]
      cases load <;> rfl
    · simp only [phase, Phase.claim]
      rfl

theorem Steady.embed_snd : (s.embed now code).2.Steady enabled load := by
  rw [embed]
  split
  · exact steady
  · rcases steady.phase with phase | ⟨m, lastUsed, rfl, phase⟩
    · simp only [phase, Phase.claim, steady.backend]
      cases load with
      | model m => exact ⟨steady.enabled, steady.backend, .inr ⟨m, now, rfl, rfl⟩⟩
      | failed => exact ⟨steady.enabled, steady.backend, .inl rfl⟩
      | crashed => exact ⟨steady.enabled, steady.backend, .inl rfl⟩
    · simp only [phase, Phase.claim]
      exact ⟨steady.enabled, steady.backend, .inr ⟨m, now, rfl, rfl⟩⟩

theorem Steady.unload_snd : s.unload.2.Steady enabled load := by
  rw [unload]
  rcases steady.phase with phase | ⟨m, lastUsed, rfl, phase⟩
  · simp only [phase, Phase.take]
    exact ⟨steady.enabled, steady.backend, .inl rfl⟩
  · simp only [phase, Phase.take]
    exact ⟨steady.enabled, steady.backend, .inl rfl⟩

theorem Steady.cleanup_snd : (s.cleanup now).2.Steady enabled load := by
  rw [Slot.cleanup]
  split
  · exact steady.unload_snd
  · exact steady

end Steady

end SnippetAudit.Embedding.Slot
