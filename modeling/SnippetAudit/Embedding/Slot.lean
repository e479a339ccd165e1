import SnippetAudit.Config.Basic
import SnippetAudit.Embedding.Hash
import SnippetAudit.Embedding.Vector

/-!
The slot that holds the embedding model.

The model is loaded when it is first needed and unloaded when it was idle for too long. A slot is
shared, so each operation is made of sections that change the phase in one go: a load is claimed and
its outcome is published, and a model is taken out before the slot is empty again. In between, the
phase keeps others from interfering.
-/

namespace SnippetAudit.Embedding

/-- A loaded model: it embeds a text, or fails. -/
abbrev Model := String → Option Vector

/-- What comes of loading a model. -/
inductive Load where
  | model (m : Model)
  | failed
  | crashed

/-- Where models come from: what the `n`-th attempt to load one gives. -/
abbrev Backend := Nat → Load

/-- The backend that loads models which count tokens by a hash. Vectors need a dimension. -/
def tokenBackend (hash : List Char → UInt64) (dimensions maxTokens : Nat) : Backend := fun _ =>
  if dimensions = 0 then .failed else .model fun code => some (embed hash dimensions maxTokens code)

/-- What a slot holds. -/
inductive Phase where
  | unloaded
  | loading
  | loaded (m : Model) (lastUsed : Nat)
  | evicting

namespace Phase

/-! ### Sections -/

/-- What a caller finds that needs a model. -/
inductive Claim where
  | ready (m : Model)
  /-- The caller has to load the model. -/
  | load
  /-- The caller has to wait for another one. -/
  | wait

/-- Ask for the model at a time. -/
def claim (now : Nat) : Phase → Claim × Phase
  | loaded m _ => (.ready m, loaded m now)
  | unloaded => (.load, loading)
  | loading => (.wait, loading)
  | evicting => (.wait, evicting)

/-- Publish what came of a load. -/
def publish (now : Nat) : Load → Phase
  | .model m => loaded m now
  | .failed | .crashed => unloaded

/-- Whether the model was idle for longer than the timeout. -/
def isIdle (timeout now : Nat) : Phase → Bool
  | loaded _ lastUsed => timeout < now - lastUsed
  | _ => false

/-- Take the model out, if there is one. -/
def take : Phase → Bool × Phase
  | loaded _ _ => (true, evicting)
  | other => (false, other)

/-- The slot behind an eviction. -/
def reset : Phase := unloaded

end Phase

/-- A slot with its backend. Times are in milliseconds. -/
structure Slot where
  backend : Backend
  enabled : Bool
  idleTimeout : Nat
  phase : Phase := .unloaded
  /-- How often the backend was asked to load. -/
  loads : Nat := 0

namespace Slot

/-- The slot that a configuration describes, with a given backend. -/
def new (backend : Backend) (c : Config.Model) : Slot :=
  { backend, enabled := c.enabled, idleTimeout := 1000 * c.idleTimeout }

/-- The slot that a configuration describes, with models that count tokens by a given hash. -/
def standardBy (hash : List Char → UInt64) (c : Config.Model) : Slot :=
  new (tokenBackend hash c.dimensions c.maxTokens) c

/-- The slot that a configuration describes. -/
def standard : Config.Model → Slot := standardBy Hash.ofChars

/-- What embedding a text gives. -/
inductive Answer where
  | vector (v : Vector)
  | none
  | crashed

/-- Embed a text with a model. -/
def answer (m : Model) (code : String) : Answer :=
  match m code with
  | some v => .vector v
  | .none => .none

/-- Embed a text. -/
def embed (now : Nat) (code : String) (s : Slot) : Answer × Slot :=
  if !s.enabled then (.none, s)
  else match s.phase.claim now with
    | (.ready m, phase) => (answer m code, { s with phase })
    | (.wait, phase) => (.none, { s with phase })
    | (.load, _) =>
      let outcome := s.backend s.loads
      let s := { s with phase := .publish now outcome, loads := s.loads + 1 }
      match outcome with
      | .model m => (answer m code, s)
      | .failed => (.none, s)
      | .crashed => (.crashed, s)

/-- Unload the model, and tell whether there was one. -/
def unload (s : Slot) : Bool × Slot :=
  match s.phase.take with
  | (true, _) => (true, { s with phase := .reset })
  | (false, phase) => (false, { s with phase })

/-- Unload the model if it was idle for too long, and tell whether it was unloaded. -/
def cleanup (now : Nat) (s : Slot) : Bool × Slot :=
  if s.phase.isIdle s.idleTimeout now then s.unload else (false, s)

end Slot

end SnippetAudit.Embedding
