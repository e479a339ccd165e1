import SnippetAudit.Embedding.Slot
import SnippetAudit.Finding.Scan
import SnippetAudit.Fix.Auto
import SnippetAudit.Linter.Registry
import SnippetAudit.Style.Extract
import SnippetAudit.Submission

/-!
The service that takes snippets through all stages of an analysis.

A service remembers the number of the last fix that it proposed, and what its embedding slot holds.
A snippet that is refused changes neither.
-/

namespace SnippetAudit

/-- A service with its state. -/
structure Service where
  config : Config
  registry : Linter.Registry
  /-- Whether linters are run. -/
  lint : Bool := true
  /-- The slot of the embedding model, unless the model is disabled. -/
  slot : Option Embedding.Slot
  /-- The number of the last fix. -/
  counter : Nat := 0
  /-- How the syntax trees of Python snippets are read. -/
  read : Python.Reader := Python.readTree

namespace Service

/-- The service that a configuration describes. -/
def new (c : Config) : Service :=
  { config := c
    registry := .standard c.linters.python c.linters.javascript (1000 * c.analysis.timeout)
    slot := if c.model.enabled then some (.standard c.model) else none }

/-- Why a snippet is refused. -/
inductive Refusal where
  | tooLong (e : Config.TooLong)
  | unserved (e : Linter.Unserved)
  deriving DecidableEq, Repr

/-- The wording of a refusal. -/
def Refusal.message : Refusal → String
  | tooLong e => e.message
  | unserved e => e.message

/-- The analysis of a snippet. Without linters only the counts are taken, if there is an analyzer to
take them. -/
def analyze (s : Service) (host : Linter.Host) (code : String) (language : Language) :
    Except Linter.Unserved (Option Analysis) :=
  match s.registry.get language, s.lint with
  | .ok a, true => .ok (some (a.analyze host code))
  | .ok a, false =>
    .ok (some { issues := [], metrics := a.kind.complexity code, language, error := none })
  | .error e, true => .error e
  | .error _, false => .ok none

/-- The embedding of a snippet, if the model gives one. -/
def embed (now : Nat) (code : String) (s : Service) : Option Embedding.Vector × Service :=
  match s.slot with
  | none => (none, s)
  | some slot =>
    match slot.embed now code with
    | (.vector v, slot) => (some v, { s with slot := some slot })
    | (_, slot) => (none, { s with slot := some slot })

/-- How similar two snippets are, if the model gives embeddings. -/
def similarity (now : Nat) (a b : String) (s : Service) : Option Float32 × Service :=
  match s.embed now a with
  | (none, s) => (none, s)
  | (some v, s) =>
    let (w, s) := s.embed now b
    (w.map (Embedding.similarity v), s)

/-- Unload the embedding model if it was idle for too long. -/
def cleanup (now : Nat) (s : Service) : Service :=
  { s with slot := s.slot.map fun slot => (slot.cleanup now).2 }

/-- The fixes for a snippet, numbered behind all earlier ones. -/
def generate (code : String) (language : Language) (s : Service) : List Fix × Service :=
  let (fixes, counter) := Fix.generateBy s.read s.counter code language
  (fixes, { s with counter })

/-- Take a snippet through all stages. A hint decides the language if it names one. -/
def submit (host : Linter.Host) (now : Nat) (code : String) (hint : Option String) (s : Service) :
    Except Refusal (Submission × Service) := do
  (s.config.analysis.check code).mapError .tooLong
  let language := Language.detect code hint
  let analysis ← (s.analyze host code language).mapError .unserved
  let bugs := Finding.bugs code language
  let (embedding, s) := s.embed now code
  let (fixes, s) := s.generate code language
  let issues := (analysis.map (·.issues)).getD []
  .ok ({ language
         analysis
         bugs
         smells := Finding.smells code
         weaknesses := Finding.weaknesses code language
         fixes
         style := Style.extractBy s.read code language
         score := Score.compute s.config.scoring issues bugs.length
         embedding },
       s.cleanup now)

end Service

end SnippetAudit
