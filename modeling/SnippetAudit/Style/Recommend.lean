import SnippetAudit.Style.Extract
import SnippetAudit.Style.Profile

/-!
Recommendations: where the style of a snippet differs from a user's profile.
-/

namespace SnippetAudit.Style

/-- A difference between a snippet and a profile. -/
structure Recommendation where
  line : Nat
  kind : String
  current : String
  preferred : String
  description : String
  confidence : Float
  deriving DecidableEq

instance : Json.Coded Recommendation where
  encode r := .object [
    ("line_number", Json.encode r.line), ("recommendation_type", Json.encode r.kind),
    ("current_style", Json.encode r.current), ("preferred_style", Json.encode r.preferred),
    ("description", Json.encode r.description), ("confidence", Json.encode r.confidence)]
  decode j := do
    let r ← Json.row? ["line_number", "recommendation_type", "current_style", "preferred_style",
      "description", "confidence"] j
    some {
      line := ← r.required "line_number"
      kind := ← r.required "recommendation_type"
      current := ← r.required "current_style"
      preferred := ← r.required "preferred_style"
      description := ← r.required "description"
      confidence := ← r.required "confidence" }

/-- The traits on which recommendations are made, with their confidence. -/
def recommended : List (Trait × Float) := [(.naming, 0.7), (.indentation, 0.9), (.quotes, 0.6)]

/-- The kind of a recommendation on a trait, and its words for the preferred value. -/
def advice (t : Trait) (preferred : Value) : String × String :=
  match t, preferred with
  | .indentation, .indentation i =>
    ("indentation", "Your usual indentation is " ++ toString i.size ++ " " ++ i.kind.name)
  | .indentation, other => ("indentation", "Your usual indentation is " ++ other.display)
  | .quotes, _ => ("quote_style", "You typically use " ++ preferred.display ++ " quotes")
  | _, _ =>
    ("naming_convention", "Consider using " ++ preferred.display ++ " to match your usual style")

/-- The recommendation on one trait, if the snippet differs from the profile. -/
def recommendOn (current : Patterns) (p : Profile) (t : Trait) (confidence : Float) :
    Option Recommendation := do
  let entry ← p.entries t
  let observed := current.value t
  if observed = entry.value then none
  else
    let (kind, description) := advice t entry.value
    some {
      line := 1
      kind
      current := observed.display
      preferred := entry.value.display
      description
      confidence }

/-- The recommendations for a snippet of the given style. -/
def recommend (current : Patterns) (p : Profile) : List Recommendation :=
  recommended.filterMap fun (t, confidence) => recommendOn current p t confidence

end SnippetAudit.Style
