import SnippetAudit.Fix.Battery.Script
import SnippetAudit.Fix.Edit

/-!
Proposing fixes with consecutive numbers, and applying all that may be applied without being asked
for.

After every fix that is applied the proposals are made anew. A fix that breaks a well-formed text is
rejected, and never tried again on the same lines.
-/

namespace SnippetAudit.Fix

/-- Whether a fix like the proposed one was rejected before. -/
def isRejected (rejected : List Fix) (p : Proposal) : Bool :=
  rejected.any fun f => f.title = p.title && f.before = p.before

/-- What came of trying the proposals for one text. -/
structure Trial where
  /-- The first fix that could be applied, and the text with it. -/
  applied : Option (Fix × String)
  rejected : List Fix
  counter : Nat

/-- A text after automatic fixes, with the fixes that were applied and those that were rejected. -/
structure AutoOutcome where
  code : String
  applied : List Fix
  rejected : List Fix
  /-- The number of the last fix that was proposed. -/
  counter : Nat

section Loop

/- What is proposed for a text, and whether a text may be the result of a fix. -/
variable (propose : String → List Proposal) (accepts : String → Bool)

/-- Try the proposals for a text one after the other until one can be applied. Before each attempt,
and once more when all failed, every proposal gets a new number; `index` counts the proposals in
front of the ones that are left, and `total` all of them. -/
def tryEach (code : String) (total : Nat) :
    Nat → Nat → List Fix → List Proposal → Except EditError Trial
  | counter, _, rejected, [] => .ok ⟨none, rejected, counter + total⟩
  | counter, index, rejected, p :: rest =>
    if !p.automatic || isRejected rejected p then
      tryEach code total counter (index + 1) rejected rest
    else
      let fix := p.toFix (counter + index + 1)
      match apply code fix with
      | .error e => .error e
      | .ok fixed =>
        if !accepts fixed then
          tryEach code total (counter + total) (index + 1) (rejected ++ [fix]) rest
        else if fixed = code then .ok ⟨none, rejected, counter + total⟩
        else .ok ⟨some (fix, fixed), rejected, counter + total⟩

/-- Apply at most as many fixes as the first argument says. -/
def autoWithin : Nat → Nat → List Fix → String → Except EditError AutoOutcome
  | 0, counter, rejected, code => .ok ⟨code, [], rejected, counter⟩
  | most + 1, counter, rejected, code => do
    let ps := propose code
    let trial ← tryEach accepts code ps.length counter 0 rejected ps
    match trial.applied with
    | none => .ok ⟨code, [], trial.rejected, trial.counter⟩
    | some (fix, fixed) =>
      let outcome ← autoWithin most trial.counter trial.rejected fixed
      .ok { outcome with applied := fix :: outcome.applied }

end Loop

/-- The most fixes that are applied in one run. -/
def autoLimit : Nat := 10000

section Reader

variable (read : Python.Reader)

/-- The fixes for a text; Python is read by `read`. -/
def proposalsBy (language : Language) (code : String) : List Proposal :=
  match language with
  | .python => Battery.python read code
  | .javascript | .typescript => Battery.script code
  | .java | .cpp => []

/-- The fixes for a text, numbered behind `counter`, and the number of the last; Python is read by
`read`. -/
def generateBy (counter : Nat) (code : String) (language : Language) : List Fix × Nat :=
  let ps := proposalsBy read language code
  (Proposal.numbered counter ps, counter + ps.length)

/-- Whether a text may be the result of a fix: any may unless fixes are checked. -/
def acceptsBy (check : Bool) (language : Language) (fixed : String) : Bool :=
  !check || isValidBy read fixed language

/-- Apply fixes to a text until none is left; Python is read by `read`. Fixes are checked only if the
text is well formed to begin with. -/
def autoBy (counter : Nat) (code : String) (language : Language) : Except EditError AutoOutcome :=
  autoWithin (proposalsBy read language) (acceptsBy read (isValidBy read code language) language)
    autoLimit counter [] code

end Reader

/-- The fixes for a text, numbered behind `counter`, and the number of the last. -/
def generate : Nat → String → Language → List Fix × Nat := generateBy Python.readTree

/-- Apply fixes to a text until none is left. Fixes are checked only if the text is well formed to
begin with. -/
def auto : Nat → String → Language → Except EditError AutoOutcome := autoBy Python.readTree

end SnippetAudit.Fix
