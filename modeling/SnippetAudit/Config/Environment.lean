import SnippetAudit.Config.Basic

/-!
Environment variables that override the configuration.

A variable that is not set, or whose text is no value, changes nothing.
-/

namespace SnippetAudit

namespace Text

/-- The number that ASCII digits stand for. -/
def decimalValue (ds : List Char) : Nat := ds.foldl (fun n d => n * 10 + (d.toNat - '0'.toNat)) 0

/-- The number below `2^64` that a text stands for: an optional plus sign and digits, with blanks
around them. -/
def wordNumber? (text : String) : Option Nat :=
  let trimmed := dropEndBlanks (dropBlanks text.toList)
  let ds := match trimmed with
    | '+' :: rest => rest
    | rest => rest
  if ds.isEmpty || !ds.all isAsciiDigit then none
  else if decimalValue ds < 0x10000000000000000 then some (decimalValue ds) else none

/-- The truth value that a word stands for, whatever its case and the blanks around it. -/
def truthValue? (text : String) : Option Bool :=
  let word := lower (trim text)
  if ["true", "1", "yes", "on"].contains word then some true
  else if ["false", "0", "no", "off"].contains word then some false
  else none

end Text

namespace Config

/-- The texts of environment variables by name. -/
abbrev Environment := String → Option String

/-- The number that a variable stands for. -/
def numberIn (env : Environment) (name : String) : Option Nat := (env name).bind Text.wordNumber?

/-- Override a configuration by environment variables. -/
def override (env : Environment) (c : Config) : Config :=
  { c with
    analysis := {
      timeout := (numberIn env "CODEVIBE_ANALYSIS_TIMEOUT").getD c.analysis.timeout
      maxLength := (numberIn env "CODEVIBE_MAX_CODE_LENGTH").getD c.analysis.maxLength }
    model := { c.model with
      enabled := ((env "CODEVIBE_ML_ENABLED").bind Text.truthValue?).getD c.model.enabled
      idleTimeout := (numberIn env "CODEVIBE_ML_IDLE_TIMEOUT").getD c.model.idleTimeout
      maxTokens := (numberIn env "CODEVIBE_ML_MAX_CODE_LENGTH").getD c.model.maxTokens } }

end Config

end SnippetAudit
