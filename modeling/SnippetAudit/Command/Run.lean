import SnippetAudit.Command.Invocation
import SnippetAudit.Command.Machine
import SnippetAudit.Config.Writer
import SnippetAudit.Report.Terminal
import SnippetAudit.Service
import SnippetAudit.Style.Recommend

/-!
Carrying out a command.

A command writes its files first and then says what it did, so what it says is a value. The
configuration is the file that was asked for, or else the first readable one of the project's and
the user's, or else the default.
-/

namespace SnippetAudit.Command

/-! ### Failures -/

/-- Why a command failed. -/
inductive Failure where
  | configUnreadable (e : FileError)
  /-- The file is no configuration. -/
  | configInvalid
  | unreadable (path : String) (e : FileError)
  | unwritable (path : String) (e : FileError)
  | reportUnwritable (path : String) (e : FileError)
  | configUnwritable (path : String) (e : FileError)
  | profileUnwritable (path : String) (e : FileError)
  | profileWithoutDirectory (path : String) (e : FileError)
  | tooLongToFix (path : String) (e : Config.TooLong)
  | tooLongToLearn (path : String) (e : Config.TooLong)
  | unfixable (path : String) (e : Fix.EditError)
  | nothingAnalyzed
  deriving DecidableEq, Repr

/-- The wording of a failure, with its causes. -/
def Failure.message : Failure → String
  | configUnreadable e =>
    "Failed to load configuration: IO error: " ++ e.message ++ ": " ++ e.message
  | configInvalid => "Failed to load configuration"
  | unreadable path e => "Failed to read " ++ path ++ ": " ++ e.message
  | unwritable path e => "Failed to write " ++ path ++ ": " ++ e.message
  | reportUnwritable path e => "Failed to write report to " ++ path ++ ": " ++ e.message
  | configUnwritable path e => "Failed to create " ++ path ++ ": " ++ e.message
  | profileUnwritable path e =>
    "Failed to save profile to " ++ path ++ ": IO error: " ++ e.message ++ ": " ++ e.message
  | profileWithoutDirectory path e =>
    "Failed to save profile to " ++ path ++ ": create profile directory: " ++ e.message ++ ": "
      ++ e.message
  | tooLongToFix path e => "Cannot fix " ++ path ++ ": " ++ e.message
  | tooLongToLearn path e => "Cannot learn style from " ++ path ++ ": " ++ e.message
  | unfixable path e => "Failed to apply fixes to " ++ path ++ ": " ++ e.message
  | nothingAnalyzed => "No files could be analyzed"

/-- What a command says in the end. -/
structure Ending where
  stdout : String := ""
  stderr : String := ""
  failure : Option Failure := none

/-- The end of a command that did what it was asked for. -/
def Ending.said (stdout : String) : Ending := { stdout }

/-- The end of a command that did nothing. -/
def Ending.failed (e : Failure) : Ending := { failure := some e }

variable {m : Type → Type} [Monad m]

/-! ### Input -/

/-- The name of the file with a project's configuration. -/
def configName : String := "codevibe.toml"

/-- The first of some files that is a configuration, or the default. -/
def firstConfig (host : Machine m) : List String → m Config
  | [] => return {}
  | path :: rest => do
    match ((← host.readText path).toOption.bind Config.ofToml?) with
    | some c => return c
    | none => firstConfig host rest

/-- The configuration, before environment variables override it. -/
def readConfig (host : Machine m) : Option String → m (Except Failure Config)
  | none => return .ok (← firstConfig host (configName :: (userConfigPath? host.environment).toList))
  | some path => do
    match ← host.readText path with
    | .error e => return .error (.configUnreadable e)
    | .ok text =>
      match Config.ofToml? text with
      | some c => return .ok c
      | none => return .error .configInvalid

/-- The hint for the language of a file: what was asked for, or else what the extension says. -/
def hintFor (path : String) (asked : Option String) : Option String :=
  asked.or (((extension? path).bind fun e => Language.ofExtension? (Text.lower e)).map (·.name))

/-! ### Commands -/

/-- Write a configuration, unless there is one. -/
def createConfig (host : Machine m) (force : Bool) : m Ending := do
  let path := joinPath "." configName
  if (← host.present path) && !force then
    return .said ("✓ Already initialized at " ++ path ++ " (use --force to overwrite)\n")
  else
    match ← host.writeText path Config.template with
    | .error e => return .failed (.configUnwritable path e)
    | .ok () =>
      return .said ("✓ Created " ++ configName ++ "\n\nNext steps:\n"
        ++ "  codevibe analyze <file> Analyze a file\n  codevibe fix <file> Review fixes\n")

/-- Print the language of a file. -/
def detect (host : Machine m) (path : String) (language : Option String) : m Ending := do
  match ← host.readText path with
  | .error e => return .failed (.unreadable path e)
  | .ok code => return .said ((Language.detect code (hintFor path language)).name ++ "\n")

/-- Analyze files one after the other with one service. -/
def analyzeAll (host : Machine m) (language : Option String) :
    Service → List String → m (List Report.File)
  | _, [] => return []
  | s, path :: rest => do
    match ← host.readText path with
    | .error e =>
      return .ofError path (Failure.unreadable path e).message :: (← analyzeAll host language s rest)
    | .ok code =>
      match s.submit host.linter 0 code (hintFor path language) with
      | .error e => return .ofError path e.message :: (← analyzeAll host language s rest)
      | .ok (submission, s) =>
        return .ofSubmission path submission :: (← analyzeAll host language s rest)

/-- Report on some files. -/
def analyze (host : Machine m) (c : Config) (paths : List String) (language : Option String)
    (format : Report.Format) (lint : Bool) (output : Option String) : m Ending := do
  let files ← analyzeAll host language { Service.new c with lint } paths
  let failure := if files.all (·.error.isSome) then some Failure.nothingAnalyzed else none
  let text := Report.render files format
  match output with
  | none => return { stdout := text ++ "\n", failure }
  | some path =>
    match ← host.writeText path text with
    | .error e => return .failed (.reportUnwritable path e)
    | .ok () => return { stderr := "✓ Report written to " ++ path ++ "\n", failure }

/-- What is said about fixes that were applied. -/
def appliedText (path : String) (o : Fix.AutoOutcome) : String :=
  let head :=
    if o.applied.isEmpty then "✓ No auto-applicable fixes for " ++ path ++ "\n"
    else "\n✓ Applied " ++ toString o.applied.length ++ " fixes to " ++ path ++ "\n"
  head ++ String.join (o.applied.map fun f => "  " ++ f.id ++ " " ++ f.title ++ "\n")
    ++ String.join (o.rejected.map fun f => "  ! skipped " ++ f.title ++ " (result did not parse)\n")

/-- Apply fixes to a file. It is written only if some fix was applied. -/
def applyFixes (host : Machine m) (path code : String) (language : Language)
    (format : Report.Format) : m Ending := do
  match Fix.auto 0 code language with
  | .error e => return .failed (.unfixable path e)
  | .ok o =>
    let written ← if o.applied.isEmpty then pure (.ok ()) else host.writeText path o.code
    match written with
    | .error e => return .failed (.unwritable path e)
    | .ok () =>
      match format with
      | .json => return .said (Report.renderFixes ⟨path, o.applied⟩ .json ++ "\n")
      | .text => return .said (appliedText path o)

/-- List the fixes for a file, or apply them. -/
def fix (host : Machine m) (c : Config) (path : String) (language : Option String) (apply : Bool)
    (format : Report.Format) : m Ending := do
  match ← host.readText path with
  | .error e => return .failed (.unreadable path e)
  | .ok code =>
    match c.analysis.check code with
    | .error e => return .failed (.tooLongToFix path e)
    | .ok () =>
      let language := Language.detect code (hintFor path language)
      if apply then applyFixes host path code language format
      else
        let fixes := (Fix.generate 0 code language).1
        return .said (Report.renderFixes ⟨path, fixes⟩ format ++ "\n")

/-! ### Style -/

/-- What is known about the style of a file, and how it differs from a profile. -/
structure Comparison where
  language : Language
  patterns : Style.Patterns
  recommendations : List Style.Recommendation
  /-- The profile, with the file if it was added. -/
  profile : Style.Profile

namespace Comparison

/-- A comparison as JSON. -/
def json (c : Comparison) : Json := .object [
  ("language", Json.encode c.language), ("patterns", Json.encode c.patterns),
  ("recommendations", Json.encode c.recommendations),
  ("profile_confidence", Json.encode c.profile.overallConfidence)]

/-- A recommendation as a line. -/
def recommendationLine (r : Style.Recommendation) : String :=
  "  • " ++ r.description ++ " (currently " ++ r.current ++ ", confidence "
    ++ Decimal.fixed 1 r.confidence ++ ")\n"

/-- A comparison as text. -/
def text (c : Comparison) : String :=
  "\nStyle patterns (" ++ c.language.name ++ ")\n  naming       " ++ c.patterns.naming.name
    ++ "\n  indentation  " ++ c.patterns.indentation.display
    ++ "\n  quotes       " ++ c.patterns.quotes.name
    ++ "\n  line length  " ++ toString c.patterns.lineLength
    ++ "\n  comments     " ++ c.patterns.comments.name
    ++ "\n  imports      " ++ c.patterns.imports.name ++ "\n"
    ++ (if c.recommendations.isEmpty then "\n✓ Matches the stored profile\n"
      else "\nRecommendations\n" ++ String.join (c.recommendations.map recommendationLine))

/-- What is said when the file was added to the profile. -/
def updateText (c : Comparison) (user path : String) : String :=
  "\n✓ Profile '" ++ user ++ "' updated (" ++ Decimal.fixed 0 (c.profile.overallConfidence * 100)
    ++ "% confident): " ++ path ++ "\n"

end Comparison

/-- Write a profile, with the directory that it lies in. -/
def saveProfile (host : Machine m) (path : String) (p : Style.Profile) : m (Except Failure Unit) := do
  let made ← match parentPath? path with
    | some directory => host.makeDirectory directory
    | none => pure (.ok ())
  match made with
  | .error e => return .error (.profileWithoutDirectory path e)
  | .ok () =>
    match ← host.writeText path (p.file (← host.time)) with
    | .error e => return .error (.profileUnwritable path e)
    | .ok () => return .ok ()

/-- Compare the style of a file with a profile, and perhaps add it. -/
def style (host : Machine m) (c : Config) (path : String) (language profile : Option String)
    (user : String) (update : Bool) (format : Report.Format) : m Ending := do
  match ← host.readText path with
  | .error e => return .failed (.unreadable path e)
  | .ok code =>
    match c.analysis.check code with
    | .error e => return .failed (.tooLongToLearn path e)
    | .ok () =>
      let language := Language.detect code (hintFor path language)
      let patterns := Style.extract code language
      let file := profile.getD (profilePath host.environment user)
      let known := ((← host.readText file).toOption.bind Style.Profile.ofFile?).getD (.new user)
      let comparison : Comparison :=
        { language, patterns
          recommendations := Style.recommend patterns known
          profile := if update then known.merge patterns else known }
      let saved ← if update then saveProfile host file comparison.profile else pure (.ok ())
      match saved with
      | .error e => return .failed e
      | .ok () =>
        match format with
        | .json => return .said (comparison.json.pretty ++ "\n")
        | .text =>
          return .said (comparison.text ++ if update then comparison.updateText user file else "")

/-! ### Everything -/

/-- Carry out a command with a given configuration. -/
def carryOut (host : Machine m) (c : Config) : Action → m Ending
  | .detect path language => detect host path language
  | .analyze paths language format lint output => analyze host c paths language format lint output
  | .fix path language apply format => fix host c path language apply format
  | .style path language profile user update format =>
    style host c path language profile user update format
  | .init force => createConfig host force

/-- Carry out a command. Writing a configuration is the one that needs none. -/
def run (host : Machine m) (i : Invocation) : m Ending := do
  match i.action with
  | .init force => createConfig host force
  | action =>
    match ← readConfig host i.config with
    | .error e => return .failed e
    | .ok c => carryOut host (c.override host.environment) action

end SnippetAudit.Command
