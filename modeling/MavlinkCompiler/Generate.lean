import MavlinkCompiler.Storage.Transaction
import MavlinkCompiler.Target.Rendering

/-!
# Generation

A whole run: definition files are read from a directory tree, joined into a model, rendered in one
language, and written below an output directory of the same tree. The settings are looked at before
anything is read, and nothing is written unless every step before has succeeded. Rendering appends
to texts in memory, so the failure `Fmt` of it cannot happen and is left out.

* `Settings.check`: whether a run can start.
* `generateUnder`: the tree after a run in which the operating system may refuse steps, and the
  paths written or the failure.
* `generate`: the same when it refuses none.
-/

namespace MavlinkCompiler

open Storage (Cause Faults Path Tree WriteError)

/-- Why a run cannot start: `ConfigError`. -/
inductive SettingsError where
  | noSources
  | noOutput
  | unknownLanguage (name : String)
  deriving DecidableEq, Repr

/-- The text shown for settings that a run cannot start with. -/
def SettingsError.message : SettingsError → String
  | noSources => "XML input files should be specified"
  | noOutput => "Output directory should be specified"
  | unknownLanguage name => "Invalid language specified: " ++ name

/-- What a run needs to know: `GeneratorConfig`. -/
structure Settings where
  sources : List Path
  output : Option Path
  language : Language
  scoping : Scoping
  deriving DecidableEq

/-- The output directory, if a run can start: `validate`. -/
def Settings.check (settings : Settings) : Except SettingsError Path :=
  if settings.sources.isEmpty then
    .error .noSources
  else
    match settings.output with
    | some output => .ok output
    | none => .error .noOutput

/-- The language with a name. -/
def chooseLanguage (name : String) : Except SettingsError Language :=
  match Language.ofName? name with
  | some language => .ok language
  | none => .error (.unknownLanguage name)

/-- Why a file could not be read as text. -/
inductive ReadCause where
  | storage (cause : Cause)
  | notText
  deriving DecidableEq, Repr

/-- The text shown for a file that could not be read. -/
def ReadCause.message : ReadCause → String
  | storage cause => cause.message
  | notText => "stream did not contain valid UTF-8"

/-- Why a run failed: `GenError`. -/
inductive Failure where
  | settings (error : SettingsError)
  | read (path : Path) (cause : ReadCause)
  | schema (error : Schema.Error)
  | write (error : WriteError)
  deriving DecidableEq

/-- What stands behind a failed write. -/
def storageMessage (cause : Cause) (temporary : Option String) : String :=
  match temporary with
  | some path => cause.message ++ " at path \"" ++ path ++ "\""
  | none => cause.message

/-- The text shown for a failed run. -/
def Failure.message : Failure → String
  | settings error => error.message
  | read path cause => "Cannot read " ++ path.text ++ ": " ++ cause.message
  | schema error => error.message
  | write (.storage cause temporary) => "IO: " ++ storageMessage cause temporary
  | write (.occupied destination) =>
    "Cannot finalize " ++ destination.text ++ ": destination is a directory"
  | write (.unmovable destination cause) =>
    "Cannot finalize " ++ destination.text ++ ": " ++ cause.message

/-- The cause behind a failure, if the operating system gave one. -/
def Failure.cause? : Failure → Option String
  | read _ cause => some cause.message
  | write (.storage cause temporary) => some (storageMessage cause temporary)
  | _ => none

/-! ## A run -/

/-- Reads a definition file: one round of the loop of `generate`. -/
def readSource (faults : Faults) (tree : Tree) (path : Path) : Except Failure Source :=
  match faults.guard (.read path) (tree.read path) with
  | .error cause => .error (.read path (.storage cause))
  | .ok contents =>
    match String.fromUTF8? contents with
    | some text => .ok ⟨path.text, text⟩
    | none => .error (.read path .notText)

/-- The files that a run writes, and the directory they go to: `generate` without its last step. -/
def plan (faults : Faults) (tree : Tree) (settings : Settings) :
    Logged Failure (Path × List Artifact) := do
  let output ← .lift (settings.check.mapError Failure.settings)
  let sources ← .lift (settings.sources.mapM (readSource faults tree))
  let model ← (Model.load settings.scoping sources).mapError Failure.schema
  let artifacts ← model.render settings.language
  pure (output, artifacts)

/-- A tree after a run, and what came of the run. -/
structure Generated where
  tree : Tree
  result : Logged Failure (List Path)

/-- Runs a generation in which some steps may be refused (`generate`). -/
def generateUnder (faults : Faults) (tree : Tree) (settings : Settings) : Generated :=
  let planned := plan faults tree settings
  match planned.outcome with
  | .error failure => ⟨tree, ⟨planned.events, .error failure⟩⟩
  | .ok (output, artifacts) =>
    let written := Storage.writeUnder faults tree output artifacts
    ⟨written.tree, do
      let _ ← planned
      let paths ← written.result.mapError Failure.write
      Logged.emit (.wroteArtifacts paths.length output.text)
      pure paths⟩

/-- Runs a generation in which no step is refused. -/
def generate (tree : Tree) (settings : Settings) : Generated :=
  generateUnder .none tree settings

end MavlinkCompiler
