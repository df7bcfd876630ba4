import MavlinkCompiler.Generate

/-!
# The command line

Arguments are read from left to right, and the first that decides decides: a request for help or for
the version, or a mistake. Options with a value take it after an equals sign or as the next
argument, which then must not look like an option. Only definition files can be given more than
once. An option that takes a path does not take the empty one. What is shown for a mistake is left
out, since the library that reads arguments words it.

* `Arguments.read`: what the arguments ask for.
* `report`: a failure with what was being done and the causes behind it.
* `CommandLine.run`: the program, from arguments and a directory tree to what it shows and leaves.
* `CommandLine.touched`: the part of a directory tree that the program depends on.
-/

namespace MavlinkCompiler

open Storage (Path Tree)

/-! ## Arguments -/

/-- What the arguments say. -/
structure Arguments where
  definitions : List String
  output : Option String
  language : Option String
  merge : Bool
  verbose : Bool
  deriving DecidableEq, Repr

/-- No arguments. -/
def Arguments.none : Arguments :=
  ⟨[], .none, .none, false, false⟩

/-- What the arguments ask for. -/
inductive Request where
  /-- A mistake in the arguments. -/
  | mistaken
  /-- Help or the version. -/
  | information
  /-- A run. -/
  | run (arguments : Arguments)
  deriving DecidableEq, Repr

/-- Sets an option that takes a value, unless it has one or cannot take this one. -/
def Arguments.setValue? (arguments : Arguments) (option value : String) : Option Arguments :=
  if option = "xml-def" then
    if value.isEmpty then .none
    else some { arguments with definitions := arguments.definitions ++ [value] }
  else if option = "output-dir" then
    if arguments.output.isSome || value.isEmpty then .none
    else some { arguments with output := some value }
  else if option = "lang" then
    if arguments.language.isSome then .none else some { arguments with language := some value }
  else
    .none

/-- Whether an option takes a value. -/
def takesValue (option : String) : Bool :=
  ["xml-def", "output-dir", "lang"].contains option

/-- Sets a flag, unless it is set. -/
def Arguments.setFlag? (arguments : Arguments) (flag : String) : Option Arguments :=
  if flag = "merge-extensions" then
    if arguments.merge then .none else some { arguments with merge := true }
  else if flag = "verbose" then
    if arguments.verbose then .none else some { arguments with verbose := true }
  else
    .none

/-- The flag that a letter stands for. -/
def flagOfLetter (letter : Char) : String :=
  if letter = 'v' then "verbose"
  else if letter = 'h' then "help"
  else if letter = 'V' then "version"
  else ""

/-- Whether a flag asks for information. -/
def isInformation (flag : String) : Bool :=
  ["help", "version"].contains flag

/-- Whether an argument is taken for an option. A single dash is not. -/
def looksLikeOption (argument : String) : Bool :=
  argument.toList.head? == some '-' && 1 < argument.toList.length

/-- An option's name and the value after an equals sign, if there is one. -/
def splitOption (option : List Char) : String × Option String :=
  match Text.cutAt? ['='] option with
  | some (name, value) => (String.ofList name, some (String.ofList value))
  | .none => (String.ofList option, .none)

/-- Sets the flags of a group of letters; a request for information ends it. -/
def Arguments.readLetters (arguments : Arguments) : List Char → Request
  | [] => .run arguments
  | letter :: letters =>
    let flag := flagOfLetter letter
    if isInformation flag then
      .information
    else
      match arguments.setFlag? flag with
      | some arguments => arguments.readLetters letters
      | .none => .mistaken

/-- What arguments ask for, given what those before them said. -/
def Arguments.readFrom (arguments : Arguments) : List String → Request
  | [] => .run arguments
  | argument :: rest =>
    match argument.toList with
    | ['-', '-'] => if rest.isEmpty then .run arguments else .mistaken
    | '-' :: '-' :: option =>
      let (name, value?) := splitOption option
      if takesValue name then
        match value? with
        | some value =>
          match arguments.setValue? name value with
          | some arguments => arguments.readFrom rest
          | .none => .mistaken
        | .none =>
          match rest with
          | [] => .mistaken
          | value :: rest =>
            if looksLikeOption value then
              .mistaken
            else
              match arguments.setValue? name value with
              | some arguments => arguments.readFrom rest
              | .none => .mistaken
      else if value?.isSome then
        .mistaken
      else if isInformation name then
        .information
      else
        match arguments.setFlag? name with
        | some arguments => arguments.readFrom rest
        | .none => .mistaken
    | '-' :: letter :: letters =>
      match arguments.readLetters (letter :: letters) with
      | .run arguments => arguments.readFrom rest
      | decided => decided
    | _ => .mistaken

/-- What the arguments of a command line ask for. -/
def Arguments.read (arguments : List String) : Request :=
  Arguments.none.readFrom arguments

/-! ## Reports -/

/-- A text whose lines after the first are indented. -/
def indentLines (indent text : String) : String :=
  ("\n" ++ indent).intercalate ((Text.splitWhere (· == '\n') text.toList).map String.ofList)

/-- The causes of a failure as lines: one is indented, several are numbered. -/
def causeLines (causes : List String) : List String :=
  match causes with
  | [cause] => ["    " ++ indentLines "    " cause]
  | causes => causes.mapIdx fun number cause =>
    "    " ++ toString number ++ ": " ++ indentLines "       " cause

/-- What is shown of a failure: what was being done, and the causes. -/
def report (activity : String) (failure : Failure) : String :=
  "Error: " ++ activity ++ "\n\nCaused by:\n" ++
    String.join ((causeLines (failure.message :: failure.cause?.toList)).map fun line =>
      line ++ "\n")

/-! ## The program -/

/-- The first failure of a run with what was being done. -/
structure Stop where
  activity : String
  failure : Failure
  deriving DecidableEq

/-- What a command line comes to. -/
inductive Conclusion where
  | mistaken
  | information
  | done (events : List Event)
  | failed (events : List Event) (stop : Stop)

/-- The exit status. -/
def Conclusion.status : Conclusion → Nat
  | mistaken => 2
  | information => 0
  | done _ => 0
  | failed _ _ => 1

namespace CommandLine

/-- The events that are shown: all of them only on request. -/
def shown (arguments : Arguments) (events : List Event) : List Event :=
  events.filter fun event => arguments.verbose || event.level != .debug

/-- The settings that arguments ask for in a language. -/
def settings (arguments : Arguments) (language : Language) : Settings where
  sources := arguments.definitions.map Path.ofText
  output := arguments.output.map Path.ofText
  language := language
  scoping := if arguments.merge then .merged else .separate

/-- Runs a generation with settings. -/
def runSettings (tree : Tree) (arguments : Arguments) (settings : Settings) : Tree × Conclusion :=
  match settings.check with
  | .error error => (tree, .failed [] ⟨"invalid arguments", .settings error⟩)
  | .ok _ =>
    let generated := generate tree settings
    let events := generated.result.events
    match generated.result.outcome with
    | .error failure =>
      (generated.tree, .failed (shown arguments events) ⟨"generation failed", failure⟩)
    | .ok paths =>
      let listed := paths.map fun path => Event.listedArtifact path.text
      (generated.tree, .done (shown arguments (events ++ listed)))

/-- Runs what arguments ask for. -/
def runArguments (tree : Tree) (arguments : Arguments) : Tree × Conclusion :=
  match chooseLanguage (arguments.language.getD Language.cpp.name) with
  | .error error => (tree, .failed [] ⟨"invalid --lang", .settings error⟩)
  | .ok language => runSettings tree arguments (settings arguments language)

/-- Runs a command line on a directory tree. -/
def run (tree : Tree) (arguments : List String) : Tree × Conclusion :=
  match Arguments.read arguments with
  | .mistaken => (tree, .mistaken)
  | .information => (tree, .information)
  | .run arguments => runArguments tree arguments

/-- The files that a run with settings reads or replaces. -/
def touchedPaths (settings : Settings) : List Path :=
  settings.sources ++ settings.output.toList.flatMap fun output =>
    settings.language.paths.map fun path => output.join (.ofText path)

/-- The files that a command line reads or replaces. -/
def touched (arguments : List String) : List Path :=
  match Arguments.read arguments with
  | .run arguments =>
    match chooseLanguage (arguments.language.getD Language.cpp.name) with
    | .ok language => touchedPaths (settings arguments language)
    | .error _ => []
  | _ => []

end CommandLine

end MavlinkCompiler
