import MavlinkCompiler.Target.Cpp
import MavlinkCompiler.Target.Lua.Dissector
import MavlinkCompiler.Target.Python

/-!
# Rendering

The files of a model in an output language.

* `Model.artifacts`, `Model.render`: the files.
* `Language.paths`: where the files go, which does not depend on the model.
-/

namespace MavlinkCompiler

/-- The generated files in a language: `emitter_for` and its `emit`. -/
def Model.artifacts (model : Model) : Language → List Artifact
  | .cpp => Cpp.artifacts model
  | .python => Python.artifacts model
  | .lua => Lua.artifacts model

/-- The generated files in a language, with the report that they are being made: `render`. -/
def Model.render {ε : Type} (model : Model) (language : Language) : Logged ε (List Artifact) := do
  Logged.emit (.generating language)
  pure (model.artifacts language)

/-- The paths of the generated files in a language. -/
def Language.paths (language : Language) : List String :=
  (((Catalog.empty .merged).finish).artifacts language).map (·.path)

theorem Model.map_path_artifacts (model : Model) (language : Language) :
    (model.artifacts language).map (·.path) = language.paths := by
  cases language <;>
    simp only [Language.paths, Model.artifacts, Cpp.artifacts, Python.artifacts, Lua.artifacts,
      List.map_cons, List.map_nil]

end MavlinkCompiler
