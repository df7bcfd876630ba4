/-!
# Generated files

A generated file is a path below the output directory and a text. Texts are made of lines, each
ended by a line feed.

* `Artifact`: a generated file.
* `unlines`: the text of lines.
-/

namespace MavlinkCompiler

/-- A generated file. -/
structure Artifact where
  /-- The path below the output directory. -/
  path : String
  contents : String
  deriving DecidableEq, Repr

/-- The text of some lines. -/
def unlines (lines : List String) : String :=
  String.join (lines.map fun line => line ++ "\n")

/-- The first paragraph of every generated file: `GENERATED_BANNER`. -/
def banner : String :=
  "Do not edit! This file is automatically generated by mavgen tool."

end MavlinkCompiler
