import MavlinkCompiler.CommandLine

/-!
# The program

The command line on the real file system. The nodes that a run depends on are read into a directory
tree, the run happens on the tree, and the files it has put in place are written back.
-/

namespace MavlinkCompiler.Main

open Storage (Path Place Tree)

/-- The place that segments lead to from a place if every name on the way is a directory. -/
def lexicalPlace (start : Place) (segments : List String) : Place :=
  segments.foldl
    (fun place segment =>
      if Path.isNeutral segment then place
      else if segment = ".." then place.tail
      else segment :: place)
    start

/-- Reads the node with a path into a tree. -/
def surveyNode (tree : Tree) (path : Path) : IO Tree := do
  let here ← IO.FS.realPath "."
  let file := here / path.text
  let place := lexicalPlace (tree.start path) path.segments
  if place.isEmpty then
    return tree
  else if ← file.isDir then
    return tree.put place .directory
  else if ← file.pathExists then
    return tree.put place (.file (← IO.FS.readBinFile file))
  else
    return tree

/-- Reads the nodes on the way of paths. -/
def survey (paths : List Path) : IO Tree := do
  let here := lexicalPlace [] (Path.ofText (← IO.FS.realPath ".").toString).segments
  (paths.flatMap (·.ancestry)).foldlM surveyNode (Tree.empty here)

/-- The spelling of the file that a path is first written to. -/
def stagedText (path : Path) : String :=
  path.text ++ ".new"

/-- Writes the files with paths as they are in a tree: all beside their destinations, then each into
place. -/
def store (tree : Tree) (paths : List Path) : IO Unit := do
  for path in paths do
    let parent := path.parent?.getD Path.empty
    unless parent = Path.empty do
      IO.FS.createDirAll parent.text
    match tree.read path with
    | .ok contents => IO.FS.writeBinFile (stagedText path) contents
    | .error cause => throw (IO.userError cause.message)
  for path in paths do
    IO.FS.rename (stagedText path) path.text

/-- What is shown on request. -/
def usage : String :=
  "Usage: mavgen --xml-def FILE [--xml-def FILE]... --output-dir DIR [--lang LANG] " ++
    "[--merge-extensions] [--verbose]"

/-- Shows events on standard output. -/
def showEvents (events : List Event) : IO Unit :=
  events.forM fun event => IO.println event.line

end MavlinkCompiler.Main

open MavlinkCompiler in
/-- Runs the program. -/
def main (arguments : List String) : IO UInt32 := do
  let tree ← Main.survey (CommandLine.touched arguments)
  let (after, conclusion) := CommandLine.run tree arguments
  match conclusion with
  | .mistaken => IO.eprintln Main.usage
  | .information => IO.println Main.usage
  | .done events =>
    let written := events.filterMap fun
      | .listedArtifact path => some (Storage.Path.ofText path)
      | _ => none
    Main.store after written
    Main.showEvents events
  | .failed events stop =>
    Main.showEvents events
    IO.eprint (report stop.activity stop.failure)
  return UInt32.ofNat conclusion.status
