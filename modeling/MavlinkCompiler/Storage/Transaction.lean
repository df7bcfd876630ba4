import MavlinkCompiler.Log
import MavlinkCompiler.Storage.Tree
import MavlinkCompiler.Target.Artifact

/-!
# Writing all or nothing

Generated files replace what is at their destinations together or not at all. Every file is first
written under a temporary name beside its destination, with the missing directories around it; this
is *staging*. Then the files are moved into place one by one, and a file that is in the way is moved
aside and kept. If a step fails, be it for what is in the tree or because the operating system
refuses it, the moves are undone, newest first, the temporary files are removed, and so are the
directories that were made.

* `stageAll`: the staged files, and the directories made for them.
* `commit`: the move into place.
* `writeUnder`: both, with the way back, when some steps are refused.
* `write`: the same when none is.

The way back is not refused, so the messages about steps of it that fail are left out. So are the
names that the system draws for temporary files: any name that is new will do.
-/

namespace MavlinkCompiler.Storage

/-- Why files could not be written. -/
inductive WriteError where
  /-- An operation failed on the way, on a temporary file with a path if one is given. -/
  | storage (cause : Cause) (temporary : Option String)
  /-- The destination with this path is a directory. -/
  | occupied (destination : Path)
  /-- A file could not be moved to this path. -/
  | unmovable (destination : Path) (cause : Cause)
  deriving DecidableEq

/-- A file beside its destination. -/
structure Staged where
  temporary : Place
  destination : Path
  deriving DecidableEq

/-- A file in place, and where the one it replaced is kept. -/
structure Moved where
  destination : Path
  previous : Option Place
  deriving DecidableEq

/-- How far staging has come. -/
structure Staging where
  tree : Tree
  /-- The directories made, newest first. -/
  made : List Path
  /-- The files staged, in order. -/
  staged : List Staged
  events : List Event

/-! ## Staging -/

/-- The directories to make for a path, outermost first: the path itself as it is written, and the
paths that it extends, down to the first one that leads somewhere. -/
def missingDirectories (tree : Tree) (path : Path) : List Path :=
  ((path :: path.ancestry.tail).takeWhile fun front =>
    front != Path.empty && !tree.isPresent front).reverse

/-- Makes directories in order until one cannot be made (`create_dirs`). -/
def makeDirectories (faults : Faults) (tree : Tree) (made : List Path) :
    List Path → Tree × List Path × Option Cause
  | [] => (tree, made, none)
  | path :: rest =>
    match faults.guard (.makeDirectory made.length) (tree.makeDirectory path) with
    | .ok tree => makeDirectories faults tree (path :: made) rest
    | .error cause => (tree, made, some cause)

/-- The stem of the names that files wait under. -/
def waitingStem : String := ".tmp"

/-- The stem of the names that replaced files are kept under. -/
def previousStem : String := ".mavgen-previous"

/-- How a temporary file in a directory is spelled. Six characters follow the stem of its name. They
are left open, and `X` stands for each of them: only their number matters to the path, and the name
in the tree may be any that is new. -/
def temporaryPath (directory : Path) (stem : String) : Path :=
  directory.join (.ofText (stem ++ "XXXXXX"))

/-- Creates an empty temporary file in a directory; its name is neither in the tree nor in
`reserved`. Its path is spelled from the root. -/
def createTemporary (faults : Faults) (step : Step) (tree : Tree) (reserved : List String)
    (directory : Path) (stem : String) : Except WriteError (Place × Tree) :=
  let path := temporaryPath directory stem
  match (tree.absolute path).refusal?, faults.guard step (tree.followDirectory directory) with
  | some cause, _ => .error (.storage cause (some path.text))
  | none, .error cause => .error (.storage cause (some path.text))
  | none, .ok outer =>
    let place := freshName stem (reserved ++ tree.names) :: outer
    .ok (place, tree.put place (.file ByteArray.empty))

/-- Stages a file for its place below a directory. A temporary file that cannot be written is
removed, whatever part of the contents it has (`stage`, one pass of its loop). -/
def stage (faults : Faults) (reserved : List String) (directory : Path) (staging : Staging)
    (artifact : Artifact) : Staging × Option WriteError :=
  let destination := directory.join (.ofText artifact.path)
  let parent := destination.parent?.getD directory
  let count := staging.staged.length
  match makeDirectories faults staging.tree staging.made
    (missingDirectories staging.tree parent) with
  | (tree, made, some cause) => ({ staging with tree, made }, some (.storage cause none))
  | (tree, made, none) =>
    match createTemporary faults (.createTemporary count) tree reserved parent waitingStem with
    | .error error => ({ staging with tree, made }, some error)
    | .ok (temporary, created) =>
      match faults.guard (.fill count)
        (.ok (created.put temporary (.file artifact.contents.toUTF8))) with
      | .error cause =>
        ({ staging with tree := created.erase temporary, made },
          some (.storage cause (some (temporaryPath parent waitingStem).text)))
      | .ok tree =>
        ({ tree
           made
           staged := staging.staged ++ [⟨temporary, destination⟩]
           events := staging.events ++
            [.stagedArtifact destination.text artifact.contents.utf8ByteSize] }, none)

/-- Stages files in order until one cannot be staged (`stage`). -/
def stageAll (faults : Faults) (reserved : List String) (directory : Path) (staging : Staging) :
    List Artifact → Staging × Option WriteError
  | [] => (staging, none)
  | artifact :: rest =>
    match stage faults reserved directory staging artifact with
    | (staging, none) => stageAll faults reserved directory staging rest
    | (staging, some error) => (staging, some error)

/-! ## The way back -/

/-- Removes temporary files, as happens to those that are given up. -/
def discard (tree : Tree) (staged : List Staged) : Tree :=
  staged.foldl (fun tree file => tree.erase file.temporary) tree

/-- The tree after an operation, or as it was if the operation failed. -/
def attempt (tree : Tree) (changed : Except Cause Tree) : Tree :=
  match changed with
  | .ok changed => changed
  | .error _ => tree

/-- Undoes a move: the replaced file comes back, or the new one goes. -/
def undo (tree : Tree) (moved : Moved) : Tree :=
  match moved.previous with
  | some previous => attempt tree (tree.moveOnto previous moved.destination)
  | none => attempt tree (tree.removeFile moved.destination)

/-- Undoes moves, newest first (`rollback`). -/
def undoAll (tree : Tree) (newestFirst : List Moved) : Tree :=
  newestFirst.foldl undo tree

/-- Removes directories, newest first. -/
def removeMade (tree : Tree) (newestFirst : List Path) : Tree :=
  newestFirst.foldl (fun tree path => attempt tree (tree.removeDirectory path)) tree

/-! ## The move into place -/

/-- Moves a file that is in the way aside and tells where it is. -/
def setAside (faults : Faults) (count : Nat) (reserved : List String) (tree : Tree)
    (destination : Path) : Tree × Except WriteError (Option Place) :=
  if tree.isPresent destination then
    let parent := destination.parent?.getD Path.empty
    match createTemporary faults (.createPrevious count) tree reserved parent previousStem with
    | .error error => (tree, .error error)
    | .ok (aside, created) =>
      match faults.guard (.moveAway count) (created.moveAway destination aside) with
      | .ok tree => (tree, .ok (some aside))
      | .error cause => (created.erase aside, .error (.storage cause none))
  else
    (tree, .ok none)

/-- Moves a staged file into place after `count` others. If that fails, a file that was moved aside
comes back and the staged one is removed (`replace`). -/
def replace (faults : Faults) (count : Nat) (reserved : List String) (tree : Tree)
    (file : Staged) : Tree × Except WriteError Moved :=
  match setAside faults count reserved tree file.destination with
  | (tree, .error error) => (tree.erase file.temporary, .error error)
  | (tree, .ok previous) =>
    match faults.guard (.moveOnto count) (tree.moveOnto file.temporary file.destination) with
    | .ok tree => (tree, .ok ⟨file.destination, previous⟩)
    | .error cause =>
      let restored :=
        match previous with
        | some aside => undo tree ⟨file.destination, some aside⟩
        | none => tree
      (restored.erase file.temporary, .error (.unmovable file.destination cause))

/-- Moves staged files into place in order; `moved` are those moved already, newest first. If one
cannot be moved, all moves are undone and the temporary files removed (`commit`, its loop). -/
def moveAll (faults : Faults) (reserved : List String) (tree : Tree) (moved : List Moved) :
    List Staged → Tree × Except WriteError (List Moved)
  | [] => (tree, .ok moved.reverse)
  | file :: rest =>
    match replace faults moved.length reserved tree file with
    | (tree, .ok done) => moveAll faults reserved tree (done :: moved) rest
    | (tree, .error error) => (discard (undoAll tree moved) rest, .error error)

/-- Removes the files that were moved aside. -/
def dropPrevious (tree : Tree) (moved : List Moved) : Tree :=
  (moved.filterMap (·.previous)).foldl Tree.erase tree

/-- Moves all staged files into place, unless a destination is a directory (`commit`). -/
def commit (faults : Faults) (reserved : List String) (tree : Tree) (staged : List Staged) :
    Tree × Except WriteError (List Path) :=
  match staged.find? fun file => tree.isDirectory file.destination with
  | some file => (discard tree staged, .error (.occupied file.destination))
  | none =>
    match moveAll faults reserved tree [] staged with
    | (tree, .ok moved) => (dropPrevious tree moved, .ok (moved.map (·.destination)))
    | (tree, .error error) => (tree, .error error)

/-! ## Writing -/

/-- The names that temporary files must not have: all names on the paths of the files. -/
def pathNames (directory : Path) (artifacts : List Artifact) : List String :=
  directory.segments ++ artifacts.flatMap fun artifact => (Path.ofText artifact.path).segments

/-- A tree after an attempt to write, and what came of it. -/
structure Written where
  tree : Tree
  result : Logged WriteError (List Path)

/-- Writes files below a directory, all or none, where some steps may be refused; the result is
their paths (`write_artifacts`). -/
def writeUnder (faults : Faults) (tree : Tree) (directory : Path) (artifacts : List Artifact) :
    Written :=
  let reserved := pathNames directory artifacts
  match stageAll faults reserved directory ⟨tree, [], [], []⟩ artifacts with
  | (staging, some error) =>
    ⟨removeMade (discard staging.tree staging.staged) staging.made,
      ⟨staging.events, .error error⟩⟩
  | (staging, none) =>
    match commit faults reserved staging.tree staging.staged with
    | (tree, .ok paths) => ⟨tree, ⟨staging.events, .ok paths⟩⟩
    | (tree, .error error) => ⟨removeMade tree staging.made, ⟨staging.events, .error error⟩⟩

/-- Writes files below a directory, all or none, where no step is refused. -/
def write (tree : Tree) (directory : Path) (artifacts : List Artifact) : Written :=
  writeUnder .none tree directory artifacts

end MavlinkCompiler.Storage
