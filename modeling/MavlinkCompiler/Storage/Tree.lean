import MavlinkCompiler.Storage.Path

/-!
# Directory trees

The files and directories of a file system, as a value. A node is found by its *place*: the names
on the way to it from the root, innermost first; the root itself is the empty place and is always
there. One place is the working directory, from which relative paths start. Following a path can
fail, and so can changing the tree; the causes are those of the operating system. Besides, the
system may refuse a step for reasons that no tree shows.

* `Tree.get?`: the node at a place. Two trees are the same if they have the same nodes.
* `Path.refusal?`: why a path cannot be followed in any tree.
* `Tree.follow`: the place that a path leads to.
* `Tree.makeDirectory`, `Tree.removeDirectory`, `Tree.moveOnto`, `Tree.moveAway`: changes.
* `Faults`: the steps that are refused for other reasons than the tree, and why.
* `freshName`: a name that is not in use.

Links, owners, permissions and times are not kept, and nobody else changes the tree. Whether a path
leads somewhere is always answered.
-/

namespace MavlinkCompiler.Storage

/-- Why an operation on files failed. -/
inductive Cause where
  | notFound
  | inputOutput
  | permissionDenied
  | busy
  | alreadyExists
  | notDirectory
  | isDirectory
  /-- Something is asked for that makes no sense. -/
  | invalidArgument
  | noSpace
  | nameTooLong
  | notEmpty
  /-- The null character ends texts of the operating system, so no name has it. -/
  | nullInName
  /-- Any other cause that is not in the tree, with its text. -/
  | other (message : String)
  deriving DecidableEq, Repr

/-- The text shown for a cause. -/
def Cause.message : Cause → String
  | notFound => "No such file or directory (os error 2)"
  | inputOutput => "Input/output error (os error 5)"
  | permissionDenied => "Permission denied (os error 13)"
  | busy => "Device or resource busy (os error 16)"
  | alreadyExists => "File exists (os error 17)"
  | notDirectory => "Not a directory (os error 20)"
  | isDirectory => "Is a directory (os error 21)"
  | invalidArgument => "Invalid argument (os error 22)"
  | noSpace => "No space left on device (os error 28)"
  | nameTooLong => "File name too long (os error 36)"
  | notEmpty => "Directory not empty (os error 39)"
  | nullInName => "file name contained an unexpected NUL byte"
  | other message => message

/-- The steps of a run that the operating system may refuse. Steps of one kind are told apart by
how many were done before them. Undoing is not among them. -/
inductive Step where
  | read (path : Path)
  | makeDirectory (made : Nat)
  | createTemporary (staged : Nat)
  /-- Writing to a temporary file, the last bytes included. -/
  | fill (staged : Nat)
  /-- Creating the file in whose place a replaced one is kept. -/
  | createPrevious (moved : Nat)
  /-- Renaming a file that is in the way. -/
  | moveAway (moved : Nat)
  /-- Renaming a temporary file to its destination. -/
  | moveOnto (moved : Nat)
  deriving DecidableEq, Repr

/-- The steps that are refused for reasons outside the tree, such as permissions, the space that is
left or the device, each with its cause. -/
abbrev Faults := Step → Option Cause

namespace Faults

/-- Nothing is refused. -/
def none : Faults := fun _ => .none

/-- The outcome of a step that may be refused. -/
def guard {α : Type} (faults : Faults) (step : Step) (outcome : Except Cause α) : Except Cause α :=
  match faults step with
  | some cause => .error cause
  | .none => outcome

end Faults

/-- The number of bytes that the spelling of a path stays below. -/
def pathLimit : Nat := 4096

/-- Why a path cannot be followed in any tree. -/
def Path.refusal? (path : Path) : Option Cause :=
  if path.hasNull then some .nullInName
  else if pathLimit ≤ path.size then some .nameTooLong
  else none

/-- The names on the way from the root to a node, innermost first. -/
abbrev Place := List String

/-- Whether two places are equally far from the root. -/
def sameDepth : Place → Place → Bool
  | [], [] => true
  | _ :: outer, _ :: outer' => sameDepth outer outer'
  | _, _ => false

/-- A directory, or a file with its contents. -/
inductive Node where
  | directory
  | file (contents : ByteArray)

/-- Whether a node is a directory. -/
def Node.isDirectory : Node → Bool
  | directory => true
  | file _ => false

/-- The nodes below the root, and the working directory. -/
structure Tree where
  nodes : List (Place × Node)
  here : Place

namespace Tree

/-! ## Nodes -/

/-- The node at a place. Nodes at another depth are passed over without a look at their names. -/
def get? (tree : Tree) (place : Place) : Option Node :=
  if place = [] then
    some .directory
  else
    (tree.nodes.find? fun node => sameDepth node.1 place && node.1 == place).map (·.2)

/-- Whether there is a directory at a place. -/
def hasDirectory (tree : Tree) (place : Place) : Bool :=
  (tree.get? place).any Node.isDirectory

/-- Takes away the node at a place. -/
def erase (tree : Tree) (place : Place) : Tree :=
  { tree with nodes := tree.nodes.filter fun node => node.1 != place }

/-- Sets the node at a place. -/
def put (tree : Tree) (place : Place) (node : Node) : Tree :=
  { tree with nodes := (place, node) :: (tree.erase place).nodes }

/-- Every name in the tree. -/
def names (tree : Tree) : List String :=
  tree.nodes.flatMap (·.1)

/-- Adds the directory at a place and those around it, where nothing is. -/
def plantDirectory (tree : Tree) : Place → Tree
  | [] => tree
  | name :: outer =>
    let tree := tree.plantDirectory outer
    if (tree.get? (name :: outer)).isSome then tree else tree.put (name :: outer) .directory

/-- A working directory without anything in it, and nothing else but the directories around it. -/
def empty (here : Place) : Tree :=
  plantDirectory ⟨[], here⟩ here

/-- Adds a file and the directories around it. -/
def plantFile (tree : Tree) (place : Place) (contents : ByteArray) : Tree :=
  (tree.plantDirectory place.tail).put place (.file contents)

/-! ## Following paths -/

/-- The longest name of a node, in bytes. -/
def nameLimit : Nat := 255

/-- Where a path starts from. -/
def start (tree : Tree) (path : Path) : Place :=
  if path.isAbsolute then [] else tree.here

/-- The place that segments lead to from a place. Every segment needs a directory to start from. -/
def walk (tree : Tree) (place : Place) : List String → Except Cause Place
  | [] => .ok place
  | segment :: rest =>
    if !tree.hasDirectory place then
      .error .notDirectory
    else if Path.isNeutral segment then
      tree.walk place rest
    else if segment = ".." then
      tree.walk place.tail rest
    else if nameLimit < segment.utf8ByteSize then
      .error .nameTooLong
    else if (tree.get? (segment :: place)).isNone then
      .error .notFound
    else
      tree.walk (segment :: place) rest

/-- The place of the node that a path leads to. -/
def follow (tree : Tree) (path : Path) : Except Cause Place :=
  match path.refusal? with
  | some cause => .error cause
  | none =>
    if path = Path.empty then .error .notFound else tree.walk (tree.start path) path.segments

/-- The place of the directory that a path leads to: the empty path stands for the working
directory. -/
def followDirectory (tree : Tree) (path : Path) : Except Cause Place :=
  match tree.walk (tree.start path) path.segments with
  | .error cause => .error cause
  | .ok place => if tree.hasDirectory place then .ok place else .error .notDirectory

/-- Whether a path leads to a node (`exists`). -/
def isPresent (tree : Tree) (path : Path) : Bool :=
  (tree.follow path).isOk

/-- Whether a path leads to a directory (`is_dir`). -/
def isDirectory (tree : Tree) (path : Path) : Bool :=
  match tree.follow path with
  | .ok place => tree.hasDirectory place
  | .error _ => false

/-- The contents of the file that a path leads to, as bytes (`read_to_string`). -/
def read (tree : Tree) (path : Path) : Except Cause ByteArray :=
  match tree.follow path with
  | .error cause => .error cause
  | .ok place =>
    match tree.get? place with
    | some (.file contents) => .ok contents
    | some .directory => .error .isDirectory
    | none => .error .notFound

/-- Where the last segment of a path leads, when what stands there is about to be changed. -/
inductive Slot where
  /-- A name in a directory, and whether a slash follows the name. -/
  | named (place : Place) (slash : Bool)
  /-- The directory reached before the last segment, or the one around it. -/
  | dots
  deriving DecidableEq

/-- The slot that a path leads to. The node itself need not be there, but the directory around it
must be. -/
def slot (tree : Tree) (path : Path) : Except Cause Slot :=
  let segments := (path.segments.reverse.dropWhile (· == "")).reverse
  match path.refusal?, segments.getLast? with
  | some cause, _ => .error cause
  | none, none => .error .notFound
  | none, some last =>
    match tree.walk (tree.start path) segments.dropLast with
    | .error cause => .error cause
    | .ok place =>
      if !tree.hasDirectory place then
        .error .notDirectory
      else if last = "." ∨ last = ".." then
        .ok .dots
      else if nameLimit < last.utf8ByteSize then
        .error .nameTooLong
      else
        .ok (.named (last :: place) (decide (segments.length < path.segments.length)))

/-! ## Changes -/

/-- Makes a directory where nothing is (`create_dir`). -/
def makeDirectory (tree : Tree) (path : Path) : Except Cause Tree :=
  match tree.slot path with
  | .error cause => .error cause
  | .ok .dots => .error .alreadyExists
  | .ok (.named place _) =>
    if (tree.get? place).isSome then .error .alreadyExists else .ok (tree.put place .directory)

/-- Whether a directory has nothing in it. -/
def isEmptyDirectory (tree : Tree) (place : Place) : Bool :=
  !tree.nodes.any fun node => node.1 != [] && node.1.tail == place

/-- Removes a directory with nothing in it (`remove_dir`). -/
def removeDirectory (tree : Tree) (path : Path) : Except Cause Tree :=
  match tree.slot path with
  | .error cause => .error cause
  | .ok .dots => .error .notEmpty
  | .ok (.named place _) =>
    match tree.get? place with
    | none => .error .notFound
    | some (.file _) => .error .notDirectory
    | some .directory =>
      if tree.isEmptyDirectory place then .ok (tree.erase place) else .error .notEmpty

/-- Removes a file (`remove_file`). -/
def removeFile (tree : Tree) (path : Path) : Except Cause Tree :=
  match tree.follow path with
  | .error cause => .error cause
  | .ok place =>
    if tree.hasDirectory place then .error .isDirectory else .ok (tree.erase place)

/-- A path spelled from the root. -/
def absolute (tree : Tree) (path : Path) : Path :=
  if path.isAbsolute then path else ⟨"" :: tree.here.reverse ++ path.segments⟩

/-- Moves a file to another place. -/
def move (tree : Tree) (source target : Place) : Tree :=
  match tree.get? source with
  | some node => (tree.erase source).put target node
  | none => tree

/-- Moves a file to where a path leads, over a file that may be there (`persist`). A path with the
null character is no argument for a move. -/
def moveOnto (tree : Tree) (source : Place) (path : Path) : Except Cause Tree :=
  match tree.slot path with
  | .error .nullInName => .error .invalidArgument
  | .error cause => .error cause
  | .ok .dots => .error .busy
  | .ok (.named place slash) =>
    if slash then
      .error .notDirectory
    else if tree.hasDirectory place then
      .error .isDirectory
    else
      .ok (tree.move source place)

/-- Moves the file that a path leads to (`rename`). -/
def moveAway (tree : Tree) (path : Path) (target : Place) : Except Cause Tree :=
  match tree.follow path with
  | .error cause => .error cause
  | .ok place => .ok (tree.move place target)

/-! ## Listing -/

/-- The names on the way from the working directory to a place below it, innermost first. -/
def below? (tree : Tree) (place : Place) : Option (List String) :=
  let depth := place.length - tree.here.length
  if 0 < depth ∧ place.drop depth = tree.here then some (place.take depth) else none

/-- The spelling of the way to a node; that of a directory ends with a slash. -/
def spelling (names : List String) (node : Node) : String :=
  "/".intercalate names.reverse ++ if node.isDirectory then "/" else ""

/-- All nodes below the working directory with their spellings, in the order of the spellings. -/
def listing (tree : Tree) : List (String × Node) :=
  let shown := tree.nodes.filterMap fun node =>
    (tree.below? node.1).map fun names => (spelling names node.2, node.2)
  shown.mergeSort fun a b => a.1 ≤ b.1

end Tree

/-! ## Names -/

/-- A name that starts with `stem` and is not among those taken. When `n` names are taken, one of
the numbers up to `n` makes a free name; the largest are tried first, since they are taken last. -/
def freshName (stem : String) (taken : List String) : String :=
  let numbers := (List.range (taken.length + 1)).reverse
  stem ++ toString ((numbers.find? fun n => !taken.contains (stem ++ toString n)).getD 0)

end MavlinkCompiler.Storage
