import MavlinkCompiler.Text.Split

/-!
# Paths

A path leads to a file or a directory, from the root if it starts with a slash and from the working
directory otherwise. It is kept as it is written, cut at its slashes: `a//b/./c` stays what it is,
and only following it tells where it leads. A segment is *neutral* if following it stays in place:
an empty one or a single dot.

* `Path.ofText`, `Path.text`: a path and its spelling.
* `Path.size`, `Path.hasNull`: what decides whether a path can be followed at all.
* `Path.join`: a path below another one.
* `Path.ancestry`, `Path.parent?`: the paths that a path extends.
-/

namespace MavlinkCompiler.Storage

/-- A path, cut at its slashes. -/
structure Path where
  segments : List String
  deriving DecidableEq, Repr

namespace Path

/-- The path with a spelling. -/
def ofText (text : String) : Path :=
  ⟨(Text.splitWhere (· == '/') text.toList).map String.ofList⟩

/-- The spelling of a path. -/
def text (path : Path) : String :=
  "/".intercalate path.segments

/-- The path that is spelled by no characters; as a directory it is the working directory. -/
def empty : Path := ⟨[""]⟩

/-- The path to the root. -/
def root : Path := ⟨["", ""]⟩

/-- Whether a path starts with a slash. -/
def isAbsolute (path : Path) : Bool :=
  match path.segments with
  | "" :: _ :: _ => true
  | _ => false

/-- The bytes of a path's spelling. -/
def size (path : Path) : Nat :=
  path.text.utf8ByteSize

/-- Whether the null character is in a path. -/
def hasNull (path : Path) : Bool :=
  path.segments.any fun segment => segment.toList.contains '\x00'

/-- A path below a directory (`join`); a path from the root stays what it is. A slash at the end of
the directory is not doubled. -/
def join (directory path : Path) : Path :=
  let front :=
    if directory.segments.getLast? = some "" then
      directory.segments.dropLast
    else
      directory.segments
  if path.isAbsolute then path else ⟨front ++ path.segments⟩

/-- Whether following a segment stays in place. -/
def isNeutral (segment : String) : Bool :=
  segment == "" || segment == "."

/-- Whether a front part of a path is a path of its own: it is not empty, and it ends with a segment
that leads somewhere or consists of one segment. -/
def isFront (segments : List String) : Bool :=
  segments != [""] &&
    (segments.length == 1 || (segments.getLast?.map fun last => !isNeutral last).getD false)

/-- A path without neutral segments at its end, then the paths that it extends, shortest last
(`ancestors`). -/
def ancestry (path : Path) : List Path :=
  let fronts := (List.range path.segments.length).map fun dropped =>
    path.segments.take (path.segments.length - dropped)
  (fronts.filter isFront).map Path.mk

/-- The directory that a path leads into with its last segment (`parent`). The empty path and the
root have none. -/
def parent? (path : Path) : Option Path :=
  match path.ancestry with
  | _ :: parent :: _ => some parent
  | [_] => some (if path.isAbsolute then root else empty)
  | [] => none

end Path

end MavlinkCompiler.Storage
