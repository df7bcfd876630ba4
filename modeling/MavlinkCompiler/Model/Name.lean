import MavlinkCompiler.Text.Split

/-!
# Names and scopes

Definitions of one file form a group. A group's definitions live in a scope named after the group,
except those of the common group, which are global. When scopes are merged everything is global.

* `safeName`: a name that generated code can use.
* `groupName`, `groupScope`: from a source to its group, and from a group to its scope.
* `Scoping`, `QualifiedName`: whether scopes count, and a name with its scope.
-/

namespace MavlinkCompiler

open Text

/-- Names that the environment of generated code defines, with their replacements: `NAME_FILTER`. -/
def reservedNames : List (String × String) :=
  [("DEBUG", "DEBUG_VALUE")]

/-- A name that does not collide with the environment of generated code: `filter_name`. -/
def safeName (name : String) : String :=
  (reservedNames.lookup name).getD name

/-! ## Groups -/

/-- A text without an ending, if it has the ending and more: `strip_suffix` in `group_name`. -/
def dropEnding (ending cs : List Char) : List Char :=
  if ending.isSuffixOf cs && ending.length < cs.length then
    cs.take (cs.length - ending.length)
  else
    cs

/-- The group of a source, `group_name`: its file name without directories and without the ending
`.xml`. Both kinds of slash separate directories. -/
def groupName (source : String) : String :=
  let file := (splitWhere (fun c => c == '/' || c == '\\') source.toList).getLast?.getD []
  String.ofList (dropEnding ['.', 'x', 'm', 'l'] file)

/-- The group whose definitions are global: `COMMON_GROUP`. -/
def commonGroup : String := "common"

/-- Groups whose scope has another name: `NAMESPACE_MAP`. -/
def renamedScopes : List (String × String) :=
  [("ardupilotmega", "apm")]

/-- The scope of a group, `derive_namespace`; nothing is the global scope. -/
def groupScope (group : String) : Option String :=
  match renamedScopes.lookup group with
  | some scope => some scope
  | none => if group = commonGroup then none else some group

/-! ## Qualified names -/

/-- Whether every group keeps its scope or all definitions are global: `merge_namespaces` of a
`RenderContext`. -/
inductive Scoping where
  | separate
  | merged
  deriving DecidableEq, Repr

/-- The scope that counts for a definition declared in a scope: `effective_namespace`. -/
def Scoping.effective (scoping : Scoping) (scope : Option String) : Option String :=
  match scoping with
  | .separate => scope
  | .merged => none

/-- A name in a scope. -/
structure QualifiedName where
  scope : Option String
  name : String
  deriving DecidableEq, Repr

namespace QualifiedName

/-- Scope and name joined by a separator: `joined`. -/
def joined (separator : String) (qualified : QualifiedName) : String :=
  match qualified.scope with
  | some scope => scope ++ separator ++ qualified.name
  | none => qualified.name

/-- The written form, by which definitions are told apart: `fmt` of a `QualifiedName`. -/
def text (qualified : QualifiedName) : String :=
  qualified.joined "::"

end QualifiedName

/-- The qualified name of a definition: `qualified_name`. -/
def Scoping.qualify (scoping : Scoping) (scope : Option String) (name : String) : QualifiedName :=
  ⟨scoping.effective scope, name⟩

end MavlinkCompiler
