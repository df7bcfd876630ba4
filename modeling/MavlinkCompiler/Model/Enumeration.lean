import MavlinkCompiler.Model.Name
import MavlinkCompiler.Schema.Document
import MavlinkCompiler.Schema.Error

/-!
# Enumerations

An enumeration is joined from all files that declare it: entries follow each other in the order of
the files, and their names stay distinct. Values are resolved over the joined list, so an entry
without a value goes on from the entry before it, whichever file that came from.

An entry holds no resolved value: `resolve` comes last and depends on the declared values only, so
the values are a function of the entries.

* `Enumeration.ofDefinition`: an enumeration as one file declares it.
* `Enumeration.absorb`: the entries of a further declaration, up to the first clash.
* `resolveValues`, `Enumeration.values`: the values of all entries.
-/

namespace MavlinkCompiler

open Schema (EntryDefinition EnumDefinition)

/-- An entry of an enumeration: `EnumEntry`. -/
structure Entry where
  name : String
  declared : Option Int64
  description : Option String
  /-- Descriptions of a command's parameters, by ascending index. -/
  params : List (UInt32 × String)
  deriving DecidableEq

/-- An enumeration. -/
structure Enumeration where
  name : String
  /-- The scope of the group that declared it first. -/
  scope : Option String
  /-- The position of that group. -/
  group : Nat
  description : Option String
  entries : List Entry
  deriving DecidableEq

/-! ## Parameters -/

/-- Sets the parameter with an index, in a list by ascending index: `insert` of an ordered map. -/
def setParam (index : UInt32) (text : String) :
    List (UInt32 × String) → List (UInt32 × String)
  | [] => [(index, text)]
  | param :: params =>
    if index < param.1 then
      (index, text) :: param :: params
    else if index = param.1 then
      (index, text) :: params
    else
      param :: setParam index text params

/-- The declared parameters of an entry by ascending index, after those already collected: the inner
loop of `add_enum`. -/
def collectParams (entry : String) (collected : List (UInt32 × String)) :
    List (UInt32 × String) → Except Schema.Error (List (UInt32 × String))
  | [] => .ok collected
  | (index, text) :: rest =>
    if (collected.lookup index).isSome then
      .error (.duplicateParam entry index)
    else
      collectParams entry (setParam index text collected) rest

/-! ## Entries -/

/-- The entry of a definition: one round of the outer loop of `add_enum`. -/
def Entry.ofDefinition (definition : EntryDefinition) : Except Schema.Error Entry := do
  let name := safeName definition.name
  let params ← collectParams name [] definition.params
  pure ⟨name, definition.value, definition.description, params⟩

namespace Enumeration

/-- The name by which the enumeration is found: `qualified_name`. -/
def qualified (scoping : Scoping) (enumeration : Enumeration) : QualifiedName :=
  scoping.qualify enumeration.scope enumeration.name

/-- Adds an entry at the end: `add_entry`. -/
def addEntry (enumeration : Enumeration) (entry : Entry) : Except Schema.Error Enumeration :=
  if enumeration.entries.any (·.name == entry.name) then
    .error (.duplicateEntry enumeration.name entry.name)
  else
    .ok { enumeration with entries := enumeration.entries ++ [entry] }

/-- The enumeration of a definition in a group: the first half of `add_enum`. -/
def ofDefinition (definition : EnumDefinition) (scope : Option String) (group : Nat) :
    Except Schema.Error Enumeration :=
  definition.entries.foldlM
    (fun enumeration entry => do
      let entry ← Entry.ofDefinition entry
      enumeration.addEntry entry)
    ⟨safeName definition.name, scope, group, definition.description, []⟩

/-- Adds entries one by one, as `add_enum` merges them; the first clash ends it, and what was added
before stays. -/
def addEntries (enumeration : Enumeration) :
    List Entry → Enumeration × Option Schema.Error
  | [] => (enumeration, none)
  | entry :: entries =>
    match enumeration.addEntry entry with
    | .ok enumeration => enumeration.addEntries entries
    | .error error => (enumeration, some error)

/-- Takes in a further declaration, the merging branch of `add_enum`: its description if there was
none, then its entries. -/
def absorb (enumeration further : Enumeration) : Enumeration × Option Schema.Error :=
  addEntries
    { enumeration with description := enumeration.description.or further.description }
    further.entries

end Enumeration

/-! ## Values -/

/-- The values of entries when the first without a value would get `next`: an entry without a value
has the value after the one before it, modulo 2^64. -/
def valuesFrom (next : Int64) : List (Option Int64) → List Int64
  | [] => []
  | declared :: rest =>
    let value := declared.getD next
    value :: valuesFrom (value + 1) rest

/-- The values of entries, `resolve_values`; the first without a value is zero. -/
def resolveValues (declared : List (Option Int64)) : List Int64 :=
  valuesFrom 0 declared

/-- The values of an enumeration's entries: `resolve`. -/
def Enumeration.values (enumeration : Enumeration) : List Int64 :=
  resolveValues (enumeration.entries.map (·.declared))

/-- The entries of an enumeration with their values. -/
def Enumeration.valuedEntries (enumeration : Enumeration) : List (Entry × Int64) :=
  enumeration.entries.zip enumeration.values

end MavlinkCompiler
