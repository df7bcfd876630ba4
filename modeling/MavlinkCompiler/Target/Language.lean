/-!
# Output languages

The languages that a model can be rendered in. A language is chosen by one of its names, letter case
aside.

* `Language.ofName?`, `Language.name`: by name, and the name shown.
-/

namespace MavlinkCompiler

/-- An output language: `Target`. -/
inductive Language where
  | cpp
  | python
  | lua
  deriving DecidableEq, Repr

namespace Language

/-- The name shown to the user: `fmt` of a target. -/
def name : Language → String
  | cpp => "C++"
  | python => "Python"
  | lua => "Lua"

/-- The names a language can be chosen by, in lower case. -/
def keywords : Language → List String
  | cpp => ["c++", "cpp"]
  | python => ["python", "py"]
  | lua => ["lua", "wireshark"]

/-- The language with a name, `from_str`; only ASCII letters are compared without regard to case. -/
def ofName? (text : String) : Option Language :=
  let key := String.ofList (text.toList.map Char.toLower)
  [cpp, python, lua].find? fun language => language.keywords.contains key

/-- A language is found by the name it shows. -/
@[simp]
theorem ofName?_name (language : Language) : ofName? language.name = some language := by
  cases language <;> decide +kernel

end Language

end MavlinkCompiler
