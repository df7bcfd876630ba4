import MavlinkCompiler.Wire.FieldType
import MavlinkCompiler.Xml.Element

/-!
# Schema errors

Everything that can be wrong with definition files, as causes; the wording is in the `message`
functions only. Errors of the operating system are those of `Storage`.

* `Defect`: a file on its own is malformed.
* `Error`: a file is malformed, or files clash with each other.
-/

namespace MavlinkCompiler.Schema

/-- The whole numbers that a definition file holds. -/
inductive Quantity where
  | version
  | dialect
  | messageId
  | paramIndex
  deriving DecidableEq, Repr

/-- What the number is called. -/
def Quantity.label : Quantity → String
  | version => "version"
  | dialect => "dialect"
  | messageId => "message id"
  | paramIndex => "param index"

/-- How a definition file departs from the format: what stands as a `reason` in `Malformed`. -/
inductive Defect where
  /-- It cannot be read as an element tree. -/
  | markup (error : Xml.Error)
  /-- Its root element has another name. -/
  | wrongRoot (name : String)
  /-- An element lacks an attribute. -/
  | missingAttribute (element key : String)
  /-- A text is not a number. -/
  | invalidNumber (quantity : Quantity) (text : String)
  /-- A text is not a value of an entry. -/
  | invalidValue (entry text : String)
  /-- A parameter has index zero. -/
  | zeroParamIndex (entry : String)
  deriving DecidableEq, Repr

/-- The text shown for a defect. -/
def Defect.message : Defect → String
  | markup error => error.message
  | wrongRoot name => "root element must be <mavlink>, found <" ++ name ++ ">"
  | missingAttribute element key => "<" ++ element ++ "> requires attribute '" ++ key ++ "'"
  | invalidNumber quantity text => "invalid " ++ quantity.label ++ ": '" ++ text ++ "'"
  | invalidValue entry text => "entry " ++ entry ++ ": invalid value '" ++ text ++ "'"
  | zeroParamIndex entry => "entry " ++ entry ++ ": param index must be positive"

/-- What is wrong with one or several definition files: `SchemaError`. -/
inductive Error where
  /-- A file departs from the format. -/
  | malformed (origin : String) (defect : Defect)
  /-- A field has no type. -/
  | fieldType (error : TypeError)
  /-- A file is given twice. -/
  | duplicateSource (source : String)
  /-- Two messages have one name. -/
  | duplicateMessage (message : String)
  /-- Two messages have one id. -/
  | duplicateMessageId (id : UInt32) (first second : String)
  /-- Two entries of an enumeration have one name. -/
  | duplicateEntry (enumeration entry : String)
  /-- Two parameters of an entry have one index. -/
  | duplicateParam (entry : String) (index : UInt32)
  deriving DecidableEq, Repr

/-- The text shown for an error. -/
def Error.message : Error → String
  | malformed origin defect => "Malformed schema " ++ origin ++ ": " ++ defect.message
  | fieldType error => error.message
  | duplicateSource source => "Source already specified: " ++ source
  | duplicateMessage message => "Conflicting message name: " ++ message
  | duplicateMessageId id first second =>
    "Conflicting message id " ++ toString id.toNat ++ ": " ++ first ++ " and " ++ second
  | duplicateEntry enumeration entry =>
    "Conflicting enum entry name: " ++ entry ++ " (enum " ++ enumeration ++ ")"
  | duplicateParam entry index =>
    "Duplicated index " ++ toString index.toNat ++ " in enum entry " ++ entry

end MavlinkCompiler.Schema
