import MavlinkCompiler.Text.Numeral
import MavlinkCompiler.Text.Split

/-!
# Character references

In attribute values and text runs an ampersand starts a reference, which ends at the next semicolon
and stands for one character: one of five named ones, or the character with a given decimal or
hexadecimal code.

* `reference?`: the character a reference stands for.
* `decode`: a text with its references replaced, each exactly once.
-/

namespace MavlinkCompiler.Xml

open Text

/-- Why a text with references could not be decoded. -/
inductive ReferenceError where
  /-- An ampersand without a semicolon after it, in this text. -/
  | unterminated (text : String)
  /-- A reference to no character. -/
  | unknown (reference : String)
  deriving DecidableEq, Repr

/-- The named references. -/
def namedReferences : List (List Char × Char) := [
  (['l', 't'], '<'),
  (['g', 't'], '>'),
  (['a', 'm', 'p'], '&'),
  (['q', 'u', 'o', 't'], '"'),
  (['a', 'p', 'o', 's'], '\'')]

/-- The character with a code, if the code is one of a character. -/
def charOfCode? (code : Nat) : Option Char :=
  if h : code.isValidChar then some (Char.ofNatAux code h) else none

/-- The code in a numeric reference: hexadecimal after `#x` or `#X`, decimal after `#`. -/
def referenceCode? : List Char → Option Nat
  | '#' :: 'x' :: digits => unsigned? 16 UInt32.size digits
  | '#' :: 'X' :: digits => unsigned? 16 UInt32.size digits
  | '#' :: digits => unsigned? 10 UInt32.size digits
  | _ => none

/-- The character that the text between ampersand and semicolon stands for, as `unescape` tells. -/
def reference? (body : List Char) : Option Char :=
  match namedReferences.lookup body with
  | some c => some c
  | none => (referenceCode? body).bind charOfCode?

/-- Replaces the references of a text; `whole` is the text shown when one is left open. -/
def decodeIn (whole : String) (cs : List Char) : Except ReferenceError (List Char) :=
  match cs with
  | [] => .ok []
  | c :: cs =>
    if c = '&' then
      match _h : cutAt? [';'] cs with
      | none => .error (.unterminated whole)
      | some (body, rest) =>
        match reference? body with
        | none => .error (.unknown (String.ofList body))
        | some c =>
          match decodeIn whole rest with
          | .ok decoded => .ok (c :: decoded)
          | .error e => .error e
    else
      match decodeIn whole cs with
      | .ok decoded => .ok (c :: decoded)
      | .error e => .error e
termination_by cs.length
decreasing_by
  · exact Nat.lt_succ_of_le (length_le_of_cutAt? _h)
  · exact Nat.lt_succ_self _

/-- A text with its references replaced: `unescape`. -/
def decode (text : String) : Except ReferenceError String :=
  (decodeIn text text.toList).map String.ofList

end MavlinkCompiler.Xml
