import MavlinkCompiler.Text.Blank
import MavlinkCompiler.Text.CaseTable

/-!
# Letter case

Full case conversion of text. One character may become several, and one conversion looks at its
neighbours: a capital sigma at the end of a word becomes a final small sigma. A word ends where,
after characters that case conversion ignores, no further letter with a case follows.

* `lower`: a text in lower case.
* `upperChar`: a character in upper case.
* `capitalize`: a text in lower case with its first character in upper case.
-/

namespace MavlinkCompiler.Text

/-- The image of a code point under a run, if it lies on the run. -/
def CaseRun.image? (run : CaseRun) (code : Nat) : Option Nat :=
  if run.first ≤ code && code ≤ run.last && (code - run.first) % run.step == 0 then
    some ((code : Int) + run.shift).toNat
  else
    none

/-- The image of a character under a case mapping; a character outside the tables is its own. -/
def caseImage (runs : List CaseRun) (sequences : List (Nat × List Nat)) (c : Char) : List Char :=
  match sequences.lookup c.toNat with
  | some codes => codes.map Char.ofNat
  | none =>
    match runs.findSome? (·.image? c.toNat) with
    | some code => [Char.ofNat code]
    | none => [c]

/-- A character in lower case, without regard to its neighbours. -/
def lowerChar (c : Char) : List Char :=
  if c.toNat < 128 then [c.toLower] else caseImage lowerRuns lowerSequences c

/-- A character in upper case. -/
def upperChar (c : Char) : List Char :=
  if c.toNat < 128 then [c.toUpper] else caseImage upperRuns upperSequences c

/-! ## The capital sigma -/

/-- Whether the first character that is not ignorable is a letter with a case. -/
def meetsCased (cs : List Char) : Bool :=
  match cs.dropWhile fun c => inRanges caseIgnorableRanges c.toNat with
  | c :: _ => inRanges casedRanges c.toNat
  | [] => false

/-- The small form of a capital sigma between `before`, nearest character first, and `after`. -/
def smallSigma (before after : List Char) : Char :=
  if meetsCased before && !meetsCased after then 'ς' else 'σ'

/-! ## Texts -/

/-- Lower case of a text whose preceding characters, nearest first, are `before`. -/
def lowerFrom (before : List Char) : List Char → List Char
  | [] => []
  | c :: cs =>
    (if c = 'Σ' then [smallSigma before cs] else lowerChar c) ++ lowerFrom (c :: before) cs

/-- A text in lower case. -/
def lower (s : String) : String :=
  String.ofList (lowerFrom [] s.toList)

/-- A text in lower case, its first character raised to upper case. -/
def capitalize (s : String) : String :=
  match lowerFrom [] s.toList with
  | [] => ""
  | c :: cs => String.ofList (upperChar c ++ cs)

end MavlinkCompiler.Text
