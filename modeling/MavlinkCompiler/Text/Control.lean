/-!
# Control characters in shown text

Some control characters steer a terminal: they ring its bell, move its cursor or start a sequence
that changes its colours. Where a text from a definition file is shown as a message, these are
spelled out, so that they have no effect. Other characters are shown as they are.

* `steersTerminal`: which characters are spelled out.
* `spelledOut`: a text with these characters spelled out.
-/

namespace MavlinkCompiler.Text

/-- The controls of ASCII that steer a terminal: bell, backspace, form feed, escape and delete. -/
def asciiSteering : List Nat := [0x07, 0x08, 0x0C, 0x1B, 0x7F]

/-- Whether a character is a control of Latin-1 beyond ASCII. All of them steer a terminal. -/
def isHighControl (c : Char) : Bool :=
  0x80 ≤ c.toNat && c.toNat ≤ 0x9F

/-- Whether a character steers a terminal. -/
def steersTerminal (c : Char) : Bool :=
  asciiSteering.contains c.toNat || isHighControl c

/-- The two hexadecimal digits of a code point below 256. -/
def twoDigits (code : Nat) : String :=
  String.ofList [Nat.digitChar (code / 16), Nat.digitChar (code % 16)]

/-- A character below 256 as its code point. -/
def codePoint (c : Char) : String :=
  if isHighControl c then
    "\\u\x7b" ++ twoDigits c.toNat ++ "\x7d"
  else
    "\\x" ++ twoDigits c.toNat

/-- A character as it is shown in a message. -/
def spelledOutChar (c : Char) : String :=
  if steersTerminal c then codePoint c else String.singleton c

/-- A text as it is shown in a message. -/
def spelledOut (text : String) : String :=
  String.join (text.toList.map spelledOutChar)

end MavlinkCompiler.Text
