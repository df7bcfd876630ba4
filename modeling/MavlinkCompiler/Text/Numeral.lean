/-!
# Numerals

Whole numbers in positional notation. A numeral is one or more digits of its radix, with letters of
either case for the digits from ten; it may have a sign in front, `+` always and `-` where negative
numbers are meant. No other character is allowed, and leading zeros do not matter.

* `natural?`: digits only.
* `unsigned?`: digits with an optional `+`, below a bound.
* `signed?`: digits with an optional sign, within a signed range.
-/

namespace MavlinkCompiler.Text

/-- The value of a digit below `radix`. -/
def digit? (radix : Nat) (c : Char) : Option Nat :=
  let value :=
    if '0' ≤ c && c ≤ '9' then some (c.toNat - '0'.toNat)
    else if 'a' ≤ c && c ≤ 'z' then some (c.toNat - 'a'.toNat + 10)
    else if 'A' ≤ c && c ≤ 'Z' then some (c.toNat - 'A'.toNat + 10)
    else none
  value.filter (· < radix)

/-- Appends digits to the number read so far. -/
def digitsFrom (radix : Nat) (value : Nat) : List Char → Option Nat
  | [] => some value
  | c :: cs =>
    match digit? radix c with
    | some d => digitsFrom radix (value * radix + d) cs
    | none => none

/-- The number written by one or more digits. -/
def natural? (radix : Nat) (cs : List Char) : Option Nat :=
  if cs.isEmpty then none else digitsFrom radix 0 cs

/-- A number below `bound`, optionally with a `+` in front. -/
def unsigned? (radix bound : Nat) (cs : List Char) : Option Nat :=
  let digits :=
    match cs with
    | '+' :: rest => rest
    | _ => cs
  (natural? radix digits).filter (· < bound)

/-- A number from `-bound` to `bound - 1`, optionally with a sign in front. -/
def signed? (radix bound : Nat) (cs : List Char) : Option Int :=
  let value :=
    match cs with
    | '+' :: rest => (natural? radix rest).map Int.ofNat
    | '-' :: rest => (natural? radix rest).map fun n => -(n : Int)
    | _ => (natural? radix cs).map Int.ofNat
  value.filter fun z => -(bound : Int) ≤ z && z < bound

end MavlinkCompiler.Text
