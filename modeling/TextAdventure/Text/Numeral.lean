/-!
# Unsigned decimal numerals

Numbers are written without leading zeros and read with any number of them; one leading `+` is
allowed when reading. A numeral is read from the left and its first fault is the one reported: at
each character the digit is checked before the size.
-/

namespace TextAdventure

namespace Numeral

/-- Why a text is not a numeral below a bound. -/
inductive Fault where
  /-- There is no character at all. -/
  | empty
  /-- A character is not an ASCII digit, or no digit follows the sign. -/
  | invalidDigit
  /-- The number reaches the bound. -/
  | tooLarge
deriving DecidableEq

/-- What the fault is, in words. -/
def Fault.message : Fault → String
  | .empty => "cannot parse integer from empty string"
  | .invalidDigit => "invalid digit found in string"
  | .tooLarge => "number too large to fit in target type"

/-- The value of an ASCII digit. -/
def digit? (c : Char) : Option Nat :=
  if '0' ≤ c ∧ c ≤ '9' then some (c.toNat - '0'.toNat) else none

/-- Reads digits on from a number that was read so far. -/
def readDigits (bound : Nat) : Nat → List Char → Except Fault Nat
  | sofar, [] => .ok sofar
  | sofar, c :: rest =>
    match digit? c with
    | none => .error .invalidDigit
    | some d =>
      if sofar * 10 + d < bound then readDigits bound (sofar * 10 + d) rest else .error .tooLarge

/-- Reads a number below `bound`. -/
def read (bound : Nat) : List Char → Except Fault Nat
  | [] => .error .empty
  | ['+'] => .error .invalidDigit
  | '+' :: rest => readDigits bound 0 rest
  | text => readDigits bound 0 text

/-- The digit character of a number below ten. -/
def digitChar (d : Nat) : Char := Char.ofNat ('0'.toNat + d)

/-- The digits of a number, most significant first. -/
def digits (n : Nat) : List Char :=
  if n < 10 then [digitChar n] else digits (n / 10) ++ [digitChar (n % 10)]
termination_by n
decreasing_by omega

/-- The numeral of a number. -/
def print (n : Nat) : String := String.ofList (digits n)

/-- The numeral of an integer, with a minus sign before a negative one. -/
def printInt (n : Int) : String :=
  if n < 0 then "-" ++ print n.natAbs else print n.natAbs

/-- Reads a number that fits 32 bits. -/
def readWord (text : List Char) : Except Fault UInt32 :=
  (read UInt32.size text).map UInt32.ofNat

end Numeral

end TextAdventure
