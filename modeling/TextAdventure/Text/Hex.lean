/-!
# Hexadecimal text

Bytes are shown in two notations: as lower-case text without separators, and as a bracketed list of
upper-case pairs. Code points are shown in lower case without leading zeros.
-/

namespace TextAdventure.Hex

/-- The digits of the lower-case notation. -/
def lowerDigit (n : Nat) : Char :=
  if n < 10 then Char.ofNat ('0'.toNat + n) else Char.ofNat ('a'.toNat + (n - 10))

/-- The digits of the upper-case notation. -/
def upperDigit (n : Nat) : Char :=
  if n < 10 then Char.ofNat ('0'.toNat + n) else Char.ofNat ('A'.toNat + (n - 10))

/-- The value of a digit of either notation. -/
def digit? (c : Char) : Option Nat :=
  if '0' ≤ c ∧ c ≤ '9' then some (c.toNat - '0'.toNat)
  else if 'a' ≤ c ∧ c ≤ 'f' then some (c.toNat - 'a'.toNat + 10)
  else if 'A' ≤ c ∧ c ≤ 'F' then some (c.toNat - 'A'.toNat + 10)
  else none

/-- A number in lower-case notation. -/
def digits (n : Nat) : List Char :=
  if n < 16 then [lowerDigit n] else digits (n / 16) ++ [lowerDigit (n % 16)]
termination_by n
decreasing_by omega

/-- Two lower-case digits for a byte. -/
def lowerPair (b : UInt8) : List Char := [lowerDigit (b.toNat / 16), lowerDigit (b.toNat % 16)]

/-- Two upper-case digits for a byte. -/
def upperPair (b : UInt8) : List Char := [upperDigit (b.toNat / 16), upperDigit (b.toNat % 16)]

/-- Bytes as text, two lower-case digits each. -/
def ofBytes (bytes : List UInt8) : String := String.ofList (bytes.flatMap lowerPair)

/-- Reads bytes back from their text. -/
def toBytes? : List Char → Option (List UInt8)
  | [] => some []
  | [_] => none
  | high :: low :: rest => do
    let h ← digit? high
    let l ← digit? low
    let bytes ← toBytes? rest
    return UInt8.ofNat (16 * h + l) :: bytes

/-- Bytes as a bracketed list of upper-case pairs, such as `[41, 4C]`. -/
def listing (bytes : List UInt8) : String :=
  "[" ++ ", ".intercalate (bytes.map fun b => String.ofList (upperPair b)) ++ "]"

end TextAdventure.Hex
