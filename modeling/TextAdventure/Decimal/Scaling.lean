import TextAdventure.Decimal.Binary64

/-!
# Decimal literals as binary numbers

A literal is read in floating point: its leading digits form a whole number of 64 bits, which is
then multiplied or divided by a power of ten. Each of these steps rounds, so the result is close to
the literal but not always the nearest binary number. A literal that is too large has no value; one
that is too small is zero.
-/

namespace TextAdventure.Decimal

/-- A power of ten up to `10 ^ 308`, rounded. -/
def powerOfTen (e : Nat) : Float := Float.ofScientific 1 false e

/-- Divides by `10 ^ n`, in steps if `10 ^ n` itself is too large. -/
def divide (x : Float) (n : Nat) : Float :=
  if n ≤ 308 then x / powerOfTen n
  else if x == 0 then x
  else divide (x / powerOfTen 308) (n - 308)
termination_by n
decreasing_by omega

/-- Scales a whole number of 64 bits by a power of ten, unless the result is too large. -/
def scale (significand : UInt64) (exponent : Int) : Option Float :=
  if exponent < 0 then
    some (divide significand.toFloat exponent.natAbs)
  else if exponent ≤ 308 then
    let x := significand.toFloat * powerOfTen exponent.natAbs
    if x.isInf then none else some x
  else if significand = 0 then
    some 0
  else
    none

/-- Takes digits into a number as long as it fits 64 bits. Returns the number, how many digits were
taken and how many were left over. -/
def takeDigits : Nat → Nat → List Char → Nat × Nat × Nat
  | significand, taken, [] => (significand, taken, 0)
  | significand, taken, c :: rest =>
    let next := 10 * significand + (Numeral.digit? c).getD 0
    if next < UInt64.size then takeDigits next (taken + 1) rest
    else (significand, taken, rest.length + 1)

/-- The binary number that a literal denotes, unless it is too large. -/
def Literal.toBinary64? (l : Literal) : Option Binary64 :=
  let (significand, _, left) := takeDigits 0 0 l.whole
  let (significand, taken, _) := takeDigits significand 0 l.fraction
  let exponent := (l.exponent.map Exponent.value).getD 0 + left - taken
  (scale (UInt64.ofNat significand) exponent).map fun x =>
    ⟨(if l.negative then -x else x).toBits⟩

end TextAdventure.Decimal
