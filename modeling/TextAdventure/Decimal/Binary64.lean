import TextAdventure.Decimal.Literal
import TextAdventure.Decimal.Shortest

/-!
# Binary numbers of 64 bits and their decimal texts

A number is kept by its bit pattern. Two texts are made of it from the same shortest digits: the
plain one, which never has an exponent, and the one of data documents, which has an exponent for
very large and very small numbers and always a point otherwise.
-/

namespace TextAdventure

/-- A number in the 64-bit binary floating-point format, by its bits. -/
structure Binary64 where
  bits : UInt64
deriving DecidableEq

namespace Binary64

/-- What a bit pattern denotes. -/
inductive Parts where
  | notANumber
  | infinite (negative : Bool)
  | finite (negative : Bool) (magnitude : Decimal.Binary)

/-- The value of the bit of sign. -/
def signUnit : Nat := 0x8000000000000000

/-- The value of the lowest bit of the exponent. -/
def exponentUnit : Nat := 0x10000000000000

/-- Takes a bit pattern apart: one bit of sign, eleven of exponent, fifty-two of fraction. -/
def parts (x : Binary64) : Parts :=
  let n := x.bits.toNat
  let negative : Bool := decide (signUnit ≤ n)
  let exponent : Nat := n / exponentUnit % 0x800
  let fraction : Nat := n % exponentUnit
  if exponent = 0x7FF then
    if fraction = 0 then .infinite negative else .notANumber
  else if exponent = 0 then
    .finite negative ⟨fraction, -1074, false⟩
  else
    .finite negative
      ⟨exponentUnit + fraction, (exponent : Int) - 1075, decide (fraction = 0 ∧ 1 < exponent)⟩

end Binary64

namespace Decimal

/-- How a number is laid out in digits. -/
structure Layout where
  /-- Whether a number whose first digit has this weight is written without exponent. -/
  positional : Int → Bool
  /-- Whether a whole number keeps a point and a zero. -/
  keepPoint : Bool
  /-- Which of two equally near decimals is taken. -/
  tie : Tie

/-- Plain numbers never have an exponent, whole ones have no point, and a tie goes up. -/
def Layout.plain : Layout := ⟨fun _ => true, false, .up⟩

/-- Numbers in documents have an exponent outside of `10 ^ -5` to `10 ^ 15`, whole ones keep a point,
and a tie goes to the even digit. -/
def Layout.document : Layout := ⟨fun e => -5 ≤ e ∧ e ≤ 15, true, .even⟩

/-- The literal of `c * 10 ^ k` without exponent. -/
def positionalLiteral (keepPoint negative : Bool) (c : Nat) (k : Int) : Literal :=
  let digits := Numeral.digits c
  let point : Int := digits.length + k
  let whole :=
    if 0 ≤ k then digits ++ List.replicate k.toNat '0'
    else if 0 < point then digits.take point.toNat
    else ['0']
  let fraction :=
    if 0 ≤ k then []
    else if 0 < point then digits.drop point.toNat
    else List.replicate (-point).toNat '0' ++ digits
  { negative, whole
    fraction := if fraction.isEmpty && keepPoint then ['0'] else fraction
    exponent := none }

/-- The literal of `c * 10 ^ k` with one digit before the point and an exponent, which always has a
sign. -/
def scientificLiteral (negative : Bool) (c : Nat) (k : Int) : Literal :=
  let digits := Numeral.digits c
  let weight : Int := digits.length - 1 + k
  { negative
    whole := digits.take 1
    fraction := digits.drop 1
    exponent := some
      { sign := if weight < 0 then .minus else .plus
        digits := Numeral.digits weight.natAbs } }

/-- The literal of a finite number. -/
def Layout.literal (layout : Layout) (negative : Bool) (b : Binary) : Literal :=
  let (c, k) := if b.m = 0 then (0, 0) else b.shortest layout.tie
  if layout.positional ((Numeral.digits c).length - 1 + k) then
    positionalLiteral layout.keepPoint negative c k
  else
    scientificLiteral negative c k

end Decimal

namespace Binary64

/-- The plain text of a number. -/
def print (x : Binary64) : String :=
  match x.parts with
  | .notANumber => "NaN"
  | .infinite false => "inf"
  | .infinite true => "-inf"
  | .finite negative b => String.ofList (Decimal.Layout.plain.literal negative b).chars

/-- The literal of a number in a document; infinities and what is not a number have none. -/
def literal? (x : Binary64) : Option Decimal.Literal :=
  match x.parts with
  | .finite negative b => some (Decimal.Layout.document.literal negative b)
  | _ => none

end Binary64

end TextAdventure
