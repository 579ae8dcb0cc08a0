import TextAdventure.Text.Numeral

/-!
# Decimal literals

A decimal number as it is written: sign, whole digits, digits after the point, exponent. The parts
are kept as digits, so that a literal says how a number looks and not only what it is worth.
-/

namespace TextAdventure.Decimal

/-- The sign of an exponent, which may be left out. -/
inductive ExponentSign where
  | absent
  | plus
  | minus
deriving DecidableEq

/-- The exponent of a literal. -/
structure Exponent where
  sign : ExponentSign
  digits : List Char
deriving DecidableEq

/-- A decimal number as it is written. Without digits in `fraction` there is no point. -/
structure Literal where
  negative : Bool
  whole : List Char
  fraction : List Char
  exponent : Option Exponent
deriving DecidableEq

/-- The characters of an exponent. -/
def Exponent.chars (e : Exponent) : List Char :=
  'e' :: (match e.sign with
    | .absent => e.digits
    | .plus => '+' :: e.digits
    | .minus => '-' :: e.digits)

/-- The characters of a literal. -/
def Literal.chars (l : Literal) : List Char :=
  (if l.negative then ['-'] else []) ++ l.whole
    ++ (if l.fraction.isEmpty then [] else '.' :: l.fraction)
    ++ (match l.exponent with
      | none => []
      | some e => e.chars)

/-- The literal of an integer. -/
def Literal.ofInt (n : Int) : Literal :=
  { negative := n < 0, whole := Numeral.digits n.natAbs, fraction := [], exponent := none }

/-- The number that digits denote; other characters count as zero. -/
def digitsValue (digits : List Char) : Nat :=
  digits.foldl (fun n c => 10 * n + (Numeral.digit? c).getD 0) 0

/-- The number that an exponent denotes. -/
def Exponent.value (e : Exponent) : Int :=
  match e.sign with
  | .minus => -(digitsValue e.digits : Int)
  | _ => digitsValue e.digits

/-- The magnitude of a literal without point and exponent. -/
def Literal.whole? (l : Literal) : Option Nat :=
  if l.fraction.isEmpty && l.exponent.isNone then some (digitsValue l.whole) else none

end TextAdventure.Decimal
