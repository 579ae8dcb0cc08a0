/-!
# The shortest decimal of a binary number

A finite number in the 64-bit binary format is `m * 2 ^ q`, and stands for all real numbers that
round to it: an interval around it that reaches half way to its neighbours and holds its ends
exactly if `m` is even. Its shortest decimal is the point of that interval on the coarsest decimal
grid that meets the interval, and of two such points the nearer one. All comparisons are made in
natural numbers.
-/

namespace TextAdventure.Decimal

/-- Which of two equally near points is taken. -/
inductive Tie where
  /-- The larger one. -/
  | up
  /-- The one whose last digit is even. -/
  | even
deriving DecidableEq

/-- A finite positive number `m * 2 ^ q`. At a power of two the neighbour below is only half as far
away as the one above; `narrowBelow` says so. -/
structure Binary where
  m : Nat
  q : Int
  narrowBelow : Bool

namespace Binary

/-- One quarter of the number's last binary digit, measured in units of the grid `10 ^ k`: a
fraction with this numerator and `unit` as denominator. -/
def quarter (b : Binary) (k : Int) : Nat := Nat.pow 2 (b.q - 2).toNat * Nat.pow 10 (-k).toNat

/-- The denominator that belongs to `quarter`. -/
def unit (b : Binary) (k : Int) : Nat := Nat.pow 2 (2 - b.q).toNat * Nat.pow 10 k.toNat

/-- Whether the point `c * 10 ^ k` rounds to the number. -/
def covers (b : Binary) (k : Int) (c : Nat) : Bool :=
  let point := c * b.unit k
  let low := (4 * b.m - (if b.narrowBelow then 1 else 2)) * b.quarter k
  let high := (4 * b.m + 2) * b.quarter k
  if b.m % 2 = 0 then low ≤ point && point ≤ high else low < point && point < high

/-- The point of the grid `10 ^ k` that stands for the number, if there is one. -/
def onGrid (b : Binary) (tie : Tie) (k : Int) : Option Nat :=
  let value := 4 * b.m * b.quarter k
  let below := value / b.unit k
  match b.covers k below, b.covers k (below + 1) with
  | false, false => none
  | true, false => some below
  | false, true => some (below + 1)
  | true, true =>
    let down := value - below * b.unit k
    let up := (below + 1) * b.unit k - value
    if down < up then some below
    else if up < down then some (below + 1)
    else match tie with
      | .up => some (below + 1)
      | .even => some (if below % 2 = 0 then below else below + 1)

/-- Tries `count` grids, each ten times finer than the one before. -/
def search (b : Binary) (tie : Tie) : (count : Nat) → (k : Int) → Nat × Int
  | 0, k => (4 * b.m * b.quarter k / b.unit k, k)
  | count + 1, k =>
    match b.onGrid tie k with
    | some c => (c, k)
    | none => search b tie count (k - 1)

/-- A grid that is coarser than the number: `30103 / 100000` is a little more than the logarithm of
two to base ten. -/
def coarsest (b : Binary) : Int := (b.q + 64) * 30103 / 100000 + 1

/-- The shortest decimal `c * 10 ^ k`, as `(c, k)`. Between the coarsest grid and the last binary
digit lie fewer than thirty grids. -/
def shortest (b : Binary) (tie : Tie) : Nat × Int := b.search tie 30 b.coarsest

end Binary

end TextAdventure.Decimal
