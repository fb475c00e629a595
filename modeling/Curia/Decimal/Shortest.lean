/-!
The decimal number with the fewest digits inside an interval around a binary fraction, and the
nearest of those to the fraction.
-/

namespace Curia.Decimal

/-- The number `significand * 10 ^ exponent`. -/
structure Scientific where
  significand : Nat
  exponent : Int
  deriving DecidableEq

/-- The fraction `mid * 2 ^ q` with the ends of its interval, `lo * 2 ^ q` and `hi * 2 ^ q`. -/
structure Interval where
  lo : Nat
  mid : Nat
  hi : Nat
  q : Int
  /-- Whether the two ends belong to the interval. -/
  closed : Bool

namespace Interval

/-- Whether `c * 10 ^ e` lies in the interval. -/
def contains (i : Interval) (c : Nat) (e : Int) : Bool :=
  let x := (c * Nat.pow 10 e.toNat) <<< (-i.q).toNat
  let unit := Nat.pow 10 (-e).toNat <<< i.q.toNat
  if i.closed then decide (i.lo * unit ≤ x ∧ x ≤ i.hi * unit)
  else decide (i.lo * unit < x ∧ x < i.hi * unit)

/-- The multiple of `10 ^ e` in the interval that is nearest to its fraction, of two equally near
ones the even one. Only the two neighbours of the fraction need to be tried: whenever any multiple
lies in the interval, one of them does. -/
def nearest? (i : Interval) (e : Int) : Option Nat :=
  let numerator := (i.mid * Nat.pow 10 (-e).toNat) <<< i.q.toNat
  let denominator := Nat.pow 10 e.toNat <<< (-i.q).toNat
  let below := numerator / denominator
  let rest := 2 * (numerator % denominator)
  let (near, far) :=
    if rest < denominator ∨ (rest = denominator ∧ below % 2 = 0) then (below, below + 1)
    else (below + 1, below)
  if i.contains near e then some near
  else if i.contains far e then some far
  else none

/-- The first hit on the grids `10 ^ e`, `10 ^ (e - 1)` and so on. -/
def search (i : Interval) : Nat → Int → Option Scientific
  | 0, _ => none
  | n + 1, e => match i.nearest? e with
    | some c => some ⟨c, e⟩
    | none => search i n (e - 1)

/-- The grids tried reach from above the greatest binary64 number to below the least. -/
def shortest? (i : Interval) : Option Scientific := i.search 660 310

end Interval

end Curia.Decimal
