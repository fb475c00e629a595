import Curia.Decimal.Digits
import Curia.Decimal.Shortest
import Curia.Json.Basic

/-!
The text of JSON numbers. An integer that fits into 64 bits is read as an integer, any other number
as binary64: the digits fill a significand of 64 bits, which is then scaled by a power of ten. A
number with a fraction is written with the fewest digits that identify it.
-/

namespace Curia.Json.Number

open Decimal

/-- The parts of a number as it stands in a text. The fraction and the exponent are absent if their
mark is. -/
structure Literal where
  negative : Bool
  whole : List Char
  fraction : Option (List Char)
  exponent : Option (Bool × List Char)

/-- Appends digits to a significand for as long as it fits into 64 bits. Also counts the digits
that were taken. -/
def gather (significand : Nat) : List Char → Nat × Nat
  | [] => (significand, 0)
  | d :: ds =>
    let next := 10 * significand + digitValue d
    if next < UInt64.size then
      let (s, taken) := gather next ds
      (s, taken + 1)
    else (significand, 0)

/-- The value beyond the range of binary64. -/
def overflow (negative : Bool) : Float :=
  if negative then -1.0 / 0.0 else 1.0 / 0.0

/-- Scales by a power of ten, in steps of at most 308 places. -/
def scale : Nat → Float → Int → Float
  | 0, x, _ => x
  | n + 1, x, e =>
    if -308 ≤ e ∧ e ≤ 308 then
      if 0 ≤ e then x * Float.ofScientific 1 false e.toNat else x / Float.ofScientific 1 false (-e).toNat
    else if x == 0.0 then x
    else if 0 ≤ e then overflow false
    else scale n (x / 1e308) (e + 308)

/-- The binary64 number with the given sign, significand and power of ten. -/
def ofScaled (negative : Bool) (significand : Nat) (exponent : Int) : Number :=
  let x := scale 4 significand.toUInt64.toFloat exponent
  .float (if negative then -x else x).toBits

/-- The value of a literal. -/
def ofLiteral (l : Literal) : Number :=
  let (s, taken) := gather 0 l.whole
  let dropped : Int := l.whole.length - taken
  match l.fraction, l.exponent with
  | none, none =>
    if dropped ≠ 0 then ofScaled l.negative s dropped
    else if !l.negative then .int s
    else if s = 0 ∨ 1 <<< 63 < s then ofScaled true s 0
    else .int (-s)
  | fraction, exponent =>
    let (s, places) := gather s (fraction.getD [])
    let e := dropped - places
    match exponent with
    | none => ofScaled l.negative s e
    | some (down, ds) => ofScaled l.negative s (if down then e - value ds else e + value ds)

/-- The interval of the real numbers that binary64 rounds to the given positive number. -/
def interval (bits : UInt64) : Interval :=
  let f := (bits &&& 0xfffffffffffff).toNat
  let e := ((bits >>> 52) &&& 0x7ff).toNat
  let m := if e = 0 then f else f + 1 <<< 52
  let q : Int := (if e = 0 then 1 else e) - 1077
  ⟨if f = 0 ∧ 1 < e then 4 * m - 1 else 4 * m - 2, 4 * m, 4 * m + 2, q, m % 2 = 0⟩

/-- Numbers from 0.00001 up to 10 to the 16th are written out; for others the exponent of the
first digit follows with its sign. A whole number has the fraction zero where it is written out. -/
def layout (s : Scientific) : List Char :=
  let ds := digits s.significand
  let point : Int := ds.length + s.exponent
  if 0 ≤ s.exponent ∧ point ≤ 16 then ds ++ List.replicate s.exponent.toNat '0' ++ ['.', '0']
  else if 0 < point ∧ point ≤ 16 then ds.take point.toNat ++ '.' :: ds.drop point.toNat
  else if -5 < point ∧ point ≤ 0 then '0' :: '.' :: List.replicate (-point).toNat '0' ++ ds
  else
    let e := point - 1
    let tail := 'e' :: (if e < 0 then '-' else '+') :: digits e.natAbs
    match ds with
    | [d] => d :: tail
    | d :: rest => d :: '.' :: rest ++ tail
    | [] => tail

/-- The text of a binary64 number; one that is not finite is written as `null`. -/
def floatText (bits : UInt64) : List Char :=
  if !(Number.float bits).isFinite then ['n', 'u', 'l', 'l']
  else
    let magnitude := bits &&& 0x7fffffffffffffff
    let unsigned :=
      if magnitude = 0 then ['0', '.', '0']
      else match (interval magnitude).shortest? with
        | some s => layout s
        | none => []
    if bits = magnitude then unsigned else '-' :: unsigned

def text : Number → List Char
  | .int (.ofNat n) => digits n
  | .int (.negSucc n) => '-' :: digits (n + 1)
  | .float bits => floatText bits

end Curia.Json.Number
