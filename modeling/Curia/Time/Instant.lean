import Curia.Time.Calendar

/-!
Points in time, in coordinated universal time with a resolution of a nanosecond. A leap second is
the continuation of a second that ends a minute.
-/

namespace Curia

namespace Instant

def minSeconds : Int := 86400 * (Date.mk (-262143) 1 1).toDays
def maxSeconds : Int := 86400 * (Date.mk 262143 1 1).toDays - 1

def second : Nat := 1000000000

/-- Which readings name a point in time: years -262143 to 262142, and a thousand million or more
nanoseconds only at the end of a minute. -/
def Valid (seconds : Int) (nanos : Nat) : Prop :=
  minSeconds ≤ seconds ∧ seconds ≤ maxSeconds ∧ nanos < 2 * second ∧
    (second ≤ nanos → seconds % 60 = 59)

instance (seconds : Int) (nanos : Nat) : Decidable (Valid seconds nanos) :=
  inferInstanceAs (Decidable (_ ∧ _ ∧ _ ∧ _))

end Instant

structure Instant where
  /-- Seconds since 1970-01-01, leap seconds not counted. -/
  seconds : Int
  nanos : Nat
  valid : Instant.Valid seconds nanos
  deriving DecidableEq

namespace Instant

/-- The instant from which seconds are counted. -/
def epoch : Instant := ⟨0, 0, by decide⟩

def of? (seconds : Int) (nanos : Nat) : Option Instant :=
  if h : Valid seconds nanos then some ⟨seconds, nanos, h⟩ else none

def compare (a b : Instant) : Ordering :=
  (Ord.compare a.seconds b.seconds).then (Ord.compare a.nanos b.nanos)

instance : Ord Instant := ⟨compare⟩

instance : LE Instant := ⟨fun a b => (compare a b).isLE⟩
instance : LT Instant := ⟨fun a b => compare a b = .lt⟩
instance : DecidableLE Instant := fun a b => inferInstanceAs (Decidable ((compare a b).isLE = true))
instance : DecidableLT Instant := fun a b => inferInstanceAs (Decidable (compare a b = .lt))

/-- The time some nanoseconds later, or earlier. A step out of a leap second counts from the second
that it continues. -/
def add? (t : Instant) (nanoseconds : Int) : Option Instant :=
  let whole := nanoseconds.tdiv second
  let part := nanoseconds.tmod second
  let n : Int := t.nanos
  let normal (s n : Int) : Option Instant :=
    let total := n + part
    of? (s + whole + total.fdiv second) (total.fmod second).toNat
  if n < second then normal t.seconds n
  else if 0 < whole ∨ (0 < part ∧ 2 * second - part ≤ n) then normal t.seconds (n - second)
  else if whole < 0 then normal (t.seconds + 1) (n - second)
  else of? t.seconds (n + part).toNat

end Instant

end Curia
