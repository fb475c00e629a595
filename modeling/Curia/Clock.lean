import Curia.Time.Instant

/-!
A clock with two hands: the wall clock, which may be moved both ways, and one that only goes
forward and measures how long something takes. The second hand moves on whenever it has been read;
how far may differ from reading to reading.
-/

namespace Curia

structure Clock where
  wall : Instant
  /-- Milliseconds since the second hand was started. -/
  elapsed : Nat
  /-- How often the second hand has been read. -/
  readings : Nat
  /-- Milliseconds by which each reading moves the second hand; the first has number zero. -/
  step : Nat → Nat

namespace Clock

/-- A clock that every reading moves by the same. -/
def start (now : Instant) (step : Nat) : Clock := ⟨now, 0, 0, fun _ => step⟩

/-- Reads the second hand. -/
def read (c : Clock) : Nat × Clock :=
  (c.elapsed, { c with elapsed := c.elapsed + c.step c.readings, readings := c.readings + 1 })

def set (c : Clock) (now : Instant) : Clock := { c with wall := now }

/-- Moves the wall clock by some milliseconds, if it can show the time. -/
def advance? (c : Clock) (milliseconds : Int) : Option Clock :=
  (c.wall.add? (1000000 * milliseconds)).map c.set

def advanceElapsed (c : Clock) (milliseconds : Nat) : Clock :=
  { c with elapsed := c.elapsed + milliseconds }

end Clock

end Curia
