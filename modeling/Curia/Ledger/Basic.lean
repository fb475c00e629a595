import Curia.Ledger.Error
import Curia.Ledger.Event

/-!
The ledger: events are appended and never altered. Any attempt to append may be refused; a refused
attempt adds nothing.
-/

namespace Curia

structure Ledger where
  events : List Event
  /-- How many times an append was attempted. -/
  attempts : Nat
  /-- Which attempts are refused; the first has number one. -/
  refuses : Nat → Bool

namespace Ledger

def empty : Ledger := ⟨[], 0, fun _ => false⟩

def length (l : Ledger) : Nat := l.events.length

/-- The answer is the number of the event, counted from one. -/
def append (l : Ledger) (e : Event) : Except LedgerError Nat × Ledger :=
  let attempt := l.attempts + 1
  if l.refuses attempt then (.error (.refused l.length), { l with attempts := attempt })
  else (.ok (l.length + 1), { l with attempts := attempt, events := l.events ++ [e] })

def eventsOfKind (l : Ledger) (kind : String) : List Event :=
  l.events.filter fun e => e.kind = kind

end Ledger

end Curia
