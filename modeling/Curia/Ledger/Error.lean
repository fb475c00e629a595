/-!
Why the ledger refuses to append or cannot be read.
-/

namespace Curia

inductive LedgerError where
  /-- The ledger did not take the event; it held `length` events. -/
  | refused (length : Nat)
  | occupied (sequence : Nat)
  /-- A key that is not a sequence number of eight bytes. -/
  | keyLength (bytes : Nat)
  /-- An entry that is not the text of an event. -/
  | undecodable (sequence : Nat)
  deriving DecidableEq

namespace LedgerError

def sequence : LedgerError → Nat
  | refused n => n
  | occupied n => n
  | keyLength _ => 0
  | undecodable n => n

def detail? : LedgerError → Option String
  | refused _ => some "append refused"
  | occupied _ => some "sequence already occupied"
  | keyLength n => some s!"key of {n} bytes"
  | undecodable _ => none

/-- The name under which a caller tells errors apart: all of them concern an entry. -/
def kind : LedgerError → String := fun _ => "CorruptEntry"

def message (e : LedgerError) : String :=
  let start := s!"Corrupt ledger entry at sequence {e.sequence}"
  match e.detail? with
  | some detail => s!"{start}: {detail}"
  | none => start

end LedgerError

end Curia
