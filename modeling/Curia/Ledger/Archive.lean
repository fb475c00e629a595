import Curia.Json.Bytes
import Curia.Json.Writer
import Curia.Ledger.Basic

/-!
The ledger as it is kept on disk: a table from keys to values, both rows of bytes, in the order of
the keys. A key is a sequence number of eight bytes, the most significant first, and a value is the
text of an event. Numbers are handed out in ascending order and never twice; when the table is
opened again some may be passed over.
-/

namespace Curia

structure Archive where
  entries : SortedMap (List UInt8) (List UInt8)
  /-- The last sequence number that was handed out. -/
  issued : Nat
  deriving DecidableEq

namespace Archive

def empty : Archive := ⟨∅, 0⟩

/-- How many numbers are passed over depends on how many had been reserved when the table was closed
or lost. -/
def reopen (a : Archive) (skipped : Nat) : Archive := { a with issued := a.issued + skipped }

def encodeSequence (n : Nat) : List UInt8 :=
  (List.range 8).map fun i => UInt8.ofNat (n >>> (8 * (7 - i)))

def decodeSequence (key : List UInt8) : Except LedgerError Nat :=
  if key.length = 8 then .ok (key.foldl (fun n b => 256 * n + b.toNat) 0)
  else .error (.keyLength key.length)

def encodeEvent (e : Event) : List UInt8 := (Json.object e.members).render.toUTF8.toList

/-- The event whose text a value is. -/
def decodeEvent? (value : List UInt8) : Option Event := do
  let v ← Json.parseBytes value
  match Event.ofJson v with
  | .ok e => some e
  | .error _ => none

def readEntry (entry : List UInt8 × List UInt8) : Except LedgerError (Nat × Event) := do
  let sequence ← decodeSequence entry.1
  match decodeEvent? entry.2 with
  | some e => .ok (sequence, e)
  | none => .error (.undecodable sequence)

/-- All events with their numbers, in the order of the keys; the first bad entry is reported. -/
def readAll (a : Archive) : Except LedgerError (List (Nat × Event)) :=
  a.entries.toList.mapM readEntry

/-- Appends under the next number. A key that is taken is left as it is. -/
def append (a : Archive) (e : Event) : Except LedgerError Nat × Archive :=
  let sequence := a.issued + 1
  let key := encodeSequence sequence
  let next := { a with issued := sequence }
  if a.entries.contains key then (.error (.occupied sequence), next)
  else (.ok sequence, { next with entries := a.entries.insert key (encodeEvent e) })

end Archive

end Curia
