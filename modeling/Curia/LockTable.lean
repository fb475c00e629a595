/-!
A table of locks by key. Running something under a lock puts a slot for the key into the table and
takes it out when the run returns; a run that fails leaves its slot behind.
-/

namespace Curia

/-- What happens under a lock: further locked runs, and then a return or a failure. Where a failure
is caught, what the run is part of goes on; otherwise that fails at once. -/
inductive LockedRun (κ : Type) where
  | call (key : κ) (body : List (LockedRun κ)) (fails caught : Bool)

namespace LockTable

inductive Mark where
  | enter
  | exit
  | fail
  deriving DecidableEq

/-- The start or the end of a run. -/
structure Step (κ : Type) where
  mark : Mark
  key : κ
  deriving DecidableEq

/-- What can be observed: a step, with the number of slots that are then in use. -/
structure Trace (κ : Type) extends Step κ where
  active : Nat
  deriving DecidableEq

/-- The steps of one run or of several, and whether the last of them has failed without being
caught. -/
structure History (κ : Type) where
  steps : List (Step κ)
  fails : Bool

mutual

/-- A failure ends the run that it happens in and, until it is caught, those around it. -/
def history : LockedRun κ → History κ
  | .call key body fails caught =>
    let inner := historyAll body
    let failed := inner.fails || fails
    { steps := ⟨.enter, key⟩ :: inner.steps ++ [⟨if failed then .fail else .exit, key⟩]
      fails := failed && !caught }

def historyAll : List (LockedRun κ) → History κ
  | [] => ⟨[], false⟩
  | r :: rs =>
    let first := history r
    if first.fails then first
    else
      let rest := historyAll rs
      { rest with steps := first.steps ++ rest.steps }

end

/-- The lock of a key. -/
structure Slot where
  /-- One for the table, and one for each run that has entered and not ended. -/
  references : Nat
  isHeld : Bool
  /-- Whether a run has failed under the lock. The lock can be taken all the same. -/
  isPoisoned : Bool
  deriving DecidableEq

end LockTable

/-- The slots by their keys, the newest first. -/
structure LockTable (κ : Type) where
  slots : List (κ × LockTable.Slot)
  deriving DecidableEq

namespace LockTable

variable {κ : Type} [DecidableEq κ]

def keys (t : LockTable κ) : List κ := t.slots.map Prod.fst

def active (t : LockTable κ) : Nat := t.slots.length

def slot? (t : LockTable κ) (k : κ) : Option Slot :=
  (t.slots.find? fun e => e.1 = k).map Prod.snd

def remove (t : LockTable κ) (k : κ) : LockTable κ :=
  ⟨t.slots.filter fun e => e.1 ≠ k⟩

def put (t : LockTable κ) (k : κ) (s : Slot) : LockTable κ :=
  ⟨(k, s) :: (t.remove k).slots⟩

/-- Takes the lock of the key, in a new slot if there is none. A run that takes a lock that it holds
waits for itself for ever. -/
def enter? (t : LockTable κ) (k : κ) : Option (LockTable κ) :=
  match t.slot? k with
  | none => some (t.put k ⟨2, true, false⟩)
  | some s =>
    if s.isHeld then none
    else some (t.put k { s with references := s.references + 1, isHeld := true })

/-- Gives the lock back. The slot goes when nothing but the table and this run refers to it. -/
def leave (t : LockTable κ) (k : κ) : LockTable κ :=
  match t.slot? k with
  | none => t
  | some s =>
    if s.references = 2 then t.remove k
    else t.put k { s with references := s.references - 1, isHeld := false }

/-- What a failure does on its way: the lock is given back, and nothing looks after the slot. -/
def unwind (t : LockTable κ) (k : κ) : LockTable κ :=
  match t.slot? k with
  | none => t
  | some s => t.put k ⟨s.references - 1, false, true⟩

/-- The table after a step, unless that waits for ever. -/
def after? (t : LockTable κ) (s : Step κ) : Option (LockTable κ) :=
  match s.mark with
  | .enter => t.enter? s.key
  | .exit => some (t.leave s.key)
  | .fail => some (t.unwind s.key)

/-- Takes steps one after another, up to the first that waits for ever. -/
def follow (t : LockTable κ) : List (Step κ) → LockTable κ × List (Trace κ)
  | [] => (t, [])
  | s :: steps =>
    match t.after? s with
    | none => (t, [])
    | some t =>
      let (left, trace) := follow t steps
      (left, ⟨s, t.active⟩ :: trace)

def runAll (t : LockTable κ) (runs : List (LockedRun κ)) : LockTable κ × List (Trace κ) :=
  t.follow (historyAll runs).steps

end LockTable

end Curia
