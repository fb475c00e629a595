import Curia.Council.DissentStore
import Curia.Ledger.Basic

/-!
Recording dissents. The event is appended to the ledger before the record is stored; a record whose
event is on the ledger but which could not be stored is held until it can be.
-/

namespace Curia

structure Recorder where
  store : DissentStore
  /-- Records with an event on the ledger that are not in the store yet. -/
  held : SortedMap SessionId Dissent

namespace Recorder

def empty : Recorder := ⟨.empty, ∅⟩

/-- The outcomes that the vote of a dissenter can have been for, going by the number of votes. -/
def candidates (c : Consensus) (majority : Outcome) : List Outcome :=
  (c.distribution.toList.filter fun e => e.1 ≠ majority ∧ e.2 = 1).map (·.1)

/-- The outcome that the dissenter voted for: as the session has it, or the only candidate. -/
def dissentOutcome (s : Session) (c : Consensus) (a : Archon) (majority : Outcome) :
    Except CouncilError Outcome :=
  match s.voteOf? a with
  | some o => .ok o
  | none => match candidates c majority with
    | [only] => .ok only
    | os => .error (.ambiguousDissent s.id a os)

/-- The record of the dissent that a consensus names. -/
def dissentOf (s : Session) (c : Consensus) (rationale : String) (now : Instant) (id : DissentId) :
    Except CouncilError Dissent :=
  match c.winner, c.dissenter with
  | some majority, some a => do
    let o ← dissentOutcome s c a majority
    Dissent.new id s.id s.petition a o majority rationale now
  | _, _ => .error (.unresolved s.id c.status)

/-- The record for a session, held or new. A new one is put on the ledger and held. -/
def witness (r : Recorder) (l : Ledger) (s : Session) (c : Consensus) (rationale : String)
    (now : Instant) (id : DissentId) (eventId : EventId) :
    Except CouncilError Dissent × Recorder × Ledger :=
  match r.held.get? s.id with
  | some d => (.ok d, r, l)
  | none => match dissentOf s c rationale now id with
    | .error e => (.error e, r, l)
    | .ok d => match l.append (d.event eventId) with
      | (.error e, l) => (.error (.ledger e), r, l)
      | (.ok _, l) => (.ok d, { r with held := r.held.insert s.id d }, l)

/-- Stores the record for a session that is split. -/
def recordSplit (r : Recorder) (l : Ledger) (s : Session) (c : Consensus) (rationale : String)
    (now : Instant) (id : DissentId) (eventId : EventId) :
    Except CouncilError (Option Dissent) × Recorder × Ledger :=
  match r.store.ofSession? s.id with
  | some d => (.ok (some d), r, l)
  | none => match r.witness l s c rationale now id eventId with
    | (.error e, r, l) => (.error e, r, l)
    | (.ok d, r, l) => match r.store.save d with
      | (.error e, store) => (.error e, { r with store }, l)
      | (.ok _, store) => (.ok (some d), { store, held := r.held.erase s.id }, l)

/-- Records the dissent of a consensus, if it has one. Whatever is recorded for the session stays;
the identifiers are used if a new record is made. -/
def record (r : Recorder) (l : Ledger) (s : Session) (c : Consensus) (rationale : String)
    (now : Instant) (id : DissentId) (eventId : EventId) :
    Except CouncilError (Option Dissent) × Recorder × Ledger :=
  if c.session ≠ s.id then (.error (.sessionMismatch s.id c.session), r, l)
  else match c.status with
    | .unanimous => (.ok none, r, l)
    | .achieved => r.recordSplit l s c rationale now id eventId
    | status => (.error (.unresolved s.id status), r, l)

/-- Whether the stored record of a session is intact. -/
def verify? (r : Recorder) (session : SessionId) : Option Bool :=
  (r.store.ofSession? session).map Dissent.isIntact

end Recorder

end Curia
