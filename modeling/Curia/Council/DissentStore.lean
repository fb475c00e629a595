import Curia.Council.Dissent

/-!
Dissents by session, at most one for each, with indexes by petition and by archon. A save may be
refused because the store is out of reach; then nothing is stored.
-/

namespace Curia

structure DissentStore where
  records : SortedMap SessionId Dissent
  byPetition : SortedMap PetitionId (List SessionId)
  byArchon : SortedMap Archon (List SessionId)
  /-- How many times a save was attempted. -/
  attempts : Nat
  /-- Which attempts find the store out of reach; the first has number one. -/
  refuses : Nat → Bool

namespace DissentStore

def empty : DissentStore := ⟨∅, ∅, ∅, 0, fun _ => false⟩

def size (s : DissentStore) : Nat := s.records.size

/-- Appends to the list kept under a key. -/
def file [Ord κ] [Std.TransOrd κ] [Std.LawfulEqOrd κ] [DecidableEq κ]
    (index : SortedMap κ (List SessionId)) (k : κ) (session : SessionId) :
    SortedMap κ (List SessionId) :=
  index.insert k ((index.get? k).getD [] ++ [session])

/-- Stores a record, unless its session has one. -/
def put (s : DissentStore) (d : Dissent) : Except CouncilError DissentStore :=
  if s.records.contains d.session then .error (.dissentRecorded d.session)
  else .ok
    { s with
      records := s.records.insert d.session d
      byPetition := file s.byPetition d.petition d.session
      byArchon := file s.byArchon d.archon d.session }

def save (s : DissentStore) (d : Dissent) : Except CouncilError Unit × DissentStore :=
  let s := { s with attempts := s.attempts + 1 }
  if s.refuses s.attempts then (.error .storeUnavailable, s)
  else match s.put d with
    | .ok s => (.ok (), s)
    | .error e => (.error e, s)

def ofSession? (s : DissentStore) (session : SessionId) : Option Dissent :=
  s.records.get? session

/-- The records of the sessions in a list. -/
def collect (s : DissentStore) (sessions : Option (List SessionId)) : List Dissent :=
  (sessions.getD []).filterMap s.ofSession?

def ofPetition (s : DissentStore) (p : PetitionId) : List Dissent :=
  s.collect (s.byPetition.get? p)

def ofArchon (s : DissentStore) (a : Archon) : List Dissent :=
  s.collect (s.byArchon.get? a)

end DissentStore

end Curia
