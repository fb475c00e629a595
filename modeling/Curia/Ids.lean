import Curia.Json.Decode
import Curia.Uuid

/-!
The identifiers of sessions, petitions, dissents, events and decisions, the names of archons, and
the supply of fresh identifiers.
-/

namespace Curia

namespace Uuid

def toJson (u : Uuid) : Json := .string u.toString

def ofJson (v : Json) : Decoded Uuid := do
  match Uuid.ofString? (← v.asString) with
  | some u => .ok u
  | none => .error .malformed

end Uuid

structure SessionId where
  uuid : Uuid
  deriving DecidableEq

structure PetitionId where
  uuid : Uuid
  deriving DecidableEq

structure DissentId where
  uuid : Uuid
  deriving DecidableEq

structure EventId where
  uuid : Uuid
  deriving DecidableEq

structure DecisionId where
  uuid : Uuid
  deriving DecidableEq

/-- An archon is known by a name. -/
structure Archon where
  name : String
  deriving DecidableEq

instance : Ord SessionId := ordByKey SessionId.uuid
instance : Std.TransOrd SessionId := transOrd_ordByKey _
instance : Std.LawfulEqOrd SessionId :=
  lawfulEqOrd_ordByKey _ fun ⟨_⟩ ⟨_⟩ h => congrArg SessionId.mk h

instance : Ord PetitionId := ordByKey PetitionId.uuid
instance : Std.TransOrd PetitionId := transOrd_ordByKey _
instance : Std.LawfulEqOrd PetitionId :=
  lawfulEqOrd_ordByKey _ fun ⟨_⟩ ⟨_⟩ h => congrArg PetitionId.mk h

/-- By the code points of the name, which is also the order of its UTF-8 bytes. -/
instance : Ord Archon := ordByKey Archon.name
instance : Std.TransOrd Archon := transOrd_ordByKey _
instance : Std.LawfulEqOrd Archon :=
  lawfulEqOrd_ordByKey _ fun ⟨_⟩ ⟨_⟩ h => congrArg Archon.mk h

def SessionId.toJson (i : SessionId) : Json := i.uuid.toJson
def PetitionId.toJson (i : PetitionId) : Json := i.uuid.toJson
def DissentId.toJson (i : DissentId) : Json := i.uuid.toJson
def EventId.toJson (i : EventId) : Json := i.uuid.toJson
def DecisionId.toJson (i : DecisionId) : Json := i.uuid.toJson
def Archon.toJson (a : Archon) : Json := .string a.name

def SessionId.ofJson (v : Json) : Decoded SessionId := SessionId.mk <$> Uuid.ofJson v
def PetitionId.ofJson (v : Json) : Decoded PetitionId := PetitionId.mk <$> Uuid.ofJson v
def DissentId.ofJson (v : Json) : Decoded DissentId := DissentId.mk <$> Uuid.ofJson v
def EventId.ofJson (v : Json) : Decoded EventId := EventId.mk <$> Uuid.ofJson v
def DecisionId.ofJson (v : Json) : Decoded DecisionId := DecisionId.mk <$> Uuid.ofJson v
def Archon.ofJson (v : Json) : Decoded Archon := Archon.mk <$> v.asString

def SessionId.toString (i : SessionId) : String := i.uuid.toString
def PetitionId.toString (i : PetitionId) : String := i.uuid.toString

end Curia
