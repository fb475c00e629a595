import Curia.Digest.Basic
import Curia.Json.Basic

/-!
Reading domain values out of JSON values. A record is an object, of which unknown members are
ignored, or an array of its fields in their order.
-/

namespace Curia

/-- Why a JSON value is not one of the wanted kind. Only a digest of the wrong length is told from
the other causes. -/
inductive DecodeError where
  | malformed
  | digestLength (given : Nat)
  deriving DecidableEq

abbrev Decoded (α : Type) : Type := Except DecodeError α

namespace Json

def asString : Json → Decoded String
  | .string s => .ok s
  | _ => .error .malformed

def asBool : Json → Decoded Bool
  | .bool b => .ok b
  | _ => .error .malformed

/-- An integer from zero up to, but not including, the bound. -/
def asNat (bound : Nat) : Json → Decoded Nat
  | .number (.int i) => if 0 ≤ i ∧ i < bound then .ok i.toNat else .error .malformed
  | _ => .error .malformed

def asArray : Json → Decoded (List Json)
  | .array vs => .ok vs
  | _ => .error .malformed

/-- The members of an object, repeated names included. -/
def asObject : Json → Decoded (List (String × Json))
  | .object ms => .ok ms
  | _ => .error .malformed

def asOption (read : Json → Decoded α) : Json → Decoded (Option α)
  | .null => .ok none
  | v => some <$> read v

def asList (read : Json → Decoded α) (v : Json) : Decoded (List α) := do
  (← v.asArray).mapM read

/-- A value of any kind, with the members of its objects in order, provided that no part of it is
beyond what can be read and that it is nested no deeper than the limit. -/
def asValue (limit : Nat) (v : Json) : Decoded Json :=
  if v.isFinite ∧ v.depth ≤ limit then .ok v.canonical else .error .malformed

def asDigest (v : Json) : Decoded Digest := do
  match Digest.ofHex (← v.asString) with
  | .ok d => .ok d
  | .error (.wrongLength n) => .error (.digestLength n)
  | .error .notHex => .error .malformed

end Json

/-! ### Records -/

/-- The fields of a record that are there, under their names. -/
structure Record where
  fields : List (String × Json)
  /-- Whether the record was an array of its fields. -/
  positional : Bool

namespace Record

def hasRepeats : List (String × Json) → Bool
  | [] => false
  | (name, _) :: rest => rest.any (fun m => m.1 = name) || hasRepeats rest

/-- The fields with the given names, none of which may be there twice. An array may be shorter than
the list of names but not longer. -/
def read (names : List String) : Json → Decoded Record
  | .object ms =>
    let known := ms.filter fun m => names.contains m.1
    if hasRepeats known then .error .malformed else .ok ⟨known, false⟩
  | .array vs => if vs.length ≤ names.length then .ok ⟨names.zip vs, true⟩ else .error .malformed
  | _ => .error .malformed

def required (r : Record) (name : String) (read : Json → Decoded α) : Decoded α :=
  match r.fields.lookup name with
  | some v => read v
  | none => .error .malformed

/-- A field that may be null, and absent from an object. -/
def optional (r : Record) (name : String) (read : Json → Decoded α) : Decoded (Option α) :=
  match r.fields.lookup name with
  | some v => v.asOption read
  | none => if r.positional then .error .malformed else .ok none

/-- A field that has a value of its own when it is absent. -/
def withDefault (r : Record) (name : String) (default : α) (read : Json → Decoded α) : Decoded α :=
  match r.fields.lookup name with
  | some v => read v
  | none => .ok default

end Record

/-! ### Members with names -/

/-- A type with finitely many members, for each of which a name is written. -/
class Named (α : Type) where
  all : List α
  name : α → String
  /-- The word that messages use for the member. -/
  label : α → String

namespace Named

variable [Named α]

def ofName? (s : String) : Option α := (all (α := α)).find? fun a => name a = s

def toJson (a : α) : Json := .string (name a)

/-- A name, or an object whose one member has the name and is null. -/
def ofJson : Json → Decoded α
  | .string s => match ofName? s with
    | some a => .ok a
    | none => .error .malformed
  | .object [(s, .null)] => match ofName? s with
    | some a => .ok a
    | none => .error .malformed
  | _ => .error .malformed

/-- The key of a member of an object. -/
def ofKey (s : String) : Decoded α :=
  match ofName? s with
  | some a => .ok a
  | none => .error .malformed

end Named

end Curia
