import Curia.Text.Hex
import Curia.Data.SortedMap

/-!
Identifiers of 128 bits. They are written in lower case with hyphens; read are also the forms
without hyphens, in braces and as a URN, in either case.
-/

namespace Curia

structure Uuid where
  bits : BitVec 128
  deriving DecidableEq

namespace Uuid

instance : Ord Uuid := ordByKey fun u => u.bits.toNat

instance : Std.TransOrd Uuid := transOrd_ordByKey _

instance : Std.LawfulEqOrd Uuid :=
  lawfulEqOrd_ordByKey _ fun ⟨_⟩ ⟨_⟩ h => congrArg Uuid.mk (BitVec.eq_of_toNat_eq h)

def ofNat (n : Nat) : Uuid := ⟨BitVec.ofNat 128 n⟩

def ofBytes (bytes : List UInt8) : Uuid :=
  ofNat (bytes.foldl (fun n b => 256 * n + b.toNat) 0)

/-- The bytes, most significant first. -/
def bytes (u : Uuid) : List UInt8 :=
  (List.range 16).map fun i => UInt8.ofNat (u.bits.toNat >>> (8 * (15 - i)))

/-- The digits of the five groups. -/
def groups (cs : List Char) : List (List Char) :=
  [cs.take 8, (cs.drop 8).take 4, (cs.drop 12).take 4, (cs.drop 16).take 4, cs.drop 20]

def toString (u : Uuid) : String :=
  String.ofList (List.intercalate ['-'] (groups (Hex.encode u.bytes)))

/-- The 32 digits of a hyphenated form. -/
def unhyphenate (cs : List Char) : Option (List Char) :=
  let parts := [cs.take 8, (cs.drop 9).take 4, (cs.drop 14).take 4, (cs.drop 19).take 4, cs.drop 24]
  if List.intercalate ['-'] parts = cs ∧ cs.length = 36 then some parts.flatten else none

/-- What a URN begins with, in lower case. -/
def urnMark : List Char := "urn:uuid:".toList

/-- The 32 digits of any of the forms that are read. -/
def digits? (cs : List Char) : Option (List Char) :=
  if cs.length = 32 then some cs
  else match cs with
    | '\x7b' :: rest =>
      if rest.getLast? = some '\x7d' then unhyphenate rest.dropLast else none
    | _ => unhyphenate (if (cs.take 9).map Char.toLower = urnMark then cs.drop 9 else cs)

def ofString? (s : String) : Option Uuid := do
  let cs ← digits? s.toList
  let bs ← Hex.decode cs
  some (ofBytes bs)

end Uuid

end Curia
