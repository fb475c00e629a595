import Curia.Text.Hex
import Curia.Digest.Sha256
import Curia.Digest.Blake3

/-!
Digests of 32 bytes: of a text (BLAKE3 of its UTF-8 bytes), and read from or written as bytes and
hexadecimal digits.
-/

namespace Curia

structure Digest where
  bytes : List UInt8
  size_eq : bytes.length = 32
  deriving DecidableEq

namespace Digest

/-- The number of bytes in every digest. -/
def size : Nat := 32

/-- Why bytes or text give no digest. -/
inductive Fault where
  /-- There are not 32 bytes but this many. -/
  | wrongLength (given : Nat)
  /-- The text is not a row of pairs of hexadecimal digits. -/
  | notHex
  deriving DecidableEq

def ofBytes (bytes : List UInt8) : Except Fault Digest :=
  if h : bytes.length = 32 then .ok ⟨bytes, h⟩ else .error (.wrongLength bytes.length)

def ofHex (text : String) : Except Fault Digest :=
  match Hex.decode text.toList with
  | some bytes => ofBytes bytes
  | none => .error .notHex

def toHex (d : Digest) : String :=
  String.ofList (Hex.encode d.bytes)

def ofText (text : String) : Digest :=
  ⟨Blake3.hash text.toUTF8.toList, Blake3.hash_length _⟩

def wrongLengthMessage (given : Nat) : String :=
  s!"Invalid hash length: expected {size} bytes, got {given}"

@[simp] theorem ofBytes_bytes (d : Digest) : ofBytes d.bytes = .ok d := by
  simp [ofBytes, d.size_eq]

end Digest

end Curia
