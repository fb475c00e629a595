import Curia.Digest.Basic
import Curia.Json.Writer

/-!
The digest of a JSON value, which does not depend on the order of object members: SHA-256 of the
compact text of the canonical form.
-/

namespace Curia

/-- The text that the digest of a JSON value is taken of. -/
def Json.canonicalText (v : Json) : String := v.canonical.render

def Digest.ofJson (v : Json) : Digest :=
  ⟨Sha256.hash v.canonicalText.toUTF8.toList, Sha256.hash_length _⟩

end Curia
