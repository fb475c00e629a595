import Curia.Json.Decode
import Curia.Time.Text

/-!
Points in time as JSON strings.
-/

namespace Curia.Instant

def toJson (t : Instant) : Json := .string t.toString

def ofJson (v : Json) : Decoded Instant := do
  match Instant.ofString? (← v.asString) with
  | some t => .ok t
  | none => .error .malformed

end Curia.Instant
