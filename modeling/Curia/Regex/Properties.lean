import Curia.Regex.CharSet

/-!
Properties of characters that patterns name, such as a script or a general category. They come from
a table that is given; it takes a name as it is written, with all spellings of it that it knows.
-/

namespace Curia.Regex

/-- The characters with a property, by the name of the property. -/
abbrev Properties := String → Option CharSet

namespace Properties

def none : Properties := fun _ => Option.none

/-- The table knows every property that the other one knows, with the same characters. -/
def Extends (more fewer : Properties) : Prop :=
  ∀ name set, fewer name = some set → more name = some set

theorem extends_none (props : Properties) : props.Extends none := fun _ _ h => by cases h

/-- A name in small letters without blanks, dashes and underscores. -/
def looseName (name : String) : String :=
  String.ofList ((name.toList.filter fun c => !isSpace c && c ≠ '-' && c ≠ '_').map Char.toLower)

/-- A table of the properties of which the characters are known here for another purpose. -/
def basic : Properties := fun name =>
  match looseName name with
  | "any" => some .all
  | "ascii" => some .ascii
  | "whitespace" | "wspace" | "space" => some .space
  | "decimalnumber" | "nd" | "digit" => some .digit
  | _ => Option.none

end Properties

end Curia.Regex
