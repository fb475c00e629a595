import Curia.Json.Reader

/-!
Reading JSON from bytes. They need not be the bytes of a text throughout: in a string that is
skipped, bytes may stand that are part of no character.
-/

namespace Curia.Json

/-- Where the next character stands: outside of the strings, in one, or behind a backslash there. -/
inductive Place where
  | outside
  | inside
  | escape

/-- The place behind a character. -/
def Place.after : Place → Char → Place
  | .outside, c => if c = '"' then .inside else .outside
  | .inside, c => if c = '"' then .outside else if c = '\\' then .escape else .inside
  | .escape, _ => .inside

/-- The character that begins here, which has four bytes at most. -/
def nextChar? (bytes : List UInt8) : Option Char :=
  ByteArray.utf8DecodeChar? (bytes.take 4).toByteArray 0

/-- Stands for a byte that is part of no character, and is none itself: of two halves of pairs that
both come second one at least has no first. -/
def noChar : List Char := "\\udc00\\udc00".toList

/-- The characters that the bytes stand for. A byte that is part of none is let pass in a string
only, which is then without a value. A bound on the number of steps comes first, for which the
number of bytes suffices. -/
def decodeChars : Nat → Place → List UInt8 → Option (List Char)
  | _, _, [] => some []
  | 0, _, _ :: _ => none
  | n + 1, place, b :: bytes =>
    match nextChar? (b :: bytes), place with
    | some c, place => (decodeChars n (place.after c) ((b :: bytes).drop c.utf8Size)).map (c :: ·)
    | none, .inside => (decodeChars n .inside bytes).map (noChar ++ ·)
    | none, _ => none

/-- The value that makes up all of the bytes. -/
def parseBytes (bytes : List UInt8) : Option Json := do
  let cs ← decodeChars bytes.length .outside bytes
  parse (String.ofList cs)

end Curia.Json
