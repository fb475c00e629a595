import Curia.Json.Number
import Curia.Text.Hex

/-!
Reading JSON text. The functions take as much of a list of characters as belongs to one item and
return the rest; a bound on the number of steps comes first, for which the length of the text
suffices.
-/

namespace Curia.Json

def isBlank (c : Char) : Bool :=
  c = ' ' || c = '\t' || c = '\n' || c = '\r'

def skipBlanks (cs : List Char) : List Char := cs.dropWhile isBlank

/-! ### Strings -/

/-- A code unit written by four hexadecimal digits. -/
def readUnit : List Char → Option (Nat × List Char)
  | a :: b :: c :: d :: rest => (Hex.number? [a, b, c, d]).map (·, rest)
  | _ => none

/-- The second unit of a pair, which is written as an escape of its own. -/
def readLow? : List Char → Option (Nat × List Char)
  | '\\' :: 'u' :: rest => (readUnit rest).filter fun (low, _) => 0xdc00 ≤ low && low < 0xe000
  | _ => none

/-- The character whose code follows the mark of a numeric escape. Beyond the basic plane it takes
two units; half of such a pair alone is no character. -/
def readCode (cs : List Char) : Option (Option Char × List Char) :=
  match readUnit cs with
  | none => none
  | some (high, rest) =>
    if 0xd800 ≤ high ∧ high < 0xdc00 then
      match readLow? rest with
      | some (low, rest) =>
        some (some (Char.ofNat (0x10000 + (high - 0xd800) * 0x400 + (low - 0xdc00))), rest)
      | none => some (none, rest)
    else if 0xdc00 ≤ high ∧ high < 0xe000 then some (none, rest)
    else some (some (Char.ofNat high), rest)

def simpleEscape? : Char → Option Char
  | '"' => some '"'
  | '\\' => some '\\'
  | '/' => some '/'
  | 'b' => some '\x08'
  | 'f' => some '\x0c'
  | 'n' => some '\n'
  | 'r' => some '\r'
  | 't' => some '\t'
  | _ => none

/-- One character of a string, which may be escaped. -/
def readChar : List Char → Option (Option Char × List Char)
  | '\\' :: 'u' :: rest => readCode rest
  | '\\' :: c :: rest => (simpleEscape? c).map fun c => (some c, rest)
  | c :: rest => if c = '\\' ∨ c.toNat < 32 then none else some (some c, rest)
  | [] => none

/-- The characters up to the closing quote, if all of them are characters. -/
def readChars : Nat → List Char → Option (Option (List Char) × List Char)
  | 0, _ => none
  | _ + 1, '"' :: rest => some (some [], rest)
  | n + 1, cs =>
    match readChar cs with
    | none => none
    | some (c, rest) =>
      match readChars n rest with
      | none => none
      | some (s, rest) => some (c.bind fun c => s.map (c :: ·), rest)

/-! ### Numbers -/

/-- At least one digit. -/
def readDigits (cs : List Char) : Option (List Char × List Char) :=
  match cs.takeWhile Decimal.isDigit with
  | [] => none
  | ds => some (ds, cs.dropWhile Decimal.isDigit)

/-- The digits of an integer, of which none but the last may be a leading zero. -/
def readWhole (cs : List Char) : Option (List Char × List Char) :=
  match readDigits cs with
  | some ('0' :: _ :: _, _) => none
  | other => other

def readFraction : List Char → Option (Option (List Char) × List Char)
  | '.' :: rest => (readDigits rest).map fun (ds, rest) => (some ds, rest)
  | rest => some (none, rest)

/-- The digits of an exponent; true stands for a minus sign. -/
def readPower : List Char → Option ((Bool × List Char) × List Char)
  | '-' :: rest => (readDigits rest).map fun (ds, rest) => ((true, ds), rest)
  | '+' :: rest => (readDigits rest).map fun (ds, rest) => ((false, ds), rest)
  | rest => (readDigits rest).map fun (ds, rest) => ((false, ds), rest)

def readExponent : List Char → Option (Option (Bool × List Char) × List Char)
  | 'e' :: rest => (readPower rest).map fun (p, rest) => (some p, rest)
  | 'E' :: rest => (readPower rest).map fun (p, rest) => (some p, rest)
  | rest => some (none, rest)

def readUnsigned (negative : Bool) (cs : List Char) : Option (Number × List Char) := do
  let (whole, rest) ← readWhole cs
  let (fraction, rest) ← readFraction rest
  let (exponent, rest) ← readExponent rest
  some (.ofLiteral ⟨negative, whole, fraction, exponent⟩, rest)

def readNumber : List Char → Option (Number × List Char)
  | '-' :: rest => readUnsigned true rest
  | rest => readUnsigned false rest

/-! ### Values -/

/-- What is read where a text has no value: a string with half of a pair, or an object with such a
name. Like a number beyond the range it can only be skipped. -/
def void : Json := .number (.float 0x7ff8000000000000)

def ofChars : Option (List Char) → Json
  | some cs => .string (String.ofList cs)
  | none => void

/-- The object with the given members, all of whose names must be texts. -/
def ofMembers (members : List (Option (List Char) × Json)) : Json :=
  match members.mapM fun m => m.1.map fun name => (String.ofList name, m.2) with
  | some ms => .object ms
  | none => void

mutual

def readValue : Nat → List Char → Option (Json × List Char)
  | 0, _ => none
  | n + 1, cs =>
    match skipBlanks cs with
    | 'n' :: 'u' :: 'l' :: 'l' :: rest => some (.null, rest)
    | 't' :: 'r' :: 'u' :: 'e' :: rest => some (.bool true, rest)
    | 'f' :: 'a' :: 'l' :: 's' :: 'e' :: rest => some (.bool false, rest)
    | '"' :: rest => (readChars n rest).map fun (s, rest) => (ofChars s, rest)
    | '[' :: rest =>
      match skipBlanks rest with
      | ']' :: rest => some (.array [], rest)
      | rest => (readItems n rest).map fun (vs, rest) => (.array vs, rest)
    | '\x7b' :: rest =>
      match skipBlanks rest with
      | '\x7d' :: rest => some (.object [], rest)
      | rest => (readMembers n rest).map fun (ms, rest) => (ofMembers ms, rest)
    | rest => (readNumber rest).map fun (x, rest) => (.number x, rest)

/-- One or more items up to the closing bracket. -/
def readItems : Nat → List Char → Option (List Json × List Char)
  | 0, _ => none
  | n + 1, cs =>
    match readValue n cs with
    | none => none
    | some (v, rest) =>
      match skipBlanks rest with
      | ']' :: rest => some ([v], rest)
      | ',' :: rest => (readItems n rest).map fun (vs, rest) => (v :: vs, rest)
      | _ => none

/-- One or more members up to the closing brace. -/
def readMembers : Nat → List Char → Option (List (Option (List Char) × Json) × List Char)
  | 0, _ => none
  | n + 1, cs =>
    match readMember n cs with
    | none => none
    | some (m, rest) =>
      match skipBlanks rest with
      | '\x7d' :: rest => some ([m], rest)
      | ',' :: rest => (readMembers n rest).map fun (ms, rest) => (m :: ms, rest)
      | _ => none

def readMember : Nat → List Char → Option ((Option (List Char) × Json) × List Char)
  | 0, _ => none
  | n + 1, cs =>
    match skipBlanks cs with
    | '"' :: rest =>
      match readChars n rest with
      | none => none
      | some (name, rest) =>
        match skipBlanks rest with
        | ':' :: rest => (readValue n rest).map fun (v, rest) => ((name, v), rest)
        | _ => none
    | _ => none

end

/-- The value that makes up the whole text, members and their order as written. -/
def parse (text : String) : Option Json :=
  let cs := text.toList
  match readValue (2 * cs.length + 2) cs with
  | some (v, rest) => if skipBlanks rest = [] then some v else none
  | none => none

end Curia.Json
