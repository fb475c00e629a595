import Curia.Regex.Footprint
import Curia.Regex.Properties
import Curia.Text.Hex

/-!
Reading patterns. What is written without a meaning (a repetition of nothing, a bracket that is not
closed, an escape or a property that is not known, looking ahead or back, references to groups) is
refused. So is, where only ASCII counts, what would match other bytes than those of characters: a
complement, the dot, and in a class every character outside of ASCII.
-/

namespace Curia.Regex

/-- Why a text is not a pattern. -/
inductive Fault where
  | groupUnclosed
  | groupUnopened
  | groupName
  | flags
  | lookAround
  | backreference
  | nothingToRepeat
  | repetitionCount
  | unknownEscape
  | badHex
  | classUnclosed
  | badClassItem
  | badRange
  | badProperty
  | unknownProperty
  | notAscii
  | tooDeep
  | tooLarge
  deriving DecidableEq

abbrev Parsed (α : Type) := Except Fault α

/-- Switches that hold from where they stand to the end of their group. -/
structure Flags where
  caseless : Bool
  multiLine : Bool
  dotAll : Bool
  lazyFirst : Bool
  /-- Blanks and comments between the parts of a pattern are skipped. -/
  verbose : Bool
  /-- Classes, cases and words are those of ASCII. -/
  asciiOnly : Bool
  /-- A carriage return ends a line too. -/
  crlf : Bool
  deriving DecidableEq

namespace Flags

/-- The members of a set in all their forms, if case does not count. -/
def fold (f : Flags) (s : CharSet) : CharSet :=
  if !f.caseless then s
  else if f.asciiOnly then s.folded.inter .ascii
  else s.folded

/-- A set or all other characters. -/
def pick (f : Flags) (negated : Bool) (s : CharSet) : Parsed CharSet :=
  if !negated then .ok s
  else if f.asciiOnly then .error .notAscii
  else .ok s.compl

/-- A class of characters that has a letter for its name. -/
def letterClass (f : Flags) (negated : Bool) (s : CharSet) : Parsed CharSet :=
  f.pick negated (if f.asciiOnly then s.inter .ascii else s)

/-- A set with all forms of its members if case does not count, or all other characters. -/
def finish (f : Flags) (negated : Bool) (s : CharSet) : Parsed CharSet := f.pick negated (f.fold s)

/-- A character that stands for itself outside of a class. -/
def character (f : Flags) (c : Char) : Pattern :=
  if !f.caseless then .text [c]
  else if !f.asciiOnly then .ofSet false (.forms c)
  else if c.toNat < 0x80 then .ofSet true ((CharSet.forms c).inter .ascii)
  else .text [c]

/-- A character that may be a member of a class. -/
def member (f : Flags) (c : Char) : Parsed Char :=
  if f.asciiOnly && 0x80 ≤ c.toNat then .error .notAscii else .ok c

end Flags

/-- What has been read, with the depth of its brackets, repetitions, rows and choices. -/
structure Nested (α : Type) where
  value : α
  depth : Nat

namespace Nested

/-- One level more. -/
def wrap {α β : Type} (f : α → β) (x : Nested α) : Nested β := ⟨f x.value, x.depth + 1⟩

/-- Several parts are one level more than the deepest of them. -/
def join {α β : Type} (f : List α → β) (xs : List (Nested α)) : Nested β where
  value := f (xs.map value)
  depth := match xs with
    | [] => 0
    | [x] => x.depth
    | xs => (xs.map depth).foldl max 0 + 1

end Nested

/-- The end of a comment is the end of its line. -/
def skipComment : List Char → List Char
  | [] => []
  | '\n' :: cs => cs
  | _ :: cs => skipComment cs

/-- Skips blanks and comments, a comment or a blank at each step. -/
def skipVerbose : Nat → List Char → List Char
  | 0, cs => cs
  | n + 1, c :: cs =>
    if isSpace c then skipVerbose n cs
    else if c = '#' then skipVerbose n (skipComment cs)
    else c :: cs
  | _ + 1, [] => []

def skip (verbose : Bool) (cs : List Char) : List Char :=
  if verbose then skipVerbose cs.length cs else cs

/-- The next character that counts. It is looked for past blanks and one comment sign, not past the
comment; where there is none, it is the very next one. -/
def peek? (verbose : Bool) (cs : List Char) : Option Char :=
  let rest := trimLeft cs
  let rest := match rest with
    | '#' :: rest => trimLeft rest
    | rest => rest
  if verbose then rest.head?.or cs.head? else cs.head?

def isMeta (c : Char) : Bool :=
  ['\\', '.', '+', '*', '?', '(', ')', '|', '[', ']', '\x7b', '\x7d', '^', '$', '#', '&', '-',
    '~'].contains c

/-- Characters that stand for themselves after a backslash. -/
def isEscapable (c : Char) : Bool :=
  isMeta c || (c.toNat < 0x80 && !c.isAlphanum && c ≠ '<' && c ≠ '>')

/-! ### Escapes -/

/-- One item of a pattern or of a class. -/
inductive Item where
  | literal (c : Char)
  /-- A character given by two hexadecimal digits: where only ASCII counts, a byte. -/
  | byte (c : Char)
  | set (s : CharSet)
  | assertion (a : Assertion)

def charOfHex (ds : List Char) : Parsed Char :=
  match Hex.number? ds with
  | none => .error .badHex
  | some n => if n.isValidChar then .ok (Char.ofNat n) else .error .badHex

/-- The hexadecimal digits up to a closing brace. -/
def readBraced (verbose : Bool) : Nat → List Char → Parsed (List Char × List Char)
  | 0, _ => .error .badHex
  | n + 1, cs => match skip verbose cs with
    | [] => .error .badHex
    | '\x7d' :: rest => .ok ([], skip verbose rest)
    | c :: rest =>
      if (Hex.value? c).isSome then do
        let (ds, rest) ← readBraced verbose n rest
        return (c :: ds, rest)
      else .error .badHex

def readFixed (verbose : Bool) : Nat → List Char → Parsed (List Char × List Char)
  | 0, cs => .ok ([], cs)
  | n + 1, cs => match skip verbose cs with
    | [] => .error .badHex
    | c :: rest =>
      if (Hex.value? c).isSome then do
        let (ds, rest) ← readFixed verbose n rest
        return (c :: ds, rest)
      else .error .badHex

/-- A character given by its code: as many digits as the letter before them asks for, or any number
of digits in braces. -/
def readHex (verbose : Bool) (width : Nat) (cs : List Char) : Parsed (Item × List Char) := do
  match skip verbose cs with
  | '\x7b' :: rest =>
    let (ds, rest) ← readBraced verbose (rest.length + 1) rest
    if ds = [] then .error .badHex
    else return (.literal (← charOfHex ds), rest)
  | rest =>
    let (ds, rest) ← readFixed verbose width rest
    let c ← charOfHex ds
    return (if width = 2 then .byte c else .literal c, skip verbose rest)

def isBoundaryLetter (c : Char) : Bool := c.isAlpha || c = '-'

def readBoundaryName (verbose : Bool) : Nat → List Char → List Char × List Char
  | 0, cs => ([], cs)
  | n + 1, c :: cs =>
    if isBoundaryLetter c then
      let (name, rest) := readBoundaryName verbose n (skip verbose cs)
      (c :: name, rest)
    else ([], c :: cs)
  | _ + 1, [] => ([], [])

/-- What follows the sign of a word boundary: nothing, or the name of its kind in braces. Braces
that hold something else belong to a repetition. -/
def readBoundary (verbose : Bool) (cs : List Char) : Parsed (WordEdge × List Char) :=
  match cs with
  | '\x7b' :: rest =>
    match skip verbose rest with
    | [] => .error .repetitionCount
    | c :: rest =>
      if !isBoundaryLetter c then .ok (.boundary, cs)
      else match readBoundaryName verbose (rest.length + 1) (c :: rest) with
        | (name, '\x7d' :: rest) =>
          match String.ofList name with
          | "start" => .ok (.start, rest)
          | "end" => .ok (.stop, rest)
          | "start-half" => .ok (.halfStart, rest)
          | "end-half" => .ok (.halfStop, rest)
          | _ => .error .unknownEscape
        | _ => .error .unknownEscape
  | _ => .ok (.boundary, cs)

/-- The name of a property up to its closing brace. -/
def readPropertyName (verbose : Bool) : Nat → List Char → Parsed (List Char × List Char)
  | 0, _ => .error .badProperty
  | n + 1, cs => match skip verbose cs with
    | [] => .error .badProperty
    | '\x7d' :: rest => .ok ([], rest)
    | c :: rest => do
      let (name, rest) ← readPropertyName verbose n rest
      return (c :: name, rest)

/-- A name of one letter, or one in braces. -/
def readProperty (verbose : Bool) (cs : List Char) : Parsed (String × List Char) :=
  match skip verbose cs with
  | [] => .error .badProperty
  | '\x7b' :: rest => do
    let (name, rest) ← readPropertyName verbose (rest.length + 1) rest
    return (String.ofList name, rest)
  | c :: rest =>
    if c = '\\' then .error .badProperty else .ok (String.ofList [c], skip verbose rest)

section

variable (props : Properties)

/-- The characters with a property, or all others. -/
def propertyClass (f : Flags) (negated : Bool) (name : String) : Parsed CharSet :=
  if f.asciiOnly then .error .notAscii
  else match props name with
    | some s => f.finish negated s
    | none => .error .unknownProperty

/-- The item that begins with a backslash, which has been taken. -/
def readEscape (f : Flags) : List Char → Parsed (Item × List Char)
  | [] => .error .unknownEscape
  | c :: rest =>
    let letter (negated : Bool) (s : CharSet) : Parsed (Item × List Char) :=
      return (.set (← f.letterClass negated s), rest)
    let property (negated : Bool) : Parsed (Item × List Char) := do
      let (name, rest) ← readProperty f.verbose rest
      return (.set (← propertyClass props f negated name), rest)
    let edge (e : WordEdge) (rest : List Char) : Parsed (Item × List Char) :=
      .ok (.assertion (.word f.asciiOnly e), rest)
    match c with
    | 'x' => readHex f.verbose 2 rest
    | 'u' => readHex f.verbose 4 rest
    | 'U' => readHex f.verbose 8 rest
    | 'p' => property false
    | 'P' => property true
    | 'd' => letter false .digit
    | 'D' => letter true .digit
    | 's' => letter false .space
    | 'S' => letter true .space
    | 'w' => letter false .word
    | 'W' => letter true .word
    | 'a' => .ok (.literal '\x07', rest)
    | 'f' => .ok (.literal '\x0c', rest)
    | 't' => .ok (.literal '\t', rest)
    | 'n' => .ok (.literal '\n', rest)
    | 'r' => .ok (.literal '\r', rest)
    | 'v' => .ok (.literal '\x0b', rest)
    | 'A' => .ok (.assertion .textStart, rest)
    | 'z' => .ok (.assertion .textEnd, rest)
    | 'b' => do
      let (e, rest) ← readBoundary f.verbose rest
      edge e rest
    | 'B' => edge .notBoundary rest
    | '<' => edge .start rest
    | '>' => edge .stop rest
    | c =>
      if c.isDigit then .error .backreference
      else if isEscapable c then .ok (.literal c, rest)
      else .error .unknownEscape

end

/-! ### Classes -/

/-- The classes of ASCII characters that have names. -/
def asciiClass? (name : String) : Option CharSet :=
  let upper := CharSet.range 'A' 'Z'
  let lower := CharSet.range 'a' 'z'
  let numeral := CharSet.range '0' '9'
  let alpha := [upper, lower]
  let set? := match name with
    | "alnum" => some (numeral :: alpha)
    | "alpha" => some alpha
    | "ascii" => some [.range '\x00' '\x7f']
    | "blank" => some [.single '\t', .single ' ']
    | "cntrl" => some [.range '\x00' '\x1f', .single '\x7f']
    | "digit" => some [numeral]
    | "graph" => some [.range '!' '~']
    | "lower" => some [lower]
    | "print" => some [.range ' ' '~']
    | "punct" =>
      some [.range '!' '/', .range ':' '@', .range '[' (Char.ofNat 96), .range '\x7b' '~']
    | "space" => some [.range '\t' '\r', .single ' ']
    | "upper" => some [upper]
    | "word" => some (numeral :: .single '_' :: alpha)
    | "xdigit" => some [numeral, .range 'A' 'F', .range 'a' 'f']
    | _ => none
  set?.map .ofList

/-- A named class, after its opening bracket. -/
def readAsciiClass? (f : Flags) : List Char → Option (Parsed CharSet × List Char)
  | ':' :: rest =>
    let (negated, rest) := match rest with
      | '^' :: rest => (true, rest)
      | rest => (false, rest)
    let name := rest.takeWhile (· ≠ ':')
    match rest.dropWhile (· ≠ ':') with
    | ':' :: ']' :: rest =>
      (asciiClass? (String.ofList name)).map fun s => (f.finish negated s, rest)
    | _ => none
  | _ => none

def Item.toSet (f : Flags) : Item → Parsed CharSet
  | .literal c | .byte c => return .single (← f.member c)
  | .set s => .ok s
  | .assertion _ => .error .badClassItem

def Item.toChar (f : Flags) : Item → Parsed Char
  | .literal c | .byte c => f.member c
  | _ => .error .badRange

section

variable (props : Properties)

def readClassItem (f : Flags) : List Char → Parsed (Item × List Char)
  | [] => .error .classUnclosed
  | '\\' :: rest => readEscape props f rest
  | c :: rest => .ok (.literal c, rest)

/-- A single item, or a range of characters. -/
def readRange (f : Flags) (cs : List Char) : Parsed (CharSet × List Char) := do
  let (first, rest) ← readClassItem props f cs
  match skip f.verbose rest with
  | [] => .error .classUnclosed
  | '-' :: more =>
    if peek? f.verbose more = some ']' ∨ peek? f.verbose more = some '-' then
      return (← first.toSet f, '-' :: more)
    else
      let (last, rest) ← readClassItem props f (skip f.verbose more)
      let a ← first.toChar f
      let b ← last.toChar f
      if a ≤ b then return (.range a b, rest) else .error .badRange
  | rest => return (← first.toSet f, rest)

end

/-- The dashes, or the bracket, that stand for themselves at the start of a class. -/
def readDashes (verbose : Bool) : Nat → List Char → List CharSet × List Char
  | 0, cs => ([], cs)
  | n + 1, '-' :: cs =>
    let (ds, rest) := readDashes verbose n (skip verbose cs)
    (.single '-' :: ds, rest)
  | _ + 1, cs => ([], cs)

def readClassStart (verbose : Bool) (cs : List Char) : List CharSet × List Char :=
  match readDashes verbose cs.length cs with
  | ([], ']' :: rest) => ([.single ']'], skip verbose rest)
  | start => start

inductive SetOp where
  | inter
  | diff
  | symmDiff
  deriving DecidableEq

/-- Both sides take all forms of their members if case does not count. -/
def SetOp.apply (op : SetOp) (f : Flags) (a b : CharSet) : CharSet :=
  let a := f.fold a
  let b := f.fold b
  match op with
  | inter => a.inter b
  | diff => a.diff b
  | symmDiff => a.symmDiff b

/-- The items of a class so far, which stand in reverse, and the left side of an operator before
them. -/
structure ClassSoFar where
  left : Option (Nested CharSet × SetOp)
  items : List (Nested CharSet)

namespace ClassSoFar

def push (so : ClassSoFar) (s : Nested CharSet) : ClassSoFar := { so with items := s :: so.items }

/-- Operators on sets bind to the left, all alike. -/
def close (so : ClassSoFar) (f : Flags) : Nested CharSet :=
  let right := Nested.join .ofList so.items.reverse
  match so.left with
  | none => right
  | some (left, op) =>
    Nested.join (fun
      | [a, b] => op.apply f a b
      | _ => .empty) [left, right]

def operator (so : ClassSoFar) (f : Flags) (op : SetOp) : ClassSoFar :=
  ⟨some (so.close f, op), []⟩

end ClassSoFar

section

variable (props : Properties)

mutual

/-- The rest of a class. -/
def readItems (f : Flags) (so : ClassSoFar) :
    Nat → List Char → Parsed (Nested CharSet × List Char)
  | 0, _ => .error .classUnclosed
  | n + 1, cs =>
    match skip f.verbose cs with
    | [] => .error .classUnclosed
    | ']' :: rest => .ok (so.close f, rest)
    | '&' :: '&' :: rest => readItems f (so.operator f .inter) n rest
    | '-' :: '-' :: rest => readItems f (so.operator f .diff) n rest
    | '~' :: '~' :: rest => readItems f (so.operator f .symmDiff) n rest
    | '[' :: rest =>
      match readAsciiClass? f rest with
      | some (s, rest) => do readItems f (so.push ⟨← s, 0⟩) n rest
      | none => do
        let (s, rest) ← readClass f n rest
        readItems f (so.push s) n rest
    | cs => do
      let (s, rest) ← readRange props f cs
      readItems f (so.push ⟨s, 0⟩) n rest

/-- A class in brackets, of which the first has been taken. -/
def readClass (f : Flags) : Nat → List Char → Parsed (Nested CharSet × List Char)
  | 0, _ => .error .classUnclosed
  | n + 1, cs => do
    let (negated, rest) := match skip f.verbose cs with
      | '^' :: rest => (true, skip f.verbose rest)
      | rest => (false, rest)
    let (items, rest) := readClassStart f.verbose rest
    let (s, rest) ← readItems f ⟨none, items.reverse.map (⟨·, 0⟩)⟩ n rest
    return (⟨← f.finish negated s.value, s.depth + 1⟩, rest)

end

end

/-! ### Repetitions -/

/-- A count, with blanks around it. -/
def readCount (verbose : Bool) (cs : List Char) : List Char × List Char :=
  let rec digits : Nat → List Char → List Char × List Char
    | 0, cs => ([], cs)
    | n + 1, c :: cs =>
      if c.isDigit then
        let (ds, rest) := digits n (skip verbose cs)
        (c :: ds, rest)
      else ([], c :: cs)
    | _ + 1, [] => ([], [])
  let (ds, rest) := digits cs.length (trimLeft cs)
  (ds, skip verbose (trimLeft rest))

def countValue (ds : List Char) : Parsed Nat :=
  let n := ds.foldl (fun n c => 10 * n + (c.toNat - 48)) 0
  if ds = [] ∨ UInt32.size ≤ n then .error .repetitionCount else .ok n

/-- The counts of a repetition, after the opening brace. -/
def readCounts (verbose : Bool) (cs : List Char) : Parsed ((Nat × Option Nat) × List Char) := do
  let (least, rest) := readCount verbose (skip verbose cs)
  match rest with
  | ',' :: rest =>
    match skip verbose rest with
    | '\x7d' :: rest => return ((← countValue least, none), rest)
    | rest =>
      let min ← countValue least
      let (most, rest) := readCount verbose rest
      let max ← countValue most
      match rest with
      | '\x7d' :: rest => if min ≤ max then return ((min, some max), rest) else .error .repetitionCount
      | _ => .error .repetitionCount
  | '\x7d' :: rest =>
    let n ← countValue least
    return ((n, some n), rest)
  | _ => .error .repetitionCount

/-- Whether a repetition is greedy: a question mark after it turns this around. -/
def readGreed (f : Flags) : List Char → Bool × List Char
  | '?' :: rest => (f.lazyFirst, rest)
  | rest => (!f.lazyFirst, rest)

/-! ### Groups -/

/-- The name of a group up to its closing bracket. -/
def readName (first : Bool) : List Char → Parsed (List Char × List Char)
  | [] => .error .groupName
  | '>' :: rest => if first then .error .groupName else .ok ([], rest)
  | c :: rest =>
    let ok := if first then c = '_' || isLetter c
      else c = '_' || c = '.' || c = '[' || c = ']' || isLetterOrNumeral c
    if ok then do
      let (name, rest) ← readName false rest
      return (c :: name, rest)
    else .error .groupName

def Flags.set (f : Flags) (on : Bool) : Char → Parsed Flags
  | 'i' => .ok { f with caseless := on }
  | 'm' => .ok { f with multiLine := on }
  | 's' => .ok { f with dotAll := on }
  | 'U' => .ok { f with lazyFirst := on }
  | 'x' => .ok { f with verbose := on }
  | 'u' => .ok { f with asciiOnly := !on }
  | 'R' => .ok { f with crlf := on }
  | _ => .error .flags

/-- The flags up to a colon or a closing bracket, which is returned: each at most once, and after
a minus sign those to be taken away. -/
def readFlags (f : Flags) (seen : List Char) : List Char → Parsed (Flags × Bool × Char × List Char)
  | [] => .error .flags
  | c :: rest =>
    if c = ':' ∨ c = ')' then
      if seen.head? = some '-' then .error .flags else .ok (f, seen.isEmpty, c, rest)
    else if seen.contains c then .error .flags
    else if c = '-' then readFlags f (c :: seen) rest
    else do readFlags (← f.set (!seen.contains '-') c) (c :: seen) rest

/-- What an opening bracket starts: a change of flags, a group with its flags, or a group that is
counted and may have a name. -/
inductive Opening where
  | flags (f : Flags)
  | plain (f : Flags)
  | counted (name : Option String)

def readOpening (f : Flags) (cs : List Char) : Parsed (Opening × List Char) :=
  match skip f.verbose cs with
  | '?' :: '=' :: _ => .error .lookAround
  | '?' :: '!' :: _ => .error .lookAround
  | '?' :: '<' :: '=' :: _ => .error .lookAround
  | '?' :: '<' :: '!' :: _ => .error .lookAround
  | '?' :: 'P' :: '<' :: rest => do
    let (name, rest) ← readName true rest
    return (.counted (some (String.ofList name)), rest)
  | '?' :: '<' :: rest => do
    let (name, rest) ← readName true rest
    return (.counted (some (String.ofList name)), rest)
  | '?' :: rest => do
    let (f', none?, stop, rest) ← readFlags f [] rest
    if stop = ':' then return (.plain f', rest)
    else if none? then .error .nothingToRepeat
    else return (.flags f', rest)
  | rest => .ok (.counted none, rest)

/-! ### Patterns -/

/-- What an item stands for outside of a class. -/
def Item.toPattern (f : Flags) : Item → Parsed Pattern
  | .literal c => .ok (f.character c)
  | .byte c => return f.character (← f.member c)
  | .set s => .ok (.ofSet f.asciiOnly s)
  | .assertion a => .ok (.look a)

namespace Flags

/-- What the dot stands for: any character, but none that ends a line unless `dotAll` is set. -/
def dot (f : Flags) : Parsed CharSet :=
  if f.asciiOnly then .error .notAscii
  else if f.dotAll then .ok .all
  else if f.crlf then .ok (.compl (.union (.single '\n') (.single '\r')))
  else .ok (.compl (.single '\n'))

/-- The start of the text, or of a line. -/
def lineStart (f : Flags) : Assertion :=
  if !f.multiLine then .textStart else if f.crlf then .crlfStart else .lineStart

/-- The end of the text, or of a line. -/
def lineEnd (f : Flags) : Assertion :=
  if !f.multiLine then .textEnd else if f.crlf then .crlfEnd else .lineEnd

end Flags

/-- A part of a sequence. A change of flags is one too, but it is no pattern. -/
abbrev Part := Nested (Option Pattern)

/-- Repeats the last of some parts, which stand in reverse. -/
def repeatLast (min : Nat) (max : Option Nat) (greedy : Bool) : List Part → Parsed (List Part)
  | ⟨some p, depth⟩ :: parts => .ok (⟨some (p.repeated min max greedy), depth + 1⟩ :: parts)
  | _ => .error .nothingToRepeat

def sequence (parts : List Part) : Nested Pattern :=
  Nested.join (fun ps => .concat (ps.filterMap id)) parts.reverse

/-- Where the reader stands: the flags, the names of groups and the number of groups that are counted
so far, and the rest of the text. -/
structure Cursor where
  flags : Flags
  names : List String
  groups : Nat
  rest : List Char

section

variable (props : Properties)

/-- Reads up to the end of a group or of the text. The branches before the present one, and the
parts of the present one, stand in reverse. -/
def readParts (branches : List (Nested Pattern)) (parts : List Part) :
    Nat → Cursor → Parsed (Nested Pattern × Cursor)
  | 0, _ => .error .tooLarge
  | n + 1, cur =>
    let f := cur.flags
    let finish (cs : List Char) : Nested Pattern × Cursor :=
      (Nested.join .oneOf (sequence parts :: branches).reverse, { cur with rest := cs })
    let push (p : Nested Pattern) (cur : Cursor) : Parsed (Nested Pattern × Cursor) :=
      readParts branches (⟨some p.value, p.depth⟩ :: parts) n cur
    let go (p : Pattern) (cs : List Char) : Parsed (Nested Pattern × Cursor) :=
      push ⟨p, 0⟩ { cur with rest := cs }
    let rep (min : Nat) (max : Option Nat) (cs : List Char) : Parsed (Nested Pattern × Cursor) := do
      let (greedy, cs) := readGreed f cs
      readParts branches (← repeatLast min max greedy parts) n { cur with rest := cs }
    let inside (f' : Flags) (name : Option String) (groups : Nat) (cs : List Char)
        (make : Pattern → Pattern) : Parsed (Nested Pattern × Cursor) := do
      let (p, inner) ← readParts [] [] n ⟨f', name.toList ++ cur.names, groups, cs⟩
      match inner.rest with
      | ')' :: rest => push (p.wrap make) { inner with flags := f, rest }
      | _ => .error .groupUnclosed
    match skip f.verbose cur.rest with
    | [] => .ok (finish [])
    | ')' :: rest => .ok (finish (')' :: rest))
    | '|' :: rest => readParts (sequence parts :: branches) [] n { cur with rest := rest }
    | '(' :: rest => do
      match ← readOpening f rest with
      | (.flags f', rest) =>
        readParts branches (⟨none, 0⟩ :: parts) n { cur with flags := f', rest }
      | (.plain f', rest) => inside f' none cur.groups rest id
      | (.counted name, rest) =>
        if name.any cur.names.contains then .error .groupName
        else inside f name (cur.groups + 1) rest (.group (cur.groups + 1))
    | '[' :: rest => do
      let (s, rest) ← readClass props f (2 * rest.length + 2) rest
      push ⟨.ofSet f.asciiOnly s.value, s.depth⟩ { cur with rest := rest }
    | '?' :: rest => rep 0 (some 1) rest
    | '*' :: rest => rep 0 none rest
    | '+' :: rest => rep 1 none rest
    | '\x7b' :: rest => do
      if !parts.head?.any (·.value.isSome) then .error .nothingToRepeat
      else
        let ((min, max), rest) ← readCounts f.verbose rest
        rep min max (skip f.verbose rest)
    | '.' :: rest => do go (.ofSet f.asciiOnly (← f.dot)) rest
    | '^' :: rest => go (.look f.lineStart) rest
    | '$' :: rest => go (.look f.lineEnd) rest
    | '\\' :: rest => do
      let (item, rest) ← readEscape props f rest
      go (← item.toPattern f) rest
    | c :: rest => go (f.character c) rest

/-- Patterns that are nested more deeply are refused. -/
def depthLimit : Nat := 250

/-- Reads a text as a pattern. -/
def Pattern.ofText (caseless : Bool) (text : String) : Parsed Pattern := do
  let cs := text.toList
  let start : Cursor := ⟨⟨caseless, false, false, false, false, false, false⟩, [], 0, cs⟩
  let (p, stop) ← readParts props [] [] (2 * cs.length + 2) start
  if stop.rest ≠ [] then .error .groupUnopened
  else if depthLimit < p.depth then .error .tooDeep
  else if p.value.fits then return p.value
  else .error .tooLarge

def ofText (caseless : Bool) (text : String) : Parsed Regex :=
  (Pattern.ofText props caseless text).map Pattern.toRegex

end

end Curia.Regex
