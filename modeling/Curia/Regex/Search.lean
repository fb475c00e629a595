import Curia.Regex.Basic

/-!
Searching a text for the matches of a regular expression. All ways to match are followed at once,
character by character, in the order in which they are tried; where two ways meet, the later one is
dropped.
-/

namespace Curia.Regex

/-- A piece of a text: the number of characters before it and before its end. -/
structure Span where
  start : Nat
  stop : Nat
  deriving DecidableEq

/-- A way to match that has begun: where, and what is still to be matched. -/
structure Way where
  start : Nat
  next : List Regex

/-- Follows the ways up to the next character, or to the end of one, which is the last. -/
def follow (p : Place) : List Way → Nat → List Way
  | [], _ => []
  | w :: ws, seen =>
    let f := exploreAll p w.next seen
    f.ways.map (⟨w.start, ·⟩) ++ (if f.done then [] else follow p ws f.seen)

def Way.take? (c : Char) (w : Way) : Option Way :=
  match w.next with
  | chars _ set :: next => if set.contains c then some { w with next } else none
  | _ => none

/-- What the ways have come to at a place: the ways that go on, and the best match so far. As long
as no match is known, a new way begins. -/
def arrive (r : Regex) (p : Place) (pos : Nat) (ways : List Way) (found : Option Span) :
    List Way × Option Span :=
  let ways := follow p (if found.isNone then ways ++ [⟨pos, [r]⟩] else ways) 0
  let ended := (ways.find? (·.next.isEmpty)).map fun w => ⟨w.start, pos⟩
  (ways, ended.or found)

/-- Follows the ways through the rest of a text. -/
def scan (r : Regex) (before : Option Char) (pos : Nat) (ways : List Way) (found : Option Span) :
    List Char → Option Span
  | [] => (arrive r ⟨before, none⟩ pos ways found).2
  | c :: cs =>
    let (ways, found) := arrive r ⟨before, some c⟩ pos ways found
    let ways := ways.filterMap (·.take? c)
    if ways.isEmpty && found.isSome then found else scan r (some c) (pos + 1) ways found cs

/-- The first match in the rest of a text. -/
def find? (r : Regex) (before : Option Char) (pos : Nat) (rest : List Char) : Option Span :=
  scan r before pos [] none rest

def isMatch (r : Regex) (text : List Char) : Bool := (r.find? none 0 text).isSome

/-- The matches in the rest of a text, each after the end of the one before it. An empty match at
that end does not count. The first number bounds the number of searches. -/
def findFrom (r : Regex) (lastEnd : Option Nat) :
    Nat → Option Char → Nat → List Char → List Span
  | 0, _, _, _ => []
  | n + 1, before, pos, rest =>
    match r.find? before pos rest with
    | none => []
    | some span =>
      if span.start = span.stop ∧ lastEnd = some span.stop then
        match rest with
        | [] => []
        | c :: cs => findFrom r none n (some c) (pos + 1) cs
      else
        let passed := rest.take (span.stop - pos)
        span :: findFrom r (some span.stop) n (passed.getLast?.or before) span.stop
          (rest.drop (span.stop - pos))

/-- The matches in a text, from left to right and without overlaps. -/
def matchesIn (r : Regex) (text : List Char) : List Span :=
  r.findFrom none (2 * text.length + 2) none 0 text

end Curia.Regex
