import Curia.Regex.Basic

/-!
Patterns: regular expressions as they are written, with groups and counted repetitions and without
labels. They are put together by `concat`, `oneOf`, `ofSet` and `repeated`, which keep them in a
simple form: a sequence is a chain to the right without empty parts and with characters in a row
made one text, an alternative of characters or of sets is a set, and what all branches of an
alternative begin with stands before it.
-/

namespace Curia.Regex

inductive Pattern where
  | empty
  /-- Some characters in a row. -/
  | text (cs : List Char)
  /-- One character of a set. Sets of ASCII characters that are written as sets of bytes are told
  apart from others. -/
  | chars (bytes : Bool) (set : CharSet)
  | look (a : Assertion)
  /-- A group with its number. -/
  | group (index : Nat) (p : Pattern)
  | seq (p q : Pattern)
  | alt (p q : Pattern)
  /-- From `min` up to `max` repetitions, or any number from `min` on. -/
  | repetition (p : Pattern) (min : Nat) (max : Option Nat) (greedy : Bool)
  deriving DecidableEq

namespace Pattern

/-- The least number of characters in a match, unless a part can never match. -/
def minLength : Pattern → Option Nat
  | empty | look _ => some 0
  | text cs => some cs.length
  | chars _ set => if set.isEmpty then none else some 1
  | group _ p => p.minLength
  | seq p q => return (← p.minLength) + (← q.minLength)
  | alt p q => return min (← p.minLength) (← q.minLength)
  | repetition p min _ _ => p.minLength.map (min * ·)

/-- Whether the pattern matches nothing but places between characters. -/
def takesNothing : Pattern → Bool
  | empty | look _ => true
  | text _ | chars _ _ => false
  | group _ p => p.takesNothing
  | seq p q | alt p q => p.takesNothing && q.takesNothing
  | repetition p _ max _ => max.isSome && p.takesNothing

/-- Whether every match begins with a condition, which has to come before any character. -/
def leadsWith (a : Assertion) : Pattern → Bool
  | look b => a = b
  | group _ p => p.leadsWith a
  | seq p q => p.leadsWith a || (p.takesNothing && q.leadsWith a)
  | alt p q => p.leadsWith a && q.leadsWith a
  | repetition p min _ _ => 0 < min && p.leadsWith a
  | _ => false

/-- Whether every match ends with a condition, which has to come after all characters. -/
def endsWith (a : Assertion) : Pattern → Bool
  | look b => a = b
  | group _ p => p.endsWith a
  | seq p q => q.endsWith a || (q.takesNothing && p.endsWith a)
  | alt p q => p.endsWith a && q.endsWith a
  | repetition p min _ _ => 0 < min && p.endsWith a
  | _ => false

/-! ### Putting patterns together -/

/-- The parts of a sequence. -/
def parts : Pattern → List Pattern
  | empty => []
  | seq p q => p.parts ++ q.parts
  | p => [p]

/-- A sequence of parts, of which a text is joined with one that follows. -/
def chain : List Pattern → Pattern
  | [] => empty
  | p :: ps =>
    match p, chain ps with
    | p, empty => p
    | text cs, text ds => text (cs ++ ds)
    | text cs, seq (text ds) q => seq (text (cs ++ ds)) q
    | p, q => seq p q

def concat (ps : List Pattern) : Pattern := chain (ps.flatMap parts)

/-- What can never match. -/
def nothing : Pattern := chars true .empty

def ofSet (bytes : Bool) (set : CharSet) : Pattern :=
  match set.toSingle? with
  | some c => text [c]
  | none => if set.isEmpty then nothing else chars bytes set

/-- The branches of an alternative. -/
def branches : Pattern → List Pattern
  | alt p q => p.branches ++ q.branches
  | p => [p]

/-- Alternatives from left to right. -/
def choice : List Pattern → Pattern
  | [] => nothing
  | [p] => p
  | p :: ps => alt p (choice ps)

def toSingle? : Pattern → Option CharSet
  | text [c] => some (.single c)
  | _ => none

def toSet? : Pattern → Option CharSet
  | chars _ set => some set
  | _ => none

/-- A choice between single characters, or between sets, is one set. -/
def merged (ps : List Pattern) : Pattern :=
  match ps.mapM toSingle?, ps.mapM toSet? with
  | some sets, _ => ofSet false (.ofList sets)
  | _, some sets => ofSet false (.ofList sets)
  | none, none => choice ps

/-- The longest list that all lists begin with. -/
def sharedStart : List (List Pattern) → List Pattern
  | [] => []
  | [ps] => ps
  | ps :: pss => ((ps.zip (sharedStart pss)).takeWhile fun (p, q) => p = q).map Prod.fst

/-- A choice between patterns. What they all begin with, if all are sequences, is moved before. -/
def oneOf (ps : List Pattern) : Pattern :=
  match ps.flatMap branches with
  | [] => nothing
  | [p] => p
  | ps =>
    match merged ps with
    | alt p q =>
      let lists := ps.map parts
      let shared := if lists.all (1 < ·.length) then sharedStart lists else []
      if shared.isEmpty then alt p q
      else
        let rest := lists.map fun ps => chain (ps.drop shared.length)
        concat (shared ++ [merged (rest.flatMap branches)])
    | p => p

/-- A repetition. One of places between characters is no more than an optional one. -/
def repeated (p : Pattern) (min : Nat) (max : Option Nat) (greedy : Bool) : Pattern :=
  let (min, max) := if p.takesNothing then (min.min 1, some ((max.getD 1).min 1)) else (min, max)
  if max = some 0 then empty
  else if min = 1 ∧ max = some 1 then p
  else repetition p min max greedy

end Pattern

/-! ### Labels -/

/-- A tree built from the next free label on, and the label that is free after it. -/
abbrev Labelled := Nat → Regex × Nat

namespace Labelled

def text : List Char → Labelled
  | [], n => (.empty, n)
  | [c], n => (.chars n (.single c), n + 1)
  | c :: cs, n =>
    let (r, m) := text cs (n + 1)
    (.seq (.chars n (.single c)) r, m)

/-- A part, or nothing, in the order in which they are tried. -/
def opt (greedy : Bool) (label : Nat) (r : Regex) : Regex :=
  if greedy then .alt label r .empty else .alt label .empty r

/-- A number of copies in a row. -/
def copies (part : Labelled) : Nat → Labelled
  | 0, n => (.empty, n)
  | 1, n => part n
  | k + 2, n =>
    let (r, n) := part n
    let (rs, n) := copies part (k + 1) n
    (.seq r rs, n)

/-- Up to a number of copies in a row. -/
def upTo (greedy : Bool) (part : Labelled) : Nat → Labelled
  | 0, n => (.empty, n)
  | k + 1, n =>
    let (r, m) := part (n + 1)
    let (rs, m) := upTo greedy part k m
    (opt greedy n (.seq r rs), m)

end Labelled

namespace Pattern

/-- The expression that a pattern stands for, with labels from `n` on. -/
def build : Pattern → Labelled
  | empty, n => (.empty, n)
  | text cs, n => Labelled.text cs n
  | chars _ set, n => (.chars n set, n + 1)
  | look a, n => (.look a, n)
  | group _ p, n => p.build n
  | seq p q, n =>
    let (r, n) := p.build n
    let (s, n) := q.build n
    (.seq r s, n)
  | alt p q, n =>
    let (r, m) := p.build (n + 1)
    let (s, m) := q.build m
    (.alt n r s, m)
  | repetition p 0 none greedy, n =>
    if p.minLength.any (0 < ·) then
      let (r, m) := p.build (n + 1)
      (.again n greedy r, m)
    else
      let (r, m) := p.build (n + 2)
      (Labelled.opt greedy n (.plus (n + 1) greedy r), m)
  | repetition p (min + 1) none greedy, n =>
    let (rs, n) := Labelled.copies p.build min n
    let (r, m) := p.build (n + 1)
    let last := Regex.plus n greedy r
    (if min = 0 then last else .seq rs last, m)
  | repetition p min (some max) greedy, n =>
    let (rs, n) := Labelled.copies p.build min n
    let (more, n) := Labelled.upTo greedy p.build (max - min) n
    (.seq rs more, n)

def toRegex (p : Pattern) : Regex := (p.build 0).1

end Pattern

end Curia.Regex
