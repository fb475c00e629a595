import Curia.Text.Blank
import Curia.Text.CaseFold
import Curia.Text.Word

/-!
Sets of characters as they are described in patterns.
-/

namespace Curia.Regex

/-- A set of characters by their code points. Each run begins and ends with a character; the code
points from 0xd800 to 0xdfff, which belong to none, may lie within. -/
structure CharSet where
  points : Runs
  deriving DecidableEq

namespace CharSet

def contains (s : CharSet) (c : Char) : Bool := s.points.contains c.toNat

def empty : CharSet := ⟨.empty⟩

def isEmpty (s : CharSet) : Bool := s.points.bounds.isEmpty

def range (first last : Char) : CharSet := ⟨.span first.toNat last.toNat⟩

def single (c : Char) : CharSet := range c c

/-- The only member of a set that has one member. -/
def toSingle? (s : CharSet) : Option Char :=
  match s.points.toList with
  | [(first, last)] => if first = last then some (Char.ofNat first) else none
  | _ => none

def all : CharSet := range '\x00' (Char.ofNat 0x10ffff)

def ascii : CharSet := range '\x00' '\x7f'

def digit : CharSet := ⟨wordDigits⟩

/-- White space, of which U+3000 comes last. -/
def space : CharSet :=
  ⟨.ofList ((List.range 0x3001).filter fun n => isSpace (Char.ofNat n))⟩

def word : CharSet := ⟨wordRuns⟩

def union (a b : CharSet) : CharSet := ⟨a.points.union b.points⟩

def inter (a b : CharSet) : CharSet := ⟨a.points.inter b.points⟩

/-- Takes the code points that belong to no character off the ends of runs. A run of nothing else
gives way to what stands first. -/
def fitRuns (lone : List Nat) : List Nat → List Nat
  | first :: stop :: rest =>
    let first := if first = 0xd800 then 0xe000 else first
    let stop := if stop = 0xe000 then 0xd800 else stop
    (if first < stop then [first, stop] else lone) ++ fitRuns lone rest
  | rest => rest

def ofRuns (lone : List Nat) (s : Runs) : CharSet := ⟨⟨(fitRuns lone s.bounds.toList).toArray⟩⟩

def diff (a b : CharSet) : CharSet := ofRuns [] (a.points.diff b.points)

def symmDiff (a b : CharSet) : CharSet := ofRuns [] (a.points.symmDiff b.points)

/-- All other characters. If one run of the set ends with U+D7FF and another begins with U+E000,
these two remain. -/
def compl (a : CharSet) : CharSet := ofRuns [0xd7ff, 0xe001] (all.points.diff a.points)

def ofList : List CharSet → CharSet
  | [] => empty
  | a :: as => as.foldl union a

/-- The characters of a set with all their forms, upper and lower case. -/
def folded (a : CharSet) : CharSet :=
  let missing := casedLetters.flatMap fun ns =>
    if ns.any a.points.contains then ns.filter (!a.points.contains ·) else []
  ⟨a.points.union (.ofList missing)⟩

/-- A character in all its forms. -/
def forms (c : Char) : CharSet := ⟨.ofList (caseForms c.toNat)⟩

/-- Whether all members are below U+0080. -/
def isAscii (s : CharSet) : Bool := s.points.bounds.all (· ≤ 0x80)

end CharSet

end Curia.Regex
