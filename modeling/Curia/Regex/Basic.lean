import Curia.Regex.CharSet

/-!
Regular expressions and the order in which they try to match. Of all the ways to match from one
place, the first counts: the left branch of an alternative before the right one, another repetition
before the end of a greedy one, the end before another repetition of a lazy one. A part that has
been reached at a place is not tried there again, so repetitions of nothing come to an end.
-/

namespace Curia

namespace Regex

/-- The characters before and after a place, where there are any. -/
structure Place where
  before : Option Char
  after : Option Char
  deriving DecidableEq

/-- How a place lies to the words around it. -/
inductive WordEdge where
  | boundary
  | notBoundary
  | start
  | stop
  /-- No word character comes before. -/
  | halfStart
  /-- No word character follows. -/
  | halfStop
  deriving DecidableEq

/-- Whether a place is such, where `before` and `after` tell if word characters stand there. -/
def WordEdge.holds (before after : Bool) : WordEdge → Bool
  | boundary => before != after
  | notBoundary => before == after
  | start => !before && after
  | stop => before && !after
  | halfStart => !before
  | halfStop => !after

/-- Conditions on a place between characters. -/
inductive Assertion where
  | textStart
  | textEnd
  | lineStart
  | lineEnd
  /-- A line feed, a carriage return or both in this order end the line before. -/
  | crlfStart
  | crlfEnd
  /-- Words have all kinds of letters and digits, or those of ASCII only. -/
  | word (asciiOnly : Bool) (edge : WordEdge)
  deriving DecidableEq

namespace Assertion

/-- The characters that words are made of. -/
def inWord (asciiOnly : Bool) (c : Char) : Bool := isWord c && (!asciiOnly || c.toNat < 0x80)

@[simp] theorem inWord_false : inWord false = isWord := by
  funext c
  simp [inWord]

def holds (a : Assertion) (p : Place) : Bool :=
  match a with
  | textStart => p.before.isNone
  | textEnd => p.after.isNone
  | lineStart => p.before.all (· = '\n')
  | lineEnd => p.after.all (· = '\n')
  | crlfStart => p.before.all fun c => c = '\n' || (c = '\r' && p.after ≠ some '\n')
  | crlfEnd => p.after.all fun c => c = '\r' || (c = '\n' && p.before ≠ some '\r')
  | word asciiOnly edge =>
    edge.holds (p.before.any (inWord asciiOnly)) (p.after.any (inWord asciiOnly))

end Assertion

end Regex

/-- Regular expressions. Each part that takes a character or has a choice carries a label of its
own. -/
inductive Regex where
  | empty
  | chars (label : Nat) (set : Regex.CharSet)
  | look (a : Regex.Assertion)
  | seq (r s : Regex)
  | alt (label : Nat) (r s : Regex)
  /-- One repetition or more. The label is that of the choice after each. -/
  | plus (label : Nat) (greedy : Bool) (r : Regex)
  /-- Further repetitions, where one may have just ended. -/
  | again (label : Nat) (greedy : Bool) (r : Regex)
  deriving DecidableEq

namespace Regex

/-- What can be reached at a place without taking a character: what is still to be matched on each
way, in the order in which the ways are tried. It begins with a part that takes a character; a way
with nothing left comes last. -/
structure Front where
  ways : List (List Regex)
  /-- Whether nothing is left on the last way. -/
  done : Bool
  /-- The labels that have been reached, as bits. -/
  seen : Nat

namespace Front

def blocked (seen : Nat) : Front := ⟨[], false, seen⟩

/-- The ways of `f`, and after them those of `g` if need be. -/
def orElse (f : Front) (g : Nat → Front) : Front :=
  if f.done then f
  else
    let h := g f.seen
    ⟨f.ways ++ h.ways, h.done, h.seen⟩

/-- What can be reached through a part, unless that has been reached before. -/
def once (label : Nat) (go : Nat → Front) (seen : Nat) : Front :=
  if seen.testBit label then blocked seen else go (seen ||| 1 <<< label)

def branch (label : Nat) (first second : Nat → Front) : Nat → Front :=
  once label fun seen => (first seen).orElse second

end Front

/-- What can be reached through a part, where `next` is to be matched after it and `go` leads
there. -/
def explore (p : Place) : Regex → List Regex → (Nat → Front) → Nat → Front
  | empty, _, go => go
  | chars label set, next, _ => .once label fun seen => ⟨[chars label set :: next], false, seen⟩
  | look a, _, go => if a.holds p then go else .blocked
  | seq r s, next, go => explore p r (s :: next) (explore p s next go)
  | alt label r s, next, go => .branch label (explore p r next go) (explore p s next go)
  | plus label greedy r, next, go =>
    let repeated := explore p r (again label greedy r :: next) .blocked
    explore p r (again label greedy r :: next)
      (if greedy then .branch label repeated go else .branch label go repeated)
  | again label greedy r, next, go =>
    let repeated := explore p r (again label greedy r :: next) .blocked
    if greedy then .branch label repeated go else .branch label go repeated

/-- What can be reached where the parts in the list are to be matched in turn. -/
def exploreAll (p : Place) : List Regex → Nat → Front
  | [] => fun seen => ⟨[[]], true, seen⟩
  | r :: rs => explore p r rs (exploreAll p rs)

end Regex

end Curia
