/-!
Sets of code points as ascending bounds: membership begins at the first bound, ends at the second,
and so on.
-/

namespace Curia

structure Runs where
  bounds : Array Nat
  deriving DecidableEq

namespace Runs

/-- How many of the points from `lo` up to `hi` are at most `n`, plus `lo`, where the points before
`lo` are at most `n` and those from `hi` on are above. The first number bounds the halvings. -/
def countUpTo (bounds : Array Nat) (n : Nat) : Nat → Nat → Nat → Nat
  | 0, lo, _ => lo
  | fuel + 1, lo, hi =>
    if lo < hi then
      let mid := (lo + hi) / 2
      if bounds.getD mid 0 ≤ n then countUpTo bounds n fuel (mid + 1) hi
      else countUpTo bounds n fuel lo mid
    else lo

/-- A point is a member when an odd number of bounds are at most that point. -/
def contains (s : Runs) (n : Nat) : Bool :=
  countUpTo s.bounds n (Nat.log2 s.bounds.size + 2) 0 s.bounds.size % 2 = 1

def empty : Runs := ⟨#[]⟩

/-- The points from `first` to `last`. -/
def span (first last : Nat) : Runs := ⟨#[first, last + 1]⟩

/-- The first and the last point of each run. -/
def pairs : List Nat → List (Nat × Nat)
  | a :: b :: rest => (a, b - 1) :: pairs rest
  | _ => []

def toList (s : Runs) : List (Nat × Nat) := pairs s.bounds.toList

/-- Where `f` of the memberships in two sets changes, from a point on at which these are `inA` and
`inB` and `f` of them is `was`. The number bounds the steps, each of which passes a bound. -/
def merge (f : Bool → Bool → Bool) (was inA inB : Bool) : Nat → List Nat → List Nat → List Nat
  | 0, _, _ => []
  | fuel + 1, as, bs =>
    let pass (n : Nat) (inA inB : Bool) (as bs : List Nat) : List Nat :=
      let rest := merge f (f inA inB) inA inB fuel as bs
      if f inA inB = was then rest else n :: rest
    match as, bs with
    | [], [] => []
    | a :: as, [] => pass a (!inA) inB as []
    | [], b :: bs => pass b inA (!inB) [] bs
    | a :: as, b :: bs =>
      if a < b then pass a (!inA) inB as (b :: bs)
      else if b < a then pass b inA (!inB) (a :: as) bs
      else pass a (!inA) (!inB) as bs

/-- The points for which `f` of the memberships in two sets holds; it holds of none that is in
neither. -/
def combine (f : Bool → Bool → Bool) (a b : Runs) : Runs :=
  ⟨(merge f false false false (a.bounds.size + b.bounds.size) a.bounds.toList
    b.bounds.toList).toArray⟩

def union : Runs → Runs → Runs := combine (· || ·)

def inter : Runs → Runs → Runs := combine (· && ·)

def diff : Runs → Runs → Runs := combine (· && !·)

def symmDiff : Runs → Runs → Runs := combine (· != ·)

/-- The set of some points, in any order. -/
def ofList (ns : List Nat) : Runs := ns.foldl (fun s n => s.union (span n n)) empty

end Runs

end Curia
