import Curia.Regex.Pattern
import Curia.Text.Utf8
import Std.Data.HashMap

/-!
The room that a pattern takes as an automaton over bytes. Two automata are built for a pattern, one
that reads forward and one that reads backward, and neither may take more than 10 MiB. A state takes
32 bytes, a transition on a range of bytes takes 8 more where a state has several, and a choice
takes 4 more for each branch. A set of characters is a tree of byte ranges in which equal parts are
shared as far as a table of the parts built before holds them.
-/

namespace Curia.Regex

/-- The states of an automaton so far, and the bytes of their transitions. -/
structure Room where
  states : Nat
  extra : Nat

def sizeLimit : Nat := 10485760

/-- Building a part: the room that is taken then, unless it exceeds the limit. -/
abbrev Growth := Room → Option Room

namespace Growth

def take (states extra : Nat) : Growth := fun room =>
  let room : Room := ⟨room.states + states, room.extra + extra⟩
  if sizeLimit < 32 * room.states + room.extra then none else some room

def andThen (a b : Growth) : Growth := fun room => (a room).bind b

def times (part : Growth) : Nat → Growth
  | 0, room => some room
  | n + 1, room => (part room).bind (times part n)

end Growth

/-! ### Sets -/

/-- A table with a number of slots, each of which keeps the last part put there and its state. -/
abbrev PartTable := Std.HashMap Nat (List Nat × Nat)

/-- The slot of a part by its numbers. -/
def slotOf (slots : Nat) (part : List Nat) : Nat :=
  let hash := part.foldl (fun h n => (h ^^^ n.toUInt64) * 1099511628211) 14695981039346656037
  hash.toNat % slots

/-- The state of a part: the one in the table, or else a new one. -/
def intern (slots extra : Nat) (part : List Nat) (table : PartTable) (room : Room) :
    Option (Nat × PartTable × Room) :=
  let slot := slotOf slots part
  match table[slot]?.filter (·.1 = part) with
  | some (_, state) => some (state, table, room)
  | none => do
    let grown ← Growth.take 1 extra room
    return (room.states, table.insert slot (part, room.states), grown)

/-- The state that reads one of some sequences of byte ranges and leads to the target. What follows
ranges that are equal and next to each other is built together. -/
def forwardNode (target : Nat) :
    Nat → List (List (Nat × Nat)) → PartTable → Room → Option (Nat × PartTable × Room)
  | 0, _, table, room => some (target, table, room)
  | depth + 1, seqs, table, room =>
    if seqs.all (·.isEmpty) then some (target, table, room)
    else do
      let groups := seqs.splitBy fun a b => a.head? == b.head?
      let (part, table, room) ← groups.foldlM (fun (part, table, room) group => do
        let (next, table, room) ← forwardNode target depth (group.map List.tail) table room
        match group.head?.bind List.head? with
        | some (first, last) => return (part ++ [first, last, next], table, room)
        | none => return (part, table, room)) ([], table, room)
      intern 10000 (8 * (part.length / 3)) part table room

/-- The states that read a sequence of byte ranges from its end. -/
def backwardPath (state : Nat) :
    List (Nat × Nat) → PartTable → Room → Option (PartTable × Room)
  | [], table, room => some (table, room)
  | (first, last) :: rest, table, room => do
    let (state, table, room) ← intern 1000 0 [state, first, last] table room
    backwardPath state rest table room

def CharSet.byteRanges (s : CharSet) : List (List (Nat × Nat)) :=
  s.points.toList.flatMap fun (first, last) => Utf8.byteRanges first last

/-- A set is read forward by a tree and backward by one path for each of its sequences, both of
which lead to an end of their own. -/
def CharSet.growth (backward : Bool) (s : CharSet) : Growth := fun room =>
  if s.isAscii then Growth.take 2 (8 * s.points.toList.length) room
  else if backward then do
    let stop := room.states + 1
    let room ← Growth.take 2 0 room
    let (_, room) ← s.byteRanges.foldlM (fun (table, room) seq => do
      let (table, room) ← backwardPath stop seq table room
      return (table, ← Growth.take 0 4 room)) (({} : PartTable), room)
    return room
  else do
    let stop := room.states
    let room ← Growth.take 1 0 room
    let (_, _, room) ← forwardNode stop 4 s.byteRanges {} room
    return room

/-! ### Texts -/

/-- What follows in some texts after their first byte, for each of these bytes. -/
def byFirst (texts : List (List Nat)) : List (List (List Nat)) :=
  (texts.filterMap List.head?).eraseDups.map fun b =>
    texts.filterMap fun
      | [] => none
      | c :: rest => if c = b then some rest else none

/-- The room of a tree that reads one of some texts, without its end. Where a text ends, those that
are tried after it make a new node beside the one before. -/
def treeRoom : Nat → List (List Nat) → Room
  | 0, _ => ⟨0, 0⟩
  | depth + 1, texts =>
    if texts.all (·.isEmpty) then ⟨0, 0⟩
    else
      let groups := texts.splitBy fun a b => a.isEmpty == b.isEmpty
      let nodes := (groups.filter (·.any (!·.isEmpty))).map byFirst
      let led := texts.takeWhile (·.isEmpty)
      let ends := min 1 led.length + (texts.drop led.length).countP (·.isEmpty)
      let below := nodes.flatten.map (treeRoom depth)
      let transitions := nodes.map fun node => if node.length = 1 then 0 else 8 * node.length
      { states := nodes.length + 1 + (below.map Room.states).sum
        extra := transitions.sum + 4 * (nodes.length + ends) + (below.map Room.extra).sum }

def Growth.texts (backward : Bool) (texts : List (List Char)) : Growth :=
  let bytes := texts.map fun cs => cs.flatMap fun c => Utf8.encode c.toNat
  let bytes := if backward then bytes.map List.reverse else bytes
  let room := treeRoom ((bytes.map List.length).foldl max 0 + 1) bytes
  .take (room.states + 1) room.extra

/-! ### Patterns -/

/-- The place of a pattern among the branches of a choice. -/
inductive Branching where
  /-- The first branch, or no branch at all. -/
  | first
  /-- The second branch and those after it. -/
  | second
  | later

/-- A branch of a choice. The choice itself is built after the second one. -/
def Growth.branch (place : Branching) (part : Growth) : Growth :=
  match place with
  | .first => part
  | .second => part.andThen (.take 2 8)
  | .later => part.andThen (.take 0 4)

/-- Repetitions of a part, which may take no character unless `takesSome` holds. -/
def Growth.repeated (part : Growth) (takesSome : Bool) : Nat → Option Nat → Growth
  | 0, none => if takesSome then .andThen (.take 1 8) part else part.andThen (.take 3 16)
  | min, none => (part.times min).andThen (.take 1 8)
  | min, some max =>
    let first := if min = 0 then .take 1 0 else part.times min
    let more := Growth.andThen (.take 1 8) part
    if min = max then first
    else if min = 0 ∧ max = 1 then more.andThen (.take 1 0)
    else (first.andThen (.take 1 0)).andThen (more.times (max - min))

namespace Pattern

def toText? : Pattern → Option (List Char)
  | text cs => some cs
  | _ => none

/-- The room of a pattern. Only a forward automaton marks where groups begin and end, and a choice
between texts is a tree. -/
def growth (backward : Bool) : Pattern → Branching → Growth
  | empty, place | look _, place => .branch place (.take 1 0)
  | text cs, place => .branch place (.take (cs.map fun c => Utf8.width c.toNat).sum 0)
  | chars _ set, place => .branch place (set.growth backward)
  | group _ p, place =>
    let inner := p.growth backward .first
    .branch place (if backward then inner else .andThen (.take 1 0) (inner.andThen (.take 1 0)))
  | seq p q, place =>
    let first := p.growth backward .first
    let second := q.growth backward .first
    .branch place (if backward then second.andThen first else first.andThen second)
  | alt p q, .first =>
    match (alt p q).branches.mapM toText? with
    | some texts => .texts backward texts
    | none => (p.growth backward .first).andThen (q.growth backward .second)
  | alt p q, place =>
    (Growth.branch place (p.growth backward .first)).andThen (q.growth backward .later)
  | repetition p min max _, place =>
    .branch place (Growth.repeated (p.growth backward .first) (p.minLength.any (0 < ·)) min max)

/-- The room of an automaton for a pattern. Where a match may begin at any place, it has a loop
before the pattern. -/
def room? (backward : Bool) (p : Pattern) : Option Room :=
  let anchored := if backward then p.endsWith .textEnd else p.leadsWith .textStart
  let whole := group 0 p
  Growth.andThen (if anchored then .take 1 0 else .take 3 16)
    (.andThen (whole.growth backward .first) (.take 1 0)) ⟨0, 0⟩

/-- A bound for the bytes of either automaton, less what stands around the pattern. -/
def bound : Pattern → Nat
  | empty | look _ => 32
  | text cs => 400 * cs.length
  | chars _ set => 200 + 4000 * set.points.toList.length
  | group _ p => 64 + p.bound
  | seq p q => p.bound + q.bound
  | alt p q => p.bound + q.bound + 100
  | repetition p min max _ => (max.getD (min + 1)) * (p.bound + 40) + 200

/-- Whether both automata for a pattern are within the limit. Most patterns are far below it. -/
def fits (p : Pattern) : Bool :=
  p.bound + 300 ≤ sizeLimit || (p.room? false).isSome && (p.room? true).isSome

end Pattern

end Curia.Regex
