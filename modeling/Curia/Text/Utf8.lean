/-!
The bytes of code points in UTF-8. A range of code points falls into pieces, each of which holds
exactly the code points whose bytes lie in a range of their own at every position.
-/

namespace Curia.Utf8

/-- The number of bytes of a code point. -/
def width (n : Nat) : Nat :=
  if n < 0x80 then 1 else if n < 0x800 then 2 else if n < 0x10000 then 3 else 4

/-- The last bytes of a code point: six bits each. -/
def tail : Nat → Nat → List Nat
  | 0, _ => []
  | k + 1, n => tail k (n / 64) ++ [0x80 + n % 64]

def encode (n : Nat) : List Nat :=
  match width n with
  | 1 => [n]
  | 2 => (0xc0 + n / 64) :: tail 1 n
  | 3 => (0xe0 + n / 4096) :: tail 2 n
  | _ => (0xf0 + n / 262144) :: tail 3 n

/-- The last code point of the first piece, where a range has to be cut because the number of bytes
changes, or because some bytes do not run through all their values while an earlier one changes. -/
def cut? (first last : Nat) : Option Nat :=
  let atWidth := [0x7f, 0x7ff, 0xffff].find? fun n => first ≤ n && n < last
  let atBits := [64, 4096, 262144].findSome? fun m =>
    if first / m = last / m then none
    else if first % m ≠ 0 then some (first / m * m + m - 1)
    else if last % m ≠ m - 1 then some (last / m * m - 1)
    else none
  if last < 0x80 then none else atWidth.or atBits

/-- The pieces of a range. The number bounds the depth of the cuts. -/
def pieces : Nat → Nat → Nat → List (Nat × Nat)
  | 0, first, last => [(first, last)]
  | fuel + 1, first, last =>
    match cut? first last with
    | none => [(first, last)]
    | some n => pieces fuel first n ++ pieces fuel (n + 1) last

/-- The byte ranges of each piece of a range. The code points that belong to no character, from 0xd800
to 0xdfff, are left out. -/
def byteRanges (first last : Nat) : List (List (Nat × Nat)) :=
  let spans :=
    if first < 0xe000 ∧ 0xd7ff < last then [(first, 0xd7ff), (0xe000, last)] else [(first, last)]
  spans.flatMap fun (a, b) => (pieces 32 a b).map fun (a, b) => (encode a).zip (encode b)

end Curia.Utf8
