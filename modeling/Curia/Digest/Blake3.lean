/-!
The BLAKE3 hash function on byte lists, without key and with 32 bytes of output. The message is
cut into chunks of 1024 bytes, which are the leaves of a binary tree; a left subtree is a full
tree as large as possible.
-/

namespace Curia.Blake3

abbrev Block := Vector UInt32 16

/-- A chaining value: the eight words that one node of the tree hands to the next. -/
structure Chain where
  words : Vector UInt32 8

def Chain.start : Chain :=
  ⟨#v[0x6a09e667, 0xbb67ae85, 0x3c6ef372, 0xa54ff53a, 0x510e527f, 0x9b05688c, 0x1f83d9ab, 0x5be0cd19]⟩

def rotateRight (w : UInt32) (n : UInt32) : UInt32 :=
  (w >>> n) ||| (w <<< (32 - n))

/-- The quarter round on the state words `a`, `b`, `c` and `d` with two message words. -/
def mix (v : Block) (a b c d : Fin 16) (x y : UInt32) : Block :=
  let a1 := v[a] + v[b] + x
  let d1 := rotateRight (v[d] ^^^ a1) 16
  let c1 := v[c] + d1
  let b1 := rotateRight (v[b] ^^^ c1) 12
  let a2 := a1 + b1 + y
  let d2 := rotateRight (d1 ^^^ a2) 8
  let c2 := c1 + d2
  let b2 := rotateRight (b1 ^^^ c2) 7
  (((v.set a a2).set b b2).set c c2).set d d2

def round (v m : Block) : Block :=
  let v := mix v 0 4 8 12 m[0] m[1]
  let v := mix v 1 5 9 13 m[2] m[3]
  let v := mix v 2 6 10 14 m[4] m[5]
  let v := mix v 3 7 11 15 m[6] m[7]
  let v := mix v 0 5 10 15 m[8] m[9]
  let v := mix v 1 6 11 12 m[10] m[11]
  let v := mix v 2 7 8 13 m[12] m[13]
  mix v 3 4 9 14 m[14] m[15]

/-- The order in which the next round takes the message words. -/
def permute (m : Block) : Block :=
  #v[m[2], m[6], m[3], m[10], m[7], m[0], m[4], m[13],
     m[1], m[11], m[12], m[5], m[9], m[14], m[15], m[8]]

def rounds : Nat → Block → Block → Block
  | 0, v, _ => v
  | n + 1, v, m => rounds n (round v m) (permute m)

/-- What is left to be compressed at a node: the last block with what goes in beside it. -/
structure Node where
  chain : Chain
  block : Block
  counter : UInt64
  size : UInt32
  flags : UInt32

def chunkStart : UInt32 := 1
def chunkEnd : UInt32 := 2
def parentFlag : UInt32 := 4
def rootFlag : UInt32 := 8

def Node.compress (n : Node) : Chain :=
  let h := n.chain.words
  let v : Block :=
    #v[h[0], h[1], h[2], h[3], h[4], h[5], h[6], h[7],
       0x6a09e667, 0xbb67ae85, 0x3c6ef372, 0xa54ff53a,
       n.counter.toUInt32, (n.counter >>> 32).toUInt32, n.size, n.flags]
  let v := rounds 7 v n.block
  ⟨#v[v[0] ^^^ v[8], v[1] ^^^ v[9], v[2] ^^^ v[10], v[3] ^^^ v[11],
      v[4] ^^^ v[12], v[5] ^^^ v[13], v[6] ^^^ v[14], v[7] ^^^ v[15]]⟩

/-- Words of four bytes, the least significant first; missing bytes are zero. -/
def words : List UInt8 → List UInt32
  | [] => []
  | [a] => [a.toUInt32]
  | [a, b] => [a.toUInt32 ||| (b.toUInt32 <<< 8)]
  | [a, b, c] => [a.toUInt32 ||| (b.toUInt32 <<< 8) ||| (c.toUInt32 <<< 16)]
  | a :: b :: c :: d :: rest =>
    (a.toUInt32 ||| (b.toUInt32 <<< 8) ||| (c.toUInt32 <<< 16) ||| (d.toUInt32 <<< 24)) :: words rest

/-- A block of at most 64 bytes, filled up with zeros. -/
def blockOf (bytes : List UInt8) : Block :=
  let ws := (words bytes).toArray
  Vector.ofFn fun i => ws.getD i 0

/-- Consecutive pieces of `n + 1` bytes; only the last may be shorter. -/
def pieces (n : Nat) : List UInt8 → List (List UInt8)
  | [] => []
  | b :: bs => (b :: bs.take n) :: pieces n (bs.drop n)
termination_by bs => bs.length
decreasing_by simp only [List.length_drop, List.length_cons]; omega

/-- The node of a chunk, given its blocks: each but the last is compressed into the next. -/
def chunkNode (counter : UInt64) (chain : Chain) (flag : UInt32) : List (List UInt8) → Node
  | [] => ⟨chain, blockOf [], counter, 0, flag ||| chunkEnd⟩
  | [b] => ⟨chain, blockOf b, counter, UInt32.ofNat b.length, flag ||| chunkEnd⟩
  | b :: bs =>
    chunkNode counter (Node.compress ⟨chain, blockOf b, counter, UInt32.ofNat b.length, flag⟩) 0 bs

def chunk (counter : Nat) (bytes : List UInt8) : Node :=
  chunkNode (UInt64.ofNat counter) Chain.start chunkStart (pieces 63 bytes)

def parent (left right : Chain) : Node :=
  let l := left.words
  let r := right.words
  ⟨Chain.start,
    #v[l[0], l[1], l[2], l[3], l[4], l[5], l[6], l[7], r[0], r[1], r[2], r[3], r[4], r[5], r[6], r[7]],
    0, 64, parentFlag⟩

/-- The tree over chunks of which the first has the given number, for at most `2 ^ height`
chunks: the left half is full whenever there is a right half. -/
def tree : Nat → Nat → List (List UInt8) → Node
  | 0, counter, chunks => chunk counter (chunks.headD [])
  | height + 1, counter, chunks =>
    let half := 1 <<< height
    if chunks.length ≤ half then tree height counter chunks
    else parent (tree height counter (chunks.take half)).compress
      (tree height (counter + half) (chunks.drop half)).compress

def wordBytes (w : UInt32) : List UInt8 :=
  [w.toUInt8, (w >>> 8).toUInt8, (w >>> 16).toUInt8, (w >>> 24).toUInt8]

def Chain.bytes (c : Chain) : List UInt8 :=
  let w := c.words
  [w[0], w[1], w[2], w[3], w[4], w[5], w[6], w[7]].flatMap wordBytes

def hash (message : List UInt8) : List UInt8 :=
  let chunks := pieces 1023 message
  let root := tree (Nat.log2 chunks.length + 1) 0 chunks
  ({ root with flags := root.flags ||| rootFlag }.compress).bytes

theorem hash_length (message : List UInt8) : (hash message).length = 32 := rfl

end Curia.Blake3
