/-!
White space: the characters with the Unicode property of that name.
-/

namespace Curia

def isSpace (c : Char) : Bool :=
  let n := c.toNat
  (9 ≤ n && n ≤ 13) || n = 0x20 || n = 0x85 || n = 0xa0 || n = 0x1680 || (0x2000 ≤ n && n ≤ 0x200a)
    || n = 0x2028 || n = 0x2029 || n = 0x202f || n = 0x205f || n = 0x3000

/-- Drops white space at the front. -/
def trimLeft (cs : List Char) : List Char := cs.dropWhile isSpace

/-- Drops white space at the end. -/
def trimRight (cs : List Char) : List Char := (cs.reverse.dropWhile isSpace).reverse

def trim (cs : List Char) : List Char := trimRight (trimLeft cs)

/-- Whether a text is nothing but white space. -/
def isBlankText (s : String) : Bool := s.toList.all isSpace

end Curia
