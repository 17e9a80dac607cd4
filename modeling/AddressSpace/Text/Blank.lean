import AddressSpace.Text.CodePoint

/-!
Blank characters and the text left when they are trimmed from both ends. Blank are the characters
that the Unicode standard calls white space, together with the four information separators.
-/

namespace AddressSpace.Text

def blankRanges : List (Nat × Nat) :=
  [(0x09, 0x0d), (0x1c, 0x20), (0x85, 0x85), (0xa0, 0xa0), (0x1680, 0x1680), (0x2000, 0x200a),
    (0x2028, 0x2029), (0x202f, 0x202f), (0x205f, 0x205f), (0x3000, 0x3000)]

def isBlank (c : CodePoint) : Bool :=
  blankRanges.any fun r => decide (r.1 ≤ c.toNat) && decide (c.toNat ≤ r.2)

def trimStart (t : Text) : Text :=
  t.dropWhile isBlank

def trimEnd (t : Text) : Text :=
  (t.reverse.dropWhile isBlank).reverse

-- Blank characters are dropped from both ends; those inside stay.
def trim (t : Text) : Text :=
  trimEnd (trimStart t)

end AddressSpace.Text
