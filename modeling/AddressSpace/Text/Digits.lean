import AddressSpace.Text.Blank

/-!
Digits and the numerals people type. A numeral may have blanks around it, a sign, leading zeros,
single underscores between digits, and the decimal digits of any script.
-/

namespace AddressSpace.Text

-- Code points of the zeros of the decimal digit runs; the other nine digits follow each zero.
def zeros : List Nat :=
  [0x30, 0x660, 0x6f0, 0x7c0, 0x966, 0x9e6, 0xa66, 0xae6, 0xb66, 0xbe6, 0xc66, 0xce6, 0xd66, 0xde6,
    0xe50, 0xed0, 0xf20, 0x1040, 0x1090, 0x17e0, 0x1810, 0x1946, 0x19d0, 0x1a80, 0x1a90, 0x1b50,
    0x1bb0, 0x1c40, 0x1c50, 0xa620, 0xa8d0, 0xa900, 0xa9d0, 0xa9f0, 0xaa50, 0xabf0, 0xff10,
    0x104a0, 0x10d30, 0x11066, 0x110f0, 0x11136, 0x111d0, 0x112f0, 0x11450, 0x114d0, 0x11650,
    0x116c0, 0x11730, 0x118e0, 0x11950, 0x11c50, 0x11d50, 0x11da0, 0x16a60, 0x16ac0, 0x16b50,
    0x1d7ce, 0x1d7d8, 0x1d7e2, 0x1d7ec, 0x1d7f6, 0x1e140, 0x1e2f0, 0x1e950, 0x1fbf0]

def digitOfAnyScript? (c : CodePoint) : Option Nat :=
  (zeros.find? fun z => decide (z ≤ c.toNat) && decide (c.toNat < z + 10)).map (c.toNat - ·)

def digit? (c : Char) : Option Nat :=
  if '0'.toNat ≤ c.toNat ∧ c.toNat ≤ '9'.toNat then some (c.toNat - '0'.toNat) else none

def hexDigit? (c : Char) : Option Nat :=
  if '0'.toNat ≤ c.toNat ∧ c.toNat ≤ '9'.toNat then some (c.toNat - '0'.toNat)
  else if 'a'.toNat ≤ c.toNat ∧ c.toNat ≤ 'f'.toNat then some (c.toNat - 'a'.toNat + 10)
  else if 'A'.toNat ≤ c.toNat ∧ c.toNat ≤ 'F'.toNat then some (c.toNat - 'A'.toNat + 10)
  else none

-- The number that digits spell in a base, most significant first.
def ofDigits (base : Nat) (digits : List Nat) : Nat :=
  digits.foldl (fun n d => n * base + d) 0

-- The digits of a number in lower case, padded with zeros to at least the given width.
def padded (base width n : Nat) : List Char :=
  let digits := Nat.toDigits base n
  List.replicate (width - digits.length) '0' ++ digits

-- The digits of a numeral's body, with single underscores allowed between two digits.
def numeralDigits? : Text → Option (List Nat)
  | [] => none
  | [c] => (digitOfAnyScript? c).map ([·])
  | c :: .char '_' :: cs => do
    let d ← digitOfAnyScript? c
    let ds ← numeralDigits? cs
    return d :: ds
  | c :: cs => do
    let d ← digitOfAnyScript? c
    let ds ← numeralDigits? cs
    return d :: ds

-- What may stand around a numeral: blanks, but no information separators.
def isSpacing (c : CodePoint) : Bool :=
  isBlank c && !(decide (0x1c ≤ c.toNat) && decide (c.toNat ≤ 0x1f))

-- A numeral without what stands around it: whether it has a minus, and its digits.
def numeral? (t : Text) : Option (Bool × List Nat) :=
  let body := ((t.dropWhile isSpacing).reverse.dropWhile isSpacing).reverse
  match body with
  | .char '-' :: cs => (numeralDigits? cs).map (true, ·)
  | .char '+' :: cs => (numeralDigits? cs).map (false, ·)
  | cs => (numeralDigits? cs).map (false, ·)

def maxDigits : Nat := 4300

-- Reads a whole number that somebody typed.
def typedInt? (t : Text) : Option Int := do
  let (negative, digits) ← numeral? t
  if maxDigits < digits.length then none
  else
    let n : Int := ofDigits 10 digits
    return if negative then -n else n

-- A whole number with more digits than that is not written out.
def isOverlong (n : Int) : Bool :=
  decide (maxDigits < (Nat.toDigits 10 n.natAbs).length)

-- What is said where such a number should be written.
def overlongMessage : String :=
  s!"Exceeds the limit ({maxDigits} digits) for integer string conversion; " ++
    "use sys.set_int_max_str_digits() to increase the limit"

end AddressSpace.Text
