import AddressSpace.Octets

/-!
Addresses: octets of any length, most significant first. One arithmetic serves all lengths.
-/

namespace AddressSpace

@[ext]
structure Address where
  octets : List UInt8
  deriving DecidableEq, Repr, Inhabited

namespace Address

variable {a b : Address}

def length (a : Address) : Nat :=
  a.octets.length

def value (a : Address) : Nat :=
  Octets.value a.octets

-- The address one above, and whether the step wrapped around to zeros.
def next (a : Address) : Address × Bool :=
  let (xs, wrapped) := Octets.succ a.octets
  (⟨xs⟩, wrapped)

-- The address one below, and whether the step wrapped around to the largest octets.
def previous (a : Address) : Address × Bool :=
  let (xs, wrapped) := Octets.pred a.octets
  (⟨xs⟩, wrapped)

-- Addresses are ordered from left to right, also those of different lengths.
def order (a b : Address) : Ordering :=
  Octets.order a.octets b.octets

instance : LT Address := ⟨fun a b => order a b = .lt⟩

instance : LE Address := ⟨fun a b => order a b ≠ .gt⟩

instance (a b : Address) : Decidable (a < b) :=
  inferInstanceAs (Decidable (order a b = .lt))

instance (a b : Address) : Decidable (a ≤ b) :=
  inferInstanceAs (Decidable (order a b ≠ .gt))

def lower (a b : Address) : Address :=
  if b < a then b else a

def upper (a b : Address) : Address :=
  if a < b then b else a

-- No address lies between the two: the second is one above the first.
def meets (a b : Address) : Bool :=
  !a.next.2 && decide (a.next.1 = b)

-- The second address is above the first, with others between them.
def isShortOf (a b : Address) : Bool :=
  decide (a < b) && !a.meets b

-- How many addresses the first and the last of a stretch take in; it is zero or less when the
-- last comes before the first.
def count (first last : Address) : Int :=
  (last.value : Int) - first.value + 1

-- The address some places above or below, if the space reaches that far.
def shift? (a : Address) (places : Int) : Option Address :=
  let n := (a.value : Int) + places
  if 0 ≤ n ∧ n < Octets.space a.length then some ⟨Octets.ofValue a.length n.toNat⟩ else none

def opensBlock (a : Address) : Bool :=
  a.octets.getLast? == some 0

-- The last address of the block of 256 that an address lies in.
def blockEnd (a : Address) : Address :=
  ⟨a.octets.dropLast ++ [255]⟩

end Address

end AddressSpace
