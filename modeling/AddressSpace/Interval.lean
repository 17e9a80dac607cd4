import AddressSpace.Address.Text

/-!
Stretches of addresses from a first to a last one, both taken in.
-/

namespace AddressSpace

-- Nothing is asked of the two bounds; `Interval.Proper` says when they make a stretch.
structure Interval where
  first : Address
  last : Address
  deriving DecidableEq, Repr, Inhabited

namespace Interval

def Proper (i : Interval) : Prop :=
  i.first.length = i.last.length ∧ i.first ≤ i.last

instance (i : Interval) : Decidable i.Proper :=
  inferInstanceAs (Decidable (_ ∧ _))

def size (i : Interval) : Int :=
  Address.count i.first i.last

def spans (i : Interval) (a : Address) : Bool :=
  decide (i.first ≤ a) && decide (a ≤ i.last)

-- The smallest stretch that takes in both.
def hull (i j : Interval) : Interval :=
  { first := Address.lower i.first j.first, last := Address.upper i.last j.last }

def overlaps (i j : Interval) : Bool :=
  !(decide (i.last < j.first) || decide (j.last < i.first))

-- What is left of a stretch when another one is taken out: what lies below it and what lies
-- above.
def minus (i cut : Interval) : List Interval :=
  if i.overlaps cut then
    (if i.first < cut.first then [{ first := i.first, last := cut.first.previous.1 }] else []) ++
    (if cut.last < i.last then [{ first := cut.last.next.1, last := i.last }] else [])
  else [i]

def chars (i : Interval) : List Char :=
  i.first.chars ++ '-' :: i.last.chars

def text (i : Interval) : String :=
  String.ofList i.chars

def listed (is : List Interval) : String :=
  String.ofList (Text.join [',', ' '] (is.map chars))

end Interval

end AddressSpace
