import AddressSpace.Binary64.Basic
import AddressSpace.Binary64.Decimal
import AddressSpace.Text.Digits

/-!
Numbers rounded to a given count of digits, or of digits behind the point. A number half-way between
two such decimals goes to the one with the even last digit.
-/

namespace AddressSpace.Binary64

-- The decimal nearest to a number, with the given count of digits behind the point.
def toPlaces (places mantissa : Nat) (exponent : Int) : Decimal :=
  let (num, den) := scaled mantissa 1 2 exponent
  let (n, d) := scaled num den 10 places
  let digits := Text.padded 10 (places + 1) (roundDiv n d)
  { digits, point := (digits.length : Int) - places }

-- The decimal nearest to a number, with the given count of digits.
def toDigits (count mantissa : Nat) (exponent : Int) : Decimal :=
  if mantissa = 0 then { digits := List.replicate count '0', point := 1 }
  else
    let (num, den) := scaled mantissa 1 2 exponent
    let point := pointPlace num den
    let (n, d) := scaled num den 10 (count - point)
    let digits := Nat.toDigits 10 (roundDiv n d)
    -- Rounding up may reach the next power of ten.
    if count < digits.length then { digits := digits.take count, point := point + 1 }
    else { digits, point }

def fixed (keepPoint : Bool) (places mantissa : Nat) (exponent : Int) : List Char :=
  (toPlaces places mantissa exponent).positional keepPoint

def scientific (keepPoint : Bool) (places mantissa : Nat) (exponent : Int) : List Char :=
  (toDigits (places + 1) mantissa exponent).scientific keepPoint

-- Positional unless the first digit lies five or more places behind the point, or the count of
-- digits does not reach up to it. Zeros at the end are dropped, unless the point is kept on demand.
def general (keepPoint : Bool) (count mantissa : Nat) (exponent : Int) : List Char :=
  let count := max count 1
  let rounded := toDigits count mantissa exponent
  let d := if keepPoint then rounded else rounded.stripped
  if -3 ≤ rounded.point ∧ rounded.point ≤ count then d.positional keepPoint
  else d.scientific keepPoint

end AddressSpace.Binary64
