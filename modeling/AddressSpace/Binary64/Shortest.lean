import AddressSpace.Binary64.Basic
import AddressSpace.Binary64.Decimal

/-!
Numbers shown with the fewest digits that read back.
-/

namespace AddressSpace.Binary64

-- Of the two neighbours of a positive fraction on the grid of `count` digits, those that read
-- back, the nearer first.
def candidates (mantissa : Nat) (exponent : Int) (count : Nat) : List (Nat × Int) :=
  let (num, den) := scaled mantissa 1 2 exponent
  let unit := pointPlace num den - count
  let (n, d) := scaled num den 10 (-unit)
  let below := n / d
  let nearest := roundDiv n d
  let other := if nearest = below then below + 1 else below
  ([nearest, other].map (·, unit)).filter fun c =>
    ofDecimal false c.1 c.2 == .finite false mantissa exponent

-- The shortest decimal that reads back.
def shortest (mantissa : Nat) (exponent : Int) : Decimal :=
  let found := (List.range 17).findSome? fun i => (candidates mantissa exponent (i + 1)).head?
  match mantissa, found with
  | 0, _ | _, none => { digits := ['0'], point := 1 }
  | _, some (n, unit) =>
    let digits := Nat.toDigits 10 n
    Decimal.stripped { digits, point := digits.length + unit }

-- A number is written positionally, with a digit behind the point, when the point falls close to
-- the digits, and with an exponent otherwise.
def layout (d : Decimal) : List Char :=
  if -3 ≤ d.point ∧ d.point ≤ 16 then
    d.whole ++ '.' :: (if d.fraction = [] then ['0'] else d.fraction)
  else d.scientific false

def text : Binary64 → String
  | .nan => "nan"
  | .infinite negative => if negative then "-inf" else "inf"
  | .finite negative mantissa exponent =>
    let body := layout (shortest mantissa exponent)
    String.ofList (if negative then '-' :: body else body)

end AddressSpace.Binary64
