/-!
Decimals: digits and the place of their point, written positionally or with an exponent.
-/

namespace AddressSpace

-- The point stands behind the first `point` digits; places without a digit are zero.
structure Decimal where
  digits : List Char
  point : Int
  deriving DecidableEq, Repr

namespace Decimal

def whole (d : Decimal) : List Char :=
  if d.point ≤ 0 then ['0']
  else d.digits.take d.point.toNat ++ List.replicate (d.point.toNat - d.digits.length) '0'

def fraction (d : Decimal) : List Char :=
  List.replicate (-d.point).toNat '0' ++ d.digits.drop d.point.toNat

-- The decimal without the zeros at its end; of zeros alone, one is kept.
def stripped (d : Decimal) : Decimal :=
  match (d.digits.reverse.dropWhile (· = '0')).reverse with
  | [] => { d with digits := ['0'] }
  | kept => { d with digits := kept }

-- A point and what stands behind it; a point with nothing behind it is kept only on demand.
def behindPoint (keepPoint : Bool) (fraction : List Char) : List Char :=
  if fraction = [] then (if keepPoint then ['.'] else []) else '.' :: fraction

def positional (keepPoint : Bool) (d : Decimal) : List Char :=
  d.whole ++ behindPoint keepPoint d.fraction

-- One digit in front of the point, and an exponent of two digits or more.
def scientific (keepPoint : Bool) (d : Decimal) : List Char :=
  let e := d.point - 1
  let size := Nat.toDigits 10 e.natAbs
  d.digits.take 1 ++ behindPoint keepPoint (d.digits.drop 1) ++ 'e' ::
    (if e < 0 then '-' else '+') :: (if size.length < 2 then '0' :: size else size)

end Decimal

end AddressSpace
