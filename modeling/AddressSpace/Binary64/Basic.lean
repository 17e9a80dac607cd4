/-!
Floating-point numbers of 64 bits as exact values, read from decimals.
-/

namespace AddressSpace

-- A finite number is `mantissa * 2 ^ exponent`, with the mantissa below `2 ^ 53` and the exponent
-- as small as that and the bound `-1074` allow.
inductive Binary64 where
  | finite (negative : Bool) (mantissa : Nat) (exponent : Int)
  | infinite (negative : Bool)
  | nan
  deriving DecidableEq, Repr, Inhabited

namespace Binary64

-- A quotient rounded to the nearest whole number, and to the even one of two.
def roundDiv (num den : Nat) : Nat :=
  let q := num / den
  let r := 2 * (num % den)
  if r < den ∨ (r = den ∧ q % 2 = 0) then q else q + 1

-- A fraction `num / den * base ^ e` as numerator and denominator.
def scaled (num den base : Nat) (e : Int) : Nat × Nat :=
  if 0 ≤ e then (num * base.pow e.toNat, den) else (num, den * base.pow (-e).toNat)

-- The number nearest to a positive fraction, of two the one with the even mantissa.
def ofFraction (negative : Bool) (num den : Nat) : Binary64 :=
  -- The guess may be one too low, and then the quotient has a digit too many.
  let guess : Int := (Nat.log2 num : Int) - Nat.log2 den - 53
  let (n, d) := scaled num den 2 (-guess)
  let exact := if Nat.pow 2 53 ≤ n / d then guess + 1 else guess
  let exponent := if exact < -1074 then -1074 else exact
  let (n, d) := scaled num den 2 (-exponent)
  let mantissa := roundDiv n d
  -- Rounding up may reach the next power of two.
  let (mantissa, exponent) :=
    if mantissa = Nat.pow 2 53 then (Nat.pow 2 52, exponent + 1) else (mantissa, exponent)
  if 971 < exponent then .infinite negative else .finite negative mantissa exponent

def ofInt (n : Int) : Binary64 :=
  if n = 0 then .finite false 0 (-1074) else ofFraction (decide (n < 0)) n.natAbs 1

def digitCount (n : Nat) : Nat :=
  (Nat.toDigits 10 n).length

-- The number nearest to `digits * 10 ^ exponent`. Decimals far outside the range are settled
-- without building them.
def ofDecimal (negative : Bool) (digits : Nat) (exponent : Int) : Binary64 :=
  if digits = 0 then .finite negative 0 (-1074)
  else
    let top := exponent + digitCount digits
    if 310 < top then .infinite negative
    else if top < -330 then .finite negative 0 (-1074)
    else
      let (n, d) := scaled digits 1 10 exponent
      ofFraction negative n d

-- The decimal point's place for a positive fraction: `10 ^ (p - 1) ≤ num / den < 10 ^ p`.
def pointPlace (num den : Nat) : Int :=
  if den ≤ num then digitCount (num / den) else 1 - digitCount ((den - 1) / num)

def wholePart (negative : Bool) (mantissa : Nat) (exponent : Int) : Int :=
  let (num, den) := scaled mantissa 1 2 exponent
  if negative then -(num / den : Nat) else (num / den : Nat)

-- The whole number that a number equals.
def toInt? : Binary64 → Option Int
  | .finite negative mantissa exponent =>
    let (num, den) := scaled mantissa 1 2 exponent
    if num % den = 0 then some (wholePart negative mantissa exponent) else none
  | _ => none

end Binary64

end AddressSpace
