import AddressSpace.Binary64.Shortest

/-!
Numbers, where whole numbers of any size are told apart from floating-point numbers.
-/

namespace AddressSpace

inductive Number where
  | int (n : Int)
  | real (x : Binary64)
  deriving DecidableEq, Repr, Inhabited

namespace Number

-- Why a number has no whole part.
inductive Fault where
  | infinite
  | nan
  deriving DecidableEq, Repr

def Fault.message : Fault → String
  | .infinite => "cannot convert float infinity to integer"
  | .nan => "cannot convert float NaN to integer"

def text : Number → String
  | .int n => toString n
  | .real x => x.text

-- The whole number that a number equals.
def toInt? : Number → Option Int
  | .int n => some n
  | .real x => x.toInt?

-- The whole number that a number has in front of its point.
def truncate : Number → Except Fault Int
  | .int n => .ok n
  | .real .nan => .error .nan
  | .real (.infinite _) => .error .infinite
  | .real (.finite negative mantissa exponent) =>
    .ok (Binary64.wholePart negative mantissa exponent)

-- The nearest floating-point number, unless the number is too large to have one.
def toReal? : Number → Option Binary64
  | .real x => some x
  | .int n =>
    match Binary64.ofInt n with
    | .infinite _ => none
    | x => some x

end Number

end AddressSpace
