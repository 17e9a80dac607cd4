import AddressSpace.Address.Basic
import AddressSpace.Family
import AddressSpace.Text.Quoted
import AddressSpace.Text.Separated

/-!
The text of an address. Four octets are written as decimal numbers between dots, sixteen as
hexadecimal groups between colons, where `::` stands for the longest run of two or more groups of
zero, and for the first of them on a tie. Other lengths are written as hexadecimal digits.
-/

namespace AddressSpace.Address

def dotted (octets : List UInt8) : List Char :=
  Text.join ['.'] (octets.map fun x => Nat.toDigits 10 x.toNat)

-- Octets in pairs, as numbers of sixteen bits.
def groups : List UInt8 → List Nat
  | x :: y :: rest => (x.toNat * 256 + y.toNat) :: groups rest
  | _ => []

def zeroRun : List Nat → Nat
  | 0 :: rest => zeroRun rest + 1
  | _ => 0

-- Where the longest run of zeros starts and how long it is; the first of equally long ones.
def longestRun : List Nat → Nat × Nat
  | [] => (0, 0)
  | g :: gs =>
    let (start, size) := longestRun gs
    if size ≤ zeroRun (g :: gs) then (0, zeroRun (g :: gs)) else (start + 1, size)

def joinGroups (gs : List Nat) : List Char :=
  Text.join [':'] (gs.map (Nat.toDigits 16))

def compressed (gs : List Nat) : List Char :=
  let (start, size) := longestRun gs
  if size < 2 then joinGroups gs
  else joinGroups (gs.take start) ++ ':' :: ':' :: joinGroups (gs.drop (start + size))

def chars (a : Address) : List Char :=
  match Family.ofOctetCount? a.length with
  | some .v4 => dotted a.octets
  | some .v6 => compressed (groups a.octets)
  | none => '0' :: 'x' :: Text.hexOctets a.octets

def text (a : Address) : String :=
  String.ofList a.chars

end AddressSpace.Address
