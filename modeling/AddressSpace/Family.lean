/-!
The two families of IP addresses.
-/

namespace AddressSpace

inductive Family where
  | v4
  | v6
  deriving DecidableEq, Repr, Inhabited

namespace Family

def all : List Family :=
  [.v4, .v6]

def number : Family → Nat
  | .v4 => 4
  | .v6 => 6

def octetCount : Family → Nat
  | .v4 => 4
  | .v6 => 16

def ofNumber? (n : Int) : Option Family :=
  all.find? fun f => decide ((f.number : Int) = n)

def ofOctetCount? (n : Nat) : Option Family :=
  all.find? fun f => decide (f.octetCount = n)

end Family

end AddressSpace
