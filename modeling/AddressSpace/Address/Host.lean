import AddressSpace.Address.Basic
import AddressSpace.Family
import AddressSpace.Text.Digits
import AddressSpace.Text.Separated

/-!
Host addresses as people write them. An IPv4 address is four decimal numbers below 256 without
leading zeros between dots. An IPv6 address is eight hexadecimal groups between colons; `::` stands
for one or more groups of zero, the last two groups may be written as an IPv4 address, and a scope
may follow behind a percent sign.
-/

namespace AddressSpace

structure Host where
  family : Family
  address : Address
  scope : Option Text := none
  deriving DecidableEq, Repr

namespace Host

-- A decimal number below 256, without leading zeros.
def octet? (cs : List Char) : Option UInt8 := do
  let digits ← cs.mapM Text.digit?
  let n := Text.ofDigits 10 digits
  if digits = [] ∨ 3 < digits.length ∨ (digits.head? = some 0 ∧ digits ≠ [0]) ∨ 255 < n then none
  else return UInt8.ofNat n

def dotted? (cs : List Char) : Option (List UInt8) := do
  let octets ← (Text.split '.' cs).mapM octet?
  if octets.length = 4 then return octets else none

-- One to four hexadecimal digits, as two octets.
def group? (cs : List Char) : Option (List UInt8) := do
  let digits ← cs.mapM Text.hexDigit?
  if digits = [] ∨ 4 < digits.length then none
  else
    let n := Text.ofDigits 16 digits
    return [UInt8.ofNat (n / 256), UInt8.ofNat n]

-- The octets of groups between colons, the last of which may be written with dots.
def tail? : List (List Char) → Option (List UInt8)
  | [] => some []
  | [part] => if part.contains '.' then dotted? part else group? part
  | part :: parts => do return (← group? part) ++ (← tail? parts)

-- The octets of groups between colons, all of them hexadecimal.
def head? (parts : List (List Char)) : Option (List UInt8) :=
  (parts.mapM group?).map List.flatten

-- The text on either side of the first double colon.
def atDoubleColon? : List Char → Option (List Char × List Char)
  | ':' :: ':' :: rest => some ([], rest)
  | c :: rest => (atDoubleColon? rest).map fun (before, after) => (c :: before, after)
  | [] => none

-- The groups of a side of a double colon; an empty side has none.
def sideParts (cs : List Char) : List (List Char) :=
  if cs = [] then [] else Text.split ':' cs

def coloned? (cs : List Char) : Option (List UInt8) := do
  match atDoubleColon? cs with
  | none =>
    let octets ← tail? (Text.split ':' cs)
    if octets.length = 16 then return octets else none
  | some (before, after) =>
    -- A second double colon shows as an empty group behind the first one, and is refused.
    let high ← head? (sideParts before)
    let low ← tail? (sideParts after)
    if high.length + low.length < 16 then
      return high ++ List.replicate (16 - (high.length + low.length)) 0 ++ low
    else none

def ofChars? (cs : List Char) : Option Host :=
  match dotted? cs with
  | some octets => some { family := .v4, address := ⟨octets⟩ }
  | none => (coloned? cs).map fun octets => { family := .v6, address := ⟨octets⟩ }

-- Only IPv6 addresses have a scope, which may neither be empty nor hold a second percent sign.
def ofText? (t : Text) : Option Host :=
  if .char '/' ∈ t then none
  else do
    let (body, scope) := Text.cut (.char '%') t
    let cs ← Text.chars? body
    match scope with
    | none => ofChars? cs
    | some scope =>
      if scope = [] ∨ .char '%' ∈ scope then none
      else (coloned? cs).map fun octets => { family := .v6, address := ⟨octets⟩, scope }

-- Two addresses of one family are in order if the first is below the second, or both are the same
-- address of the same scope.
def inOrder (a b : Host) : Bool :=
  decide (a.address < b.address) || decide (a.address = b.address ∧ a.scope = b.scope)

end Host

end AddressSpace
