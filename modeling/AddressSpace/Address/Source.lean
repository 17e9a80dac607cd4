import AddressSpace.Address.Host
import AddressSpace.Json.Basic
import AddressSpace.Notice

/-!
What a caller may hand over where an address is wanted, the address that it stands for, and the
reasons why it stands for none.
-/

namespace AddressSpace.Address

inductive Source where
  | octets (a : Address)
  | buffer (a : Address)
  | host (h : Host)
  | text (t : Text)
  | other (v : Json)
  deriving Inhabited

namespace Source

def quoted : Source → Text
  | .octets a => Text.quotedOctets a.octets
  | .buffer a => "bytearray(" ++ Text.quotedOctets a.octets ++ ")"
  | .host h => Text.quotedOctets h.address.octets
  | .text t => Text.quoted t
  | .other v => v.quoted

def kind : Source → String
  | .octets _ | .host _ => "bytes"
  | .buffer _ => "bytearray"
  | .text _ => "str"
  | .other v => v.kindName

-- Whether nothing can name the source.
def isOverlong : Source → Bool
  | .other v => v.isOverlong
  | _ => false

end Source

inductive Reason where
  | empty
  | unparsable (trimmed : Text)
  | unsupported (kind : String)
  | outOfSpace (places : Int)
  | noFamily
  deriving DecidableEq, Repr

def Reason.message : Reason → Text
  | .empty => "empty address"
  | .unparsable trimmed => Text.quoted trimmed ++ " does not appear to be an IPv4 or IPv6 address"
  | .unsupported kind => "unsupported type " ++ kind
  | .outOfSpace places => "offset " ++ toString places ++ " overflows address space"
  | .noFamily => "not an IPv4 or IPv6 address"

structure Fault where
  source : Source
  reason : Reason

namespace Fault

def field (f : Fault) (name : Text) : Text.Field :=
  if name = "address" then .other f.source.kind f.source.quoted none else .text f.reason.message

def message (f : Fault) : Text :=
  Text.Template.render f.field Notice.invalidAddress.template

end Fault

namespace Source

-- Octets and hosts stand for themselves, as long as there are any octets; text stands for the host
-- that it spells, blanks around it aside.
def resolve (s : Source) : Except Fault Address :=
  match s with
  | .octets a | .buffer a => if a.octets = [] then .error ⟨s, .empty⟩ else .ok a
  | .host h => .ok h.address
  | .text t =>
    match Host.ofText? (Text.trim t) with
    | some h => .ok h.address
    | none => .error ⟨s, .unparsable (Text.trim t)⟩
  | .other v => .error ⟨s, .unsupported v.kindName⟩

end Source

def shift (a : Address) (places : Int) : Except Fault Address :=
  match a.shift? places with
  | some b => .ok b
  | none => .error ⟨.octets a, .outOfSpace places⟩

-- Why a jump is refused. The fault names the places of the jump, and so there is none where they make
-- a number that is too long to be written out.
inductive Refusal where
  | fault (f : Fault)
  | overlong

def Refusal.message : Refusal → Text
  | .fault f => f.message
  | .overlong => Text.overlongMessage

-- A shift, with the refusal that a caller gets to see.
def jump (a : Address) (places : Int) : Except Refusal Address :=
  (a.shift places).mapError fun f => if Text.isOverlong places then .overlong else .fault f

end AddressSpace.Address
