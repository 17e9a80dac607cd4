import AddressSpace.Text.Quoted

/-!
UTF-8 read one octet at a time, with the place and the kind of the first fault. A file that is read
in blocks counts places from the start of the block, or from the start of a character that the
block before it left open. Text can be written as UTF-8 unless a surrogate stands alone in it.
-/

namespace AddressSpace.Text.Utf8

inductive Reason where
  | start
  | continuation
  | truncated
  deriving DecidableEq, Repr

def Reason.message : Reason → String
  | .start => "invalid start byte"
  | .continuation => "invalid continuation byte"
  | .truncated => "unexpected end of data"

-- The first octets that spell no character: how many, from which place, and why.
structure Fault where
  place : Nat
  width : Nat
  octet : UInt8
  reason : Reason
  deriving DecidableEq, Repr

def Fault.message (f : Fault) : String :=
  let octets :=
    if f.width = 1 then s!"byte 0x{String.ofList (padded 16 2 f.octet.toNat)} in position {f.place}"
    else s!"bytes in position {f.place}-{f.place + f.width - 1}"
  s!"'utf-8' codec can't decode {octets}: {f.reason.message}"

-- A character of which some octets were read: its first octet, the number of octets read and
-- still owed, the bounds of the next octet and the bits so far.
structure Pending where
  octet : UInt8
  width : Nat
  owed : Nat
  low : Nat
  high : Nat
  bits : Nat
  deriving DecidableEq, Repr

-- What a first octet opens: a character of its own, or one with further octets.
def opened (x : UInt8) : Option (Char ⊕ Pending) :=
  let n := x.toNat
  if n ≤ 0x7f then some (.inl (Char.ofNat n))
  else if n < 0xc2 then none
  else if n ≤ 0xdf then some (.inr ⟨x, 1, 1, 0x80, 0xbf, n - 0xc0⟩)
  else if n = 0xe0 then some (.inr ⟨x, 1, 2, 0xa0, 0xbf, 0⟩)
  else if n = 0xed then some (.inr ⟨x, 1, 2, 0x80, 0x9f, 0xd⟩)
  else if n ≤ 0xef then some (.inr ⟨x, 1, 2, 0x80, 0xbf, n - 0xe0⟩)
  else if n = 0xf0 then some (.inr ⟨x, 1, 3, 0x90, 0xbf, 0⟩)
  else if n ≤ 0xf3 then some (.inr ⟨x, 1, 3, 0x80, 0xbf, n - 0xf0⟩)
  else if n = 0xf4 then some (.inr ⟨x, 1, 3, 0x80, 0x8f, 4⟩)
  else none

-- A pending character after one more octet, which must lie within the bounds.
def Pending.next (p : Pending) (x : UInt8) : Option (Char ⊕ Pending) :=
  let n := x.toNat
  if p.low ≤ n ∧ n ≤ p.high then
    let bits := p.bits * 64 + (n - 0x80)
    if p.owed ≤ 1 then some (.inl (Char.ofNat bits))
    else some (.inr ⟨p.octet, p.width + 1, p.owed - 1, 0x80, 0xbf, bits⟩)
  else none

-- The characters before the first fault, and the fault or the character left open. The place is
-- that of the next octet.
def scan (place : Nat) : Option Pending → List UInt8 → List Char × Except Fault (Option Pending)
  | left?, [] => ([], .ok left?)
  | none, x :: xs =>
    match opened x with
    | none => ([], .error ⟨place, 1, x, .start⟩)
    | some (.inr p) => scan (place + 1) (some p) xs
    | some (.inl c) =>
      let (cs, r) := scan (place + 1) none xs
      (c :: cs, r)
  | some p, x :: xs =>
    match p.next x with
    | none => ([], .error ⟨place - p.width, p.width, p.octet, .continuation⟩)
    | some (.inr q) => scan (place + 1) (some q) xs
    | some (.inl c) =>
      let (cs, r) := scan (place + 1) none xs
      (c :: cs, r)

def decode (xs : List UInt8) : Except Fault (List Char) :=
  match scan 0 none xs with
  | (_, .error f) => .error f
  | (cs, .ok none) => .ok cs
  | (_, .ok (some p)) => .error ⟨xs.length - p.width, p.width, p.octet, .truncated⟩

-- The blocks of a file, all of one size but the last.
def blocks (size : Nat) (xs : List UInt8) : List (List UInt8) :=
  if _h : size = 0 ∨ xs = [] then []
  else xs.take size :: blocks size (xs.drop size)
termination_by xs.length
decreasing_by
  have : xs.length ≠ 0 := fun e => _h (.inr (List.eq_nil_of_length_eq_zero e))
  simp only [List.length_drop]
  omega

-- The characters of a file that is read block by block. A block with a fault in it gives none, so
-- what comes back are the characters of the blocks before it.
def decodeBlocks : Option Pending → List (List UInt8) → List Char × Option Fault
  | none, [] => ([], none)
  | some p, [] => ([], some ⟨0, p.width, p.octet, .truncated⟩)
  | left?, block :: rest =>
    match scan ((left?.map Pending.width).getD 0) left? block with
    | (_, .error f) => ([], some f)
    | (cs, .ok next?) =>
      let (more, f?) := decodeBlocks next? rest
      (cs ++ more, f?)

/-! ### Writing -/

-- Surrogates that UTF-8 has no octets for: how many, from which place, and the first of them.
structure WriteFault where
  place : Nat
  width : Nat
  first : Fin 0x800
  deriving DecidableEq, Repr

def WriteFault.message (f : WriteFault) : String :=
  let points :=
    if f.width = 1 then
      let escape := String.ofList (numericEscape (CodePoint.half f.first).toNat)
      s!"character '{escape}' in position {f.place}"
    else s!"characters in position {f.place}-{f.place + f.width - 1}"
  s!"'utf-8' codec can't encode {points}: surrogates not allowed"

-- The first surrogate that cannot be written, with those that follow it. Some surrogates may be let
-- through, because they stand for an octet each.
def writeFaultFrom (place : Nat) (through : Fin 0x800 → Bool) : Text → Option WriteFault
  | [] => none
  | .char _ :: rest => writeFaultFrom (place + 1) through rest
  | .half n :: rest =>
    if through n then writeFaultFrom (place + 1) through rest
    else some ⟨place, 1 + (rest.takeWhile CodePoint.isHalf).length, n⟩

def writeFault? (t : Text) : Option WriteFault :=
  writeFaultFrom 0 (fun _ => false) t

-- The surrogates from `0xdc80` to `0xdcff` stand for octets in the names of files.
def standsForOctet (n : Fin 0x800) : Bool :=
  decide (0x480 ≤ n.val) && decide (n.val < 0x500)

def nameFault? (t : Text) : Option WriteFault :=
  writeFaultFrom 0 standsForOctet t

-- How many octets the name of a file has.
def nameSize (t : Text) : Nat :=
  t.foldl (fun size c =>
    size + match c with
      | .char c => c.utf8Size
      | .half _ => 1) 0

end AddressSpace.Text.Utf8
