import AddressSpace.Address.Source
import AddressSpace.Interval

/-!
Free lists: the free addresses of one length as stretches in ascending order, with a gap between
neighbours. The operations keep a list canonical, so equal sets of addresses have equal lists.
-/

namespace AddressSpace

abbrev FreeList := List Interval

namespace FreeList

-- Stretches of one length in ascending order, none of which overlaps or meets another.
structure Canonical (octetCount : Nat) (l : FreeList) : Prop where
  proper : ∀ i ∈ l, i.first.length = octetCount ∧ i.Proper
  apart : l.Pairwise fun i j => i.last.value + 1 < j.first.value

def covers (l : FreeList) (a : Address) : Bool :=
  l.any (·.spans a)

def size : FreeList → Int
  | [] => 0
  | i :: rest => i.size + size rest

-- A stretch is put at its place, and takes in every stretch that it overlaps or meets.
def add (new : Interval) : FreeList → FreeList
  | [] => [new]
  | i :: rest =>
    if i.last.isShortOf new.first then i :: add new rest
    else if new.last.isShortOf i.first then new :: i :: rest
    -- What is taken in may reach further than the new stretch did.
    else add (new.hull i) rest

def remove (cut : Interval) (l : FreeList) : FreeList :=
  l.flatMap (·.minus cut)

-- Taking the stretch out changes the list.
def overlaps (l : FreeList) (cut : Interval) : Bool :=
  l.any (·.overlaps cut)

def takeLowest? : FreeList → Option (Address × FreeList)
  | [] => none
  | i :: rest =>
    if i.first = i.last then some (i.first, rest)
    else some (i.first, { first := i.first.next.1, last := i.last } :: rest)

-- How many addresses a block has at least.
def blockSize : Int := 256

-- The last address to take from a stretch that holds the `needed` addresses a block still lacks.
-- It is the address that completes the block; if the one above it is left over and opens no block of
-- 256, the rest of its block is taken too, as far as the stretch goes.
def cutPoint (i : Interval) (needed : Int) : Except Address.Fault Address := do
  let stop ← i.first.shift (needed - 1)
  if stop < i.last ∧ !stop.next.1.opensBlock then return Address.lower stop.blockEnd i.last
  else return stop

-- The stretches that make up a block, from the lowest upward, when `needed` addresses are still
-- lacking: whole ones until one can complete the block.
def lowestBlock (needed : Int) : FreeList → Except Address.Fault (List Interval)
  | [] => .ok []
  | i :: rest =>
    if i.size < needed then do
      let more ← lowestBlock (needed - i.size) rest
      return i :: more
    else do
      let stop ← cutPoint i needed
      return [{ first := i.first, last := stop }]

end FreeList

end AddressSpace
