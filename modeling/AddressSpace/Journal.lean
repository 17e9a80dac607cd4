import AddressSpace.Pool

/-!
Log records of what happens to the pools.
-/

namespace AddressSpace

inductive Level where
  | debug
  | info
  deriving DecidableEq, Repr

def Level.text : Level → String
  | .debug => "DEBUG"
  | .info => "INFO"

-- The greater the number, the more a record matters.
def Level.number : Level → Int
  | .debug => 10
  | .info => 20

inductive Origin where
  | allocator
  | pools
  | command
  deriving DecidableEq, Repr

def Origin.text : Origin → String
  | .allocator => "ipam_engine.allocator"
  | .pools => "ipam_engine.pools"
  | .command => "ipam_engine.cli.commands.pool"

def Origin.part : Origin → String
  | .allocator => "allocator"
  | .pools => "pools"
  | .command => "pool"

-- The names of what stands around an origin, from the inside out.
def Origin.around : Origin → List String
  | .allocator | .pools => ["ipam_engine"]
  | .command => ["ipam_engine.cli.commands", "ipam_engine.cli", "ipam_engine"]

structure Record where
  level : Level
  origin : Origin
  message : String
  deriving DecidableEq, Repr

namespace Record

def text (r : Record) : String :=
  s!"{r.level.text} {r.origin.text} {r.message}"

-- A stretch was added; `free` is the list after that.
def added (i : Interval) (free : FreeList) : Record :=
  ⟨.debug, .allocator, s!"Added range {i.text}, free list has {free.length} ranges"⟩

def removed (i : Interval) (free : FreeList) : Record :=
  ⟨.debug, .allocator, s!"Removed range {i.text}, free list has {free.length} ranges"⟩

def tookAddress (a : Address) : Record :=
  ⟨.debug, .allocator, s!"Allocated address {a.text}"⟩

def tookBlock (is : List Interval) : Record :=
  ⟨.debug, .allocator,
    s!"Allocated chunk of {FreeList.size is} addresses: {Interval.listed is}"⟩

-- The stretches of a block are removed one after the other.
def removals (free : FreeList) : List Interval → List Record
  | [] => []
  | i :: rest => removed i (free.remove i) :: removals (free.remove i) rest

def seeded (n : PoolName) (i : Interval) : Record :=
  ⟨.debug, .pools, s!"Seeded pool {n.text} with {i.text}"⟩

def loaded (source : String) (n : PoolName) (p : Pool) : Record :=
  ⟨.info, .pools, s!"Pool {n.text} loaded from {source}: " ++
    s!"{(p.free .v4).size} IPv4 and {(p.free .v6).size} IPv6 free addresses"⟩

def handedOut (what : String) (n : PoolName) : Record :=
  ⟨.info, .command, s!"Dry-run allocated {what} from pool {n.text}"⟩

end Record

end AddressSpace
