import AddressSpace.FreeList

/-!
Allocators of addresses of one length. The length is given at the start, or fixed by the first
stretch that is added; addresses of another length are refused. An operation that is refused leaves
the allocator as it was.
-/

namespace AddressSpace

@[ext]
structure Allocator where
  octetCount : Option Number := none
  free : FreeList := []
  deriving DecidableEq, Repr, Inhabited

namespace Allocator

inductive Fault where
  | address (fault : Address.Fault)
  | lengths (got expected : Int)
  | unnamableLength (fault : Number.Fault)
  | overlong
  | reversed (range : Interval)
  | empty
  | short (free : Int)

namespace Fault

def message : Fault → Text
  | .address f => f.message
  | .lengths got expected =>
    Text.Template.render (fun name => .ofInt (if name = "got" then got else expected))
      Notice.lengthMismatch.template
  | .unnamableLength f => f.message
  | .overlong => Text.overlongMessage
  | .reversed i =>
    Text.Template.render (fun name => .text (if name = "start" then i.first.text else i.last.text))
      Notice.invalidRange.template
  | .empty => Notice.exhausted.withDetails "no free addresses"
  | .short free =>
    Notice.exhausted.withDetails s!"{free} free addresses, chunk needs {FreeList.blockSize}"

-- A source that is refused is named, unless it holds a number that is not written out.
def ofAddress (f : Address.Fault) : Fault :=
  if f.source.isOverlong then .overlong else .address f

end Fault

-- Tells whether an address lies between the bounds of a stretch; it must have their length.
def inside (i : Interval) (a : Address) : Except Fault Bool :=
  if a.length = i.first.length then .ok (i.spans a)
  else .error (.lengths a.length i.first.length)

def stretch (first last : Address.Source) : Except Fault Interval := do
  let first ← first.resolve.mapError .ofAddress
  let last ← last.resolve.mapError .ofAddress
  if first.length ≠ last.length then throw (.lengths last.length first.length)
  return { first, last }

-- Why an address of another length is refused. The fault names the whole part of the length that
-- is asked for, if there is one that can be written out.
def mismatch (got : Int) (expected : Number) : Fault :=
  match expected.truncate with
  | .ok whole => if Text.isOverlong whole then .overlong else .lengths got whole
  | .error f => .unnamableLength f

-- The address has the length that the allocator is fixed to, if it is fixed.
def accept (t : Allocator) (a : Address) : Except Fault Unit :=
  match t.octetCount with
  | none => .ok ()
  | some n => if n.toInt? = some a.length then .ok () else .error (mismatch a.length n)

def add (t : Allocator) (first last : Address.Source) : Except Fault Allocator := do
  let i ← stretch first last
  if i.last < i.first then throw (.reversed i)
  t.accept i.first
  return { octetCount := some (t.octetCount.getD (.int i.first.length)), free := t.free.add i }

-- A stretch is no longer free; tells whether any of it was. A stretch with its bounds in reverse is
-- empty.
def remove (t : Allocator) (first last : Address.Source) : Except Fault (Bool × Allocator) := do
  let i ← stretch first last
  if i.last < i.first then return (false, t)
  t.accept i.first
  return (t.free.overlaps i, { t with free := t.free.remove i })

def release (t : Allocator) (a : Address.Source) : Except Fault Allocator :=
  t.add a a

def take (t : Allocator) : Except Fault (Address × Allocator) :=
  match t.free.takeLowest? with
  | none => .error .empty
  | some (a, free) => .ok (a, { t with free })

-- At least 256 of the lowest free addresses are handed out, in stretches.
def takeBlock (t : Allocator) : Except Fault (List Interval × Allocator) := do
  if t.free.size < FreeList.blockSize then throw (.short t.free.size)
  let taken ← (FreeList.lowestBlock FreeList.blockSize t.free).mapError .address
  return (taken, { t with free := taken.foldl (fun free i => free.remove i) t.free })

def contains (t : Allocator) (a : Address.Source) : Except Fault Bool := do
  let a ← a.resolve.mapError .ofAddress
  t.accept a
  return t.free.covers a

/-! ### Runs -/

inductive Call where
  | add (first last : Address.Source)
  | remove (first last : Address.Source)
  | release (a : Address.Source)
  | take
  | takeBlock
  | freeList
  | freeCount
  | contains (a : Address.Source)

inductive Answer where
  | done
  | flag (b : Bool)
  | address (a : Address)
  | stretches (is : List Interval)
  | count (n : Int)
  deriving DecidableEq, Repr

def perform (t : Allocator) : Call → Except Fault (Answer × Allocator)
  | .add first last => (t.add first last).map (.done, ·)
  | .remove first last => (t.remove first last).map fun (b, t) => (.flag b, t)
  | .release a => (t.release a).map (.done, ·)
  | .take => t.take.map fun (a, t) => (.address a, t)
  | .takeBlock => t.takeBlock.map fun (is, t) => (.stretches is, t)
  | .freeList => .ok (.stretches t.free, t)
  | .freeCount => .ok (.count t.free.size, t)
  | .contains a => (t.contains a).map (.flag ·, t)

-- The allocator after a call; a call that fails leaves it as it is.
def after (t : Allocator) (c : Call) : Allocator :=
  match t.perform c with
  | .error _ => t
  | .ok (_, t) => t

def run (t : Allocator) (calls : List Call) : Allocator :=
  calls.foldl after t

end Allocator

end AddressSpace
