import AddressSpace.Allocator
import AddressSpace.PerPool

/-!
Pools, with one allocator for each family of addresses, and the set of all pools. A call on a pool
reaches the allocator of the family that it names, or of the family that its addresses belong to.
-/

namespace AddressSpace

@[ext]
structure Pool where
  v4 : Allocator
  v6 : Allocator
  deriving DecidableEq, Repr

namespace Pool

def empty : Pool :=
  { v4 := { octetCount := some (.int 4) }, v6 := { octetCount := some (.int 16) } }

def allocator (p : Pool) : Family → Allocator
  | .v4 => p.v4
  | .v6 => p.v6

def setAllocator (p : Pool) : Family → Allocator → Pool
  | .v4, t => { p with v4 := t }
  | .v6, t => { p with v6 := t }

theorem allocator_setAllocator (p : Pool) (f g : Family) (t : Allocator) :
    (p.setAllocator f t).allocator g = if g = f then t else p.allocator g := by
  cases f <;> cases g <;> rfl

def free (p : Pool) (f : Family) : FreeList :=
  (p.allocator f).free

def isEmpty (p : Pool) : Bool :=
  (p.free .v4).size == 0 && (p.free .v6).size == 0

inductive Fault where
  | allocator (fault : Allocator.Fault)
  | family (shown : Text)
  | overlong
  | notKey (kind : String)

def Fault.message : Fault → Text
  | .allocator f => f.message
  | .family shown => "Unsupported address family " ++ shown ++ ", must be 4 or 6"
  | .overlong => Text.overlongMessage
  | .notKey kind => s!"unhashable type: '{kind}'"

-- The family that a caller names by its number. Lists and objects cannot even be looked up.
def family (v : Json) : Except Fault Family :=
  match v with
  | .arr _ | .obj _ => .error (.notKey v.kindName)
  | _ =>
    match v.toInt?.bind Family.ofNumber? with
    | some f => .ok f
    | none => .error (if v.isOverlong then .overlong else .family v.plain)

-- The stretch between two sources and the family that it belongs to.
def route (first last : Address.Source) : Except Allocator.Fault (Family × Interval) := do
  let i ← Allocator.stretch first last
  match Family.ofOctetCount? i.first.length with
  | some f => return (f, i)
  | none => throw (.address ⟨.octets i.first, .noFamily⟩)

def add (p : Pool) (first last : Address.Source) : Except Allocator.Fault Pool := do
  let (f, i) ← route first last
  let t ← (p.allocator f).add (.octets i.first) (.octets i.last)
  return p.setAllocator f t

def remove (p : Pool) (first last : Address.Source) : Except Allocator.Fault (Bool × Pool) := do
  let (f, i) ← route first last
  let (b, t) ← (p.allocator f).remove (.octets i.first) (.octets i.last)
  return (b, p.setAllocator f t)

/-! ### Runs -/

-- Calls name a family by its number; the other calls find it from their addresses.
inductive Call where
  | add (first last : Address.Source)
  | remove (first last : Address.Source)
  | release (a : Address.Source)
  | onFamily (family : Json) (call : Allocator.Call)

def perform (p : Pool) : Call → Except Fault (Allocator.Answer × Pool)
  | .add first last => ((p.add first last).map (.done, ·)).mapError .allocator
  | .remove first last =>
    ((p.remove first last).map fun (b, p) => (.flag b, p)).mapError .allocator
  | .release a => ((p.add a a).map (.done, ·)).mapError .allocator
  | .onFamily v call => do
    let f ← family v
    let (answer, t) ← ((p.allocator f).perform call).mapError .allocator
    return (answer, p.setAllocator f t)

end Pool

abbrev PoolSet := PerPool Pool

namespace PoolSet

def empty : PoolSet :=
  .ofFn fun _ => .empty

inductive Fault where
  | pool (fault : Pool.Fault)
  | unknown (name : Text)

namespace Fault

def message : Fault → Text
  | .pool f => f.message
  | .unknown name => Notice.unknownPool.withDetails name

end Fault

def named (name : Text) : Except Fault PoolName :=
  match PoolName.ofText? name with
  | some n => .ok n
  | none => .error (.unknown name)

def perform (s : PoolSet) (name : Text) (call : Pool.Call) :
    Except Fault (Allocator.Answer × PoolSet) := do
  let n ← named name
  let (answer, p) ← ((s.get n).perform call).mapError .pool
  return (answer, s.set n p)

end PoolSet

end AddressSpace
