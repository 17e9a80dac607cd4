import AddressSpace.CommandLine.Sources
import AddressSpace.Text.Control

/-!
What a command line answers: the exit status, the lines that it prints, and the records that it
issues. Nothing that is handed out is kept. An error shows what the arguments and files hold, so it is
printed without the control sequences that may stand in them.
-/

namespace AddressSpace.CommandLine

-- Lines and records come in one order. What becomes of the records is said by the plan, if the log is
-- planned.
structure Transcript (π : Type) where
  status : Nat
  printed : List Journal.Printed := []
  error : Option Text := none
  plan : Option π := none
  deriving DecidableEq, Repr

-- All that is seen of the output, lines and records alike.
def Transcript.output (t : Transcript Journal.Plan) (around : Nat → Journal.Surroundings) : List Text :=
  (t.plan.getD {}).output around t.printed

variable {π : Type}

-- A remark stands by itself; a fault is an error of what was done.
def Fault.report (doing : Text) (f : Fault) : Text :=
  match f with
  | .log (.remark t) => t
  | _ => Text.legible ("Error " ++ doing ++ ": " ++ f.message)

def Transcript.failed (doing : Text) (f : Fault) (printed : List Journal.Printed)
    (plan : Option π) : Transcript π :=
  { status := 1, printed, error := some (f.report doing), plan }

-- One line for each family of a pool that has free addresses.
def freeLines (n : PoolName) (p : Pool) : List Text :=
  (Family.all.filter fun f => !(p.free f).isEmpty).map fun f =>
    s!"{n.text} ipv{f.number} free={(p.free f).size} ranges={Interval.listed (p.free f)}"

def showLines (s : PoolSet) : List Text :=
  let filled := s.toList.filter fun (_, p) => !p.isEmpty
  if filled = [] then ["No pools configured"] else filled.flatMap fun (n, p) => freeLines n p

def Loaded.printed (l : Loaded π) : List Journal.Printed :=
  l.records.map .record

def runShow (system : System π) (s : Sources) : Transcript π :=
  let loaded := s.load system
  match loaded.pools with
  | .error f => .failed "loading pools" f loaded.printed loaded.plan
  | .ok pools =>
    { status := 0, printed := loaded.printed ++ (showLines pools).map .line, plan := loaded.plan }

/-! ### Handing out -/

structure HandOut where
  line : String
  size : Int
  taken : List Record
  told : Record

def HandOut.printed (h : HandOut) : List Journal.Printed :=
  h.taken.map .record ++ [.line h.line, .record h.told]

def handOut (n : PoolName) (a : Allocation) (p : Pool) : Except Pool.Fault (HandOut × Pool) := do
  let f ← Pool.family (.number (.int a.family))
  let t := p.allocator f
  if a.blocks then
    let (is, after) ← t.takeBlock.mapError .allocator
    let text := Interval.listed is
    let taken := Record.removals t.free is ++ [.tookBlock is]
    return (⟨s!"  chunk: {text}", FreeList.size is, taken, .handedOut text n⟩,
      p.setAllocator f after)
  else
    let (x, after) ← t.take.mapError .allocator
    return (⟨s!"  ip: {x.text}", 1, [.tookAddress x], .handedOut x.text n⟩, p.setAllocator f after)

-- Allocations one after the other. Those in front of a fault still count.
def handOuts (n : PoolName) (a : Allocation) :
    Nat → Pool → List HandOut × Except Pool.Fault Pool
  | 0, p => ([], .ok p)
  | count + 1, p =>
    match handOut n a p with
    | .error f => ([], .error f)
    | .ok (h, p) =>
      let (hs, rest) := handOuts n a count p
      (h :: hs, rest)

def runAllocate (system : System π) (a : Allocation) : Transcript π :=
  let doing := "allocating from pool " ++ a.pool
  let loaded := a.sources.load system
  match loaded.pools with
  | .error f => .failed doing f loaded.printed loaded.plan
  | .ok pools =>
    match PoolSet.named a.pool with
    | .error f => .failed doing (.pool f) loaded.printed loaded.plan
    | .ok n =>
      let (hs, rest) := handOuts n a a.count.toNat (pools.get n)
      let printed := loaded.printed ++ .line ("Allocating from pool: " ++ a.pool) ::
        hs.flatMap HandOut.printed
      match rest with
      | .error f => .failed doing (.pool (.pool f)) printed loaded.plan
      | .ok p =>
        let total := hs.foldl (fun n h => n + h.size) 0
        let summary := s!"Allocated {total} addresses from pool " ++ a.pool ++ s!" (ipv{a.family})"
        { status := 0
          printed := printed ++ (summary :: freeLines n p).map .line
          plan := loaded.plan }

/-! ### Commands -/

def version : String := "ipam-engine 0.1.0"

def runCommand (system : System π) : Command → Transcript π
  | .version => { status := 0, printed := [.line version] }
  | .help => { status := 0 }
  | .show s => runShow system s
  | .allocate a => runAllocate system a

-- The answer to the arguments of a command line, unless a path among them stops the program.
def run (system : System π) (args : List Text) : Except Path.Fault (Transcript π) :=
  match Command.ofArguments args with
  | .error (.path f) => .error f
  | .error (.usage r) => .ok { status := 2, error := some (Text.legible ("Error: " ++ r.message)) }
  | .ok c => .ok (runCommand system c)

-- The paths that a command line reads, as far as the files read so far tell.
def paths (files : Files) (args : List Text) : List Path :=
  match Command.ofArguments args with
  | .ok (.show s) => s.paths files
  | .ok (.allocate a) => a.sources.paths files
  | _ => []

end AddressSpace.CommandLine
