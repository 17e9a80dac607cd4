import AddressSpace.Document.Basic
import AddressSpace.Files
import AddressSpace.Journal
import AddressSpace.Settings.Basic
import AddressSpace.Settings.Entry

/-!
Pools filled from settings and documents. Loading goes step by step and stops at the first fault;
what the steps before it have added stays.
-/

namespace AddressSpace.Loading

inductive Fault where
  | entry (fault : Entry.Fault)
  | address (fault : Address.Fault)
  | seed (n : PoolName) (range : Interval) (fault : Allocator.Fault)
  | document (issues : List Document.Issue) (form : Document.Form)
  | unwritable (fault : Text.Utf8.WriteFault)
  | unnamable (fault : Path.Fault)
  | unreadable (path : Path) (fault : Files.Fault)
  | undecodable (fault : Text.Utf8.Fault)
  | notJson (path : Path)
  | overlong (path : Path) (digits : Nat)
  | tooDeep (c : Json.Container)

namespace Fault

def refusal : Text :=
  Notice.configuration.withDetails "Invalid pool document"

def ofJson (p : Path) : Json.Fault → Fault
  | .malformed => .notJson p
  | .overlong digits => .overlong p digits
  | .tooDeep c => .tooDeep c

def notJsonDetails (p : Path) : Text :=
  "Pool document " ++ p.text ++ " is not valid JSON"

def overlongDetails (digits : Nat) : String :=
  s!"Exceeds the limit ({Text.maxDigits} digits) for integer string conversion: value has " ++
    s!"{digits} digits; use sys.set_int_max_str_digits() to increase the limit"

def issueCount (n : Nat) : String :=
  if n = 1 then "1 validation error" else s!"{n} validation errors"

-- The first line of the message.
def message : Fault → Text
  | .entry f => f.message
  | .address f => f.message
  | .seed n i f =>
    Notice.configuration.withDetails (s!"Pool {n.text} range {i.text}: " ++ f.message)
  | .document issues _ => refusal ++ s!": {issueCount issues.length} for PoolDocument"
  | .unwritable f => f.message
  | .unnamable f => f.message
  | .unreadable p f =>
    Notice.configuration.withDetails
      ("Cannot read pool document " ++ p.text ++ ": " ++ f.message p.text)
  | .undecodable f => f.message
  | .notJson p => Notice.configuration.withDetails (notJsonDetails p)
  | .overlong p digits =>
    Notice.configuration.withDetails (notJsonDetails p ++ ": " ++ overlongDetails digits)
  | .tooDeep c =>
    s!"maximum recursion depth exceeded while decoding a JSON {c.text} from a unicode string"

end Fault

-- The pools after loading, what was logged on the way, and the fault that ended it early.
structure Outcome where
  pools : PoolSet
  log : List Record := []
  fault : Option Fault := none

abbrev Step :=
  PoolSet → Outcome

def Outcome.andThen (o : Outcome) (step : Step) : Outcome :=
  match o.fault with
  | some _ => o
  | none =>
    let next := step o.pools
    { next with log := o.log ++ next.log }

-- Steps in order, up to the first fault.
def inOrder : List Step → Step
  | [], s => { pools := s }
  | step :: rest, s => (step s).andThen (inOrder rest)

def seed (n : PoolName) (i : Interval) : Step := fun s =>
  match (s.get n).add (.octets i.first) (.octets i.last) with
  | .error f => { pools := s, fault := some (.seed n i f) }
  | .ok p =>
    let free := ((Family.ofOctetCount? i.first.length).map p.free).getD []
    { pools := s.set n p, log := [.added i free, .seeded n i] }

def entry (n : PoolName) (text : Text) : Step := fun s =>
  match Entry.read text with
  | .error f => { pools := s, fault := some (.entry f) }
  | .ok i => seed n i s

def stretch (r : Document.Range) : Except Address.Fault Interval := do
  let first ← (Address.Source.text r.first).resolve
  let last ← (Address.Source.text r.last).resolve
  return { first, last }

def range (n : PoolName) (r : Document.Range) : Step := fun s =>
  match stretch r with
  | .error f => { pools := s, fault := some (.address f) }
  | .ok i => seed n i s

def report (source : String) : Step := fun s =>
  { pools := s, log := s.toList.map fun (n, p) => .loaded source n p }

-- A document is checked as a whole before its ranges become free.
def document (input : Document.Input) : Step := fun s =>
  match Document.read input with
  | .error (.issues issues) => { pools := s, fault := some (.document issues input.form) }
  | .error (.unwritable f) => { pools := s, fault := some (.unwritable f) }
  | .ok d =>
    let ranges := d.toList.flatMap fun (n, rs) => rs.map (range n)
    (inOrder ranges s).andThen (report "document")

-- What the file under a path holds. How deep it may nest is left to the caller.
def readDocument (maxDepth : Nat) (files : Files) (p : Path) : Except Fault Document.Input :=
  match Path.fault? p.text with
  | some f => .error (.unnamable f)
  | none => do
    let octets ← (files p).mapError (.unreadable p)
    let cs ← (Text.Utf8.decode octets).mapError .undecodable
    let v ← (Json.read (.lenient maxDepth) cs).mapError (.ofJson p)
    return .ofJson v

def documentFile (maxDepth : Nat) (files : Files) (p : Path) : Step := fun s =>
  match readDocument maxDepth files p with
  | .error f => { pools := s, fault := some f }
  | .ok input => document input s

-- The entries of the settings, and then their document.
def settings (maxDepth : Nat) (files : Files) (c : Settings) : Step := fun s =>
  (inOrder (c.allEntries.map fun (n, text) => entry n text) s).andThen <|
    match c.documentPath with
    | none => report "configuration"
    | some path => documentFile maxDepth files (.ofText path)

-- The pools that a step fills from nothing.
def fresh (step : Step) : Except Fault PoolSet :=
  let o := step .empty
  match o.fault with
  | some f => .error f
  | none => .ok o.pools

end AddressSpace.Loading
