import AddressSpace.CommandLine.Transcript
import AddressSpace.Proofs.Loading.Reachable
import AddressSpace.Proofs.Notice

/-!
What a command prints itself, and the records that it issues. Both come in one order, and what becomes of the
records does not matter here: nothing depends on how the log is set up. The pools that a command works on are
sound, and loading them issues no record of the command.
-/

namespace AddressSpace

namespace Journal

def Printed.line? : Printed → Option Text
  | .line t => some t
  | .record _ => none

def Printed.record? : Printed → Option Record
  | .line _ => none
  | .record r => some r

theorem filterMap_line?_lines (ts : List Text) : (ts.map Printed.line).filterMap Printed.line? = ts := by
  induction ts
  case nil          => rfl
  case cons t ts hi => exact congrArg (t :: ·) hi

theorem filterMap_line?_records (rs : List Record) : (rs.map Printed.record).filterMap Printed.line? = [] := by
  induction rs
  case nil          => rfl
  case cons r rs hi => exact hi

theorem filterMap_record?_lines (ts : List Text) : (ts.map Printed.line).filterMap Printed.record? = [] := by
  induction ts
  case nil          => rfl
  case cons t ts hi => exact hi

theorem filterMap_record?_records (rs : List Record) :
    (rs.map Printed.record).filterMap Printed.record? = rs := by
  induction rs
  case nil          => rfl
  case cons r rs hi => exact congrArg (r :: ·) hi

end Journal

namespace Loading

variable {o : Outcome} {step : Step} {steps : List Step} {n : PoolName} {i : Interval} {source : String}

-- A step that issues no record of a command.
def Step.Quiet (step : Step) : Prop :=
  ∀ s, ∀ r ∈ (step s).log, r.origin ≠ .command

namespace Step.Quiet

theorem andThen (ho : ∀ r ∈ o.log, r.origin ≠ .command) (h : step.Quiet) :
    ∀ r ∈ (o.andThen step).log, r.origin ≠ .command := by
  cases hf : o.fault
  case some e => rwa [andThen_of_fault hf]
  case none =>
    simp only [Outcome.andThen, hf, List.forall_mem_append]
    exact ⟨ho, h o.pools⟩

theorem inOrder (h : ∀ step ∈ steps, step.Quiet) : (inOrder steps).Quiet := by
  induction steps <;> intro s
  case nil => exact nofun
  case cons step steps hi =>
    have ⟨h₁, h₂⟩ := List.forall_mem_cons.mp h
    exact andThen (h₁ s) (hi h₂)

theorem seed : (seed n i).Quiet := fun s => by
  simp only [Loading.seed]
  cases (s.get n).add (.octets i.first) (.octets i.last)
  case error e => exact List.forall_mem_nil _
  case ok p    => simp [Record.added, Record.seeded]

theorem entry {text : Text} : (entry n text).Quiet := fun s => by
  simp only [Loading.entry]
  cases Entry.read text
  case error e => exact List.forall_mem_nil _
  case ok i    => exact seed s

theorem range {r : Document.Range} : (range n r).Quiet := fun s => by
  simp only [Loading.range]
  cases stretch r
  case error e => exact List.forall_mem_nil _
  case ok i    => exact seed s

theorem report : (report source).Quiet := fun s r h => by
  have ⟨_, _, h⟩ := List.mem_map.mp h
  simp [← h, Record.loaded]

theorem document {input : Document.Input} : (document input).Quiet := fun s => by
  simp only [Loading.document]
  cases Document.read input
  case error r => cases r <;> exact List.forall_mem_nil _
  case ok d =>
    refine andThen (inOrder (fun step h => ?_) s) report
    obtain ⟨_, _, h⟩ := List.mem_flatMap.mp h
    obtain ⟨_, _, rfl⟩ := List.mem_map.mp h
    exact range

theorem documentFile {maxDepth : Nat} {files : Files} {p : Path} : (documentFile maxDepth files p).Quiet := fun s => by
  simp only [Loading.documentFile]
  cases readDocument maxDepth files p
  case error e  => exact List.forall_mem_nil _
  case ok input => exact document s

theorem settings {maxDepth : Nat} {files : Files} {c : Settings} : (settings maxDepth files c).Quiet := fun s => by
  refine andThen (inOrder (fun step h => ?_) s) ?_
  · obtain ⟨_, _, rfl⟩ := List.mem_map.mp h
    exact entry
  · cases c.documentPath
    case none      => exact report
    case some path => exact documentFile

end Step.Quiet

end Loading

namespace CommandLine

variable {π : Type}

namespace Transcript

-- What the command prints itself.
def lines (t : Transcript π) : List Text :=
  t.printed.filterMap Journal.Printed.line?

-- What it issues, with all that is issued on the way.
def records (t : Transcript π) : List Record :=
  t.printed.filterMap Journal.Printed.record?

end Transcript

-- What loading comes to: the settings fill empty pools, then a document adds to them, unless a file cannot be
-- read or the settings cannot be used.
inductive Arises (system : System π) : Loaded π → Prop
  | settings (plan : π) (c : Settings) :
    Arises system (.ofOutcome plan (Loading.settings system.maxDepth system.files c .empty))
  | document (plan : π) (c : Settings) (input : Document.Input) :
    Arises system (.ofOutcome plan
      ((Loading.settings system.maxDepth system.files c .empty).andThen (Loading.document input)))
  | unread (plan : π) (c : Settings) (f : Fault) :
    Arises system { pools := .error f, plan := some plan,
                    records := (Loading.settings system.maxDepth system.files c .empty).log }
  | unset (f : Fault) : Arises system { pools := .error f }

variable {system : System π} {s : Sources} {l : Loaded π} {pools : PoolSet}

namespace Arises

theorem reachable (h : Arises system l) (hp : l.pools = .ok pools) : pools.Reachable := by
  cases h <;> simp only [Loaded.ofOutcome] at hp
  case settings plan c =>
    split at hp <;> cases hp
    case h_2 => exact .settings system.maxDepth system.files c .empty
  case document plan c input =>
    split at hp <;> cases hp
    case h_2 hf =>
      cases ho : (Loading.settings system.maxDepth system.files c .empty).fault
      case some e => simp [Loading.andThen_of_fault ho, ho] at hf
      case none   =>
        exact Loading.pools_andThen ho ▸ .document input (.settings system.maxDepth system.files c .empty)
  case unread => cases hp
  case unset  => cases hp

theorem quiet (h : Arises system l) : ∀ r ∈ l.records, r.origin ≠ .command := by
  have hs (c : Settings) :
      ∀ r ∈ (Loading.settings system.maxDepth system.files c .empty).log, r.origin ≠ .command :=
    Loading.Step.Quiet.settings .empty
  cases h
  case settings plan c       => exact hs c
  case document plan c input => exact Loading.Step.Quiet.andThen (hs c) .document
  case unread plan c f       => exact hs c
  case unset                 => exact nofun

end Arises

theorem Sources.arises_load (system : System π) (s : Sources) : Arises system (s.load system) := by
  simp only [load, loadAssigned]
  split
  case isTrue => exact .unset _
  case isFalse =>
    split
    case h_1 => exact .unset _
    case h_2 =>
      split
      case h_1 => exact .unset _
      case h_2 =>
        split
        case h_1 =>
          split
          case h_1 => exact .unread _ _ _
          case h_2 => exact .document _ _ _
        case h_2 => exact .settings _ _

end CommandLine

end AddressSpace
