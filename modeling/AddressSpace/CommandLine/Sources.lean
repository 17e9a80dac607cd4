import AddressSpace.CommandLine.Command
import AddressSpace.CommandLine.System
import AddressSpace.Loading

/-!
The pools that a command works on, loaded from the settings file and the document that the command
line names. Values in a settings file are assumed to refer to no other option by a dollar sign and
a name, since they are taken as they stand.
-/

namespace AddressSpace.CommandLine

inductive Fault where
  | noSource
  | noSettings (path : Path)
  | unreadable (path : Path) (fault : Files.Fault)
  | malformed (path : Path)
  | undecodable (fault : Text.Utf8.Fault)
  | log (fault : LogFault)
  | loading (fault : Loading.Fault)
  | pool (fault : PoolSet.Fault)

def Fault.message : Fault → Text
  | .noSource => "Either --document or --config-file is required"
  | .noSettings p => "Failed to find some config files: " ++ p.text
  | .unreadable p f => f.message p.text
  | .malformed p => "Failed to parse " ++ p.text
  | .undecodable f => f.message
  | .log f => f.message
  | .loading f => f.message
  | .pool f => f.message

def readSettings (files : Files) (p : Path) : Except Fault (List Ini.Assignment) :=
  match files p with
  | .error .missing => .error (.noSettings p)
  | .error f => .error (.unreadable p f)
  | .ok octets =>
    (Ini.parse octets).mapError fun
      | .malformed => .malformed p
      | .undecodable f => .undecodable f

def readText (files : Files) (p : Path) : Except Fault Text :=
  match files p with
  | .error f => .error (.unreadable p f)
  | .ok octets =>
    match Text.Utf8.decode octets with
    | .error f => .error (.undecodable f)
    | .ok cs => .ok (.ofChars cs)

variable {π : Type}

-- What comes of loading, with all records that are issued on the way. Where the log is not planned,
-- there are none.
structure Loaded (π : Type) where
  pools : Except Fault PoolSet
  plan : Option π := none
  records : List Record := []

def Loaded.ofOutcome (plan : π) (o : Loading.Outcome) : Loaded π :=
  let pools :=
    match o.fault with
    | some f => .error (.loading f)
    | none => .ok o.pools
  { pools, plan := some plan, records := o.log }

namespace Sources

def settingsPath (s : Sources) : Option Path :=
  s.configFile.map fun path => (Path.ofText path).collapsed

def documentPath (s : Sources) : Option Path :=
  s.document.map Path.ofText

def assignments (files : Files) (s : Sources) : Except Fault (List Ini.Assignment) :=
  match s.settingsPath with
  | none => .ok []
  | some p => readSettings files p

-- The log is planned before any pool is filled. The document is read only if the settings were loaded
-- well.
def loadAssigned (system : System π) (s : Sources) (assignments : List Ini.Assignment) : Loaded π :=
  match system.planLog assignments ((s.settingsPath.map Path.text).getD []) with
  | .error f => { pools := .error (.log f) }
  | .ok plan =>
    let c := Settings.ofAssignments Settings.defaultGroup assignments
    let o := Loading.settings system.maxDepth system.files c .empty
    match o.fault, s.documentPath with
    | none, some p =>
      match readText system.files p with
      | .error f => { pools := .error f, plan := some plan, records := o.log }
      | .ok text => .ofOutcome plan (o.andThen (Loading.document (.text text)))
    | _, _ => .ofOutcome plan o

def load (system : System π) (s : Sources) : Loaded π :=
  if s.document = none ∧ s.configFile = none then { pools := .error .noSource }
  else
    match s.assignments system.files with
    | .error f => { pools := .error f }
    | .ok assignments => s.loadAssigned system assignments

-- The settings name files too, whose paths show only once their own file has been read.
def paths (files : Files) (s : Sources) : List Path :=
  let named :=
    match s.assignments files with
    | .ok assignments =>
      let c := Settings.ofAssignments Settings.defaultGroup assignments
      (c.documentPath.map Path.ofText).toList ++ Settings.Log.paths assignments
    | .error _ => []
  s.settingsPath.toList ++ s.documentPath.toList ++ named

end Sources

end AddressSpace.CommandLine
