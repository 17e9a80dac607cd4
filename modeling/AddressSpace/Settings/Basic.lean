import AddressSpace.PerPool
import AddressSpace.Settings.Ini
import AddressSpace.Text.Blank

/-!
The settings of the pools: a list of entries for each pool, and the path of a pool document.
-/

namespace AddressSpace

-- An empty path counts as none.
structure Settings where
  entries : PerPool (List Text)
  document : Option Text := none
  deriving DecidableEq, Repr

namespace Settings

def empty : Settings :=
  { entries := .ofFn fun _ => [] }

def defaultGroup : String := "ipam"

inductive OptionKind where
  | list
  | text
  deriving DecidableEq, Repr

structure OptionInfo where
  name : String
  kind : OptionKind
  help : String
  deriving DecidableEq, Repr

def documentOption : String := "pool_document"

def rangeHelp : String :=
  "Comma separated list of inclusive address ranges in the form " ++
  "'<start_ip>-<end_ip>' (e.g., 10.2.0.2-10.2.255.254). " ++
  "IPv4 and IPv6 ranges may be mixed."

def poolHelp : PoolName → String
  | .pod => "Addresses assigned to pods. "
  | .service => "Addresses assigned to load-balanced services. "
  | .staticService =>
    "Addresses that services may request explicitly. " ++
    "These are never handed out automatically. "
  | .nodeService => "Addresses assigned to per-node service endpoints. "

-- The options that a group of settings has. A list is empty by default, a text is not set.
def options : List OptionInfo :=
  (PoolName.all.map fun n => ⟨n.option, .list, poolHelp n ++ rangeHelp⟩) ++
  [⟨documentOption, .text,
    "Path to a JSON controller configuration document with " ++
    "'pod-ip-pool', 'service-ip-pool', 'static-service-ip-pool' and " ++
    "'node-service-ip-pool' entries. Ranges from the document are " ++
    "added to those configured in this file."⟩]

-- The items of a list value: commas at the end are dropped, items are cut at commas, and blanks
-- around them are dropped.
def listItems (value : Text) : List Text :=
  let body := ((Text.trim value).reverse.dropWhile (· = .char ',')).reverse
  if body = [] then [] else (Text.split (.char ',') body).map Text.trim

def ofAssignments (group : Text) (assignments : List Ini.Assignment) : Settings :=
  { entries := .ofFn fun n =>
      ((Ini.value? assignments group n.option).map listItems).getD []
    document := Ini.value? assignments group documentOption }

inductive Override where
  | entries (n : PoolName) (items : List Text)
  | document (path : Text)

-- A value that is set directly wins over the file.
def override (s : Settings) : Override → Settings
  | .entries n items => { s with entries := s.entries.set n items }
  | .document path => { s with document := some path }

def documentPath (s : Settings) : Option Text :=
  s.document.filter fun path => decide (path ≠ [])

def allEntries (s : Settings) : List (PoolName × Text) :=
  s.entries.toList.flatMap fun (n, items) => items.map (n, ·)

def switchWords : List (String × Bool) :=
  [("true", true), ("1", true), ("on", true), ("yes", true),
    ("false", false), ("0", false), ("off", false), ("no", false)]

-- Reads a switch, in any case.
def switch? (value : Text) : Option Bool :=
  let lowered := Text.lower value
  (switchWords.find? fun (word, _) => decide (Text.ofString word = lowered)).map Prod.snd

end Settings

end AddressSpace
