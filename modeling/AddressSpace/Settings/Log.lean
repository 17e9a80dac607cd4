import AddressSpace.Journal.Plan
import AddressSpace.Settings.Basic

/-!
What a settings file says of the log: how much of it is kept, where it goes, and how it is written.
All of it stands in one group. It may name a file of its own with a plan for the log; who carries such
a plan out is left open here.
-/

namespace AddressSpace.Settings.Log

def group : Text := "DEFAULT"

-- Why a file holds no plan for the log, or none that can be carried out.
inductive PlanFault where
  | unreadable (fault : Files.Fault)
  | empty
  | noGroups
  | lacks (group : String)
  | unfit (message : Text)
  deriving DecidableEq, Repr

def PlanFault.message (file : Text) : PlanFault → Text
  | .unreadable f => f.message file
  | .empty => file ++ " is an empty file"
  | .noGroups => file ++ " is invalid: File contains no section headers."
  | .lacks group => Text.quoted group
  | .unfit message => message

inductive Fault where
  | notSwitch (option : String) (value : Text)
  | notBoolean (source : Text) (option : String) (value : Text)
  | plan (file : Text) (fault : PlanFault)
  | undecodable (fault : Text.Utf8.Fault)
  | unnamable (fault : Path.Fault)
  | unopened (path : Path) (fault : Files.Fault)
  | noJournal
  | noMessaging
  | unknownLevel (name : Text)
  deriving DecidableEq, Repr

def Fault.message : Fault → Text
  | .notSwitch option value => s!"argument --{option}: Invalid Boolean value: " ++ value
  | .notBoolean source option value =>
    s!"Value for option {option} from LocationInfo(location=<Locations.user: (4, True)>, detail=" ++
      Text.quoted source ++ ") is not valid: Unexpected boolean value " ++ Text.quoted value
  | .plan file f => "Error loading logging config " ++ file ++ ": " ++ f.message file
  | .undecodable f => f.message
  | .unnamable f => f.message
  | .unopened p f => f.message p.text
  | .noJournal => "Systemd bindings do not exist"
  | .noMessaging => "No module named 'oslo_messaging'"
  | .unknownLevel name => "Unknown level: " ++ Text.quoted name

variable (assignments : List Ini.Assignment)

def value? (option : String) : Option Text :=
  Ini.value? assignments group option

-- An option may have a second name. An empty text counts as none.
def text? (options : List String) : Option Text :=
  (options.findSome? (value? assignments)).filter fun t => decide (t ≠ [])

def switch (fault : String → Text → Fault) (option : String) : Except Fault Bool :=
  match value? assignments option with
  | none => .ok false
  | some value =>
    match switch? value with
    | none => .error (fault option value)
    | some b => .ok b

/-! ### A plan in a file of its own -/

def isRemark (line : Text) : Bool :=
  match line with
  | [] => true
  | c :: _ => decide (c = .char '#') || decide (c = .char ';')

-- Whether the first line that says anything opens a group; a file that says nothing will do.
def opensGroup (t : Text) : Bool :=
  match ((Ini.lines t).map Text.trim).find? fun line => !isRemark line with
  | none => true
  | some line => decide (line.head? = some (.char '[')) && decide (.char ']' ∈ line.drop 2)

-- Carries out the text of a plan, which opens a group.
abbrev Planner :=
  Text → Except PlanFault Journal.Plan

-- A planner for whom no text is a plan.
def noPlanner : Planner :=
  fun _ => .error (.lacks "formatters")

def planOfFile (planner : Planner) (files : Files) (file : Text) : Except Fault Journal.Plan :=
  match Path.fault? file with
  | some f => .error (.unnamable f)
  | none =>
    match files (.ofText file) with
    | .error .directory => .error (.plan file (.lacks "formatters"))
    | .error f => .error (.plan file (.unreadable f))
    | .ok octets =>
      match Text.Utf8.decode octets with
      | .error f => .error (.undecodable f)
      | .ok cs =>
        (if cs = [] then .error .empty
          else if opensGroup (.ofChars cs) then planner (.ofChars cs)
          else .error .noGroups).mapError (.plan file)

def planFile? : Option Text :=
  text? assignments ["log_config_append", "log_config"]

/-! ### Where the log goes -/

def under (directory file : Text) : Text :=
  if file.head? = some (.char '/') then file
  else if directory.getLast? = some (.char '/') then directory ++ file
  else directory ++ "/" ++ file

def logFile? : Option Text :=
  let file := text? assignments ["log_file", "logfile"]
  match text? assignments ["log_dir", "logdir"] with
  | none => file
  | some directory => some (under directory (file.getD "ipam-engine.log"))

def open? (files : Files) (file : Text) : Except Fault Path :=
  match Path.fault? file with
  | some f => .error (.unnamable f)
  | none =>
    let p := (Path.ofText file).collapsed
    match files.appendFault? p with
    | some f => .error (.unopened p f)
    | none => .ok p

/-! ### How much is kept -/

def namedLevels : List (String × Int) :=
  [("CRITICAL", 50), ("FATAL", 50), ("ERROR", 40), ("WARNING", 30), ("WARN", 30), ("INFO", 20),
    ("DEBUG", 10), ("TRACE", 5), ("NOTSET", 0)]

def level (t : Text) : Except Fault Int :=
  match Text.typedInt? t with
  | some n => .ok n
  | none =>
    match namedLevels.find? fun (name, _) => decide (Text.ofString name = t) with
    | some (_, n) => .ok n
    | none => .error (.unknownLevel t)

-- The levels that are asked of origins, the last one first.
def levels : Except Fault (List (Text × Int)) := do
  let items := ((value? assignments "default_log_levels").map listItems).getD []
  let asked ← items.mapM fun item => do
    let (name, after) := Text.cut (.char '=') item
    return (name, ← level (after.getD []))
  return asked.reverse

-- All records together have a name too.
def leastOfAll (details : Bool) (asked : List (Text × Int)) : Int :=
  let base := if details then Level.debug.number else Level.info.number
  ((asked.find? fun (name, _) => decide (name = []) || decide (name = "root")).map Prod.snd).getD
    base

/-! ### The plan -/

def form (colored object : Bool) : Journal.Form :=
  if object then .object
  else
    .ofTexts ((value? assignments "logging_default_format_string").getD Journal.Form.usualText)
      ((value? assignments "logging_debug_format_suffix").getD Journal.Form.usualSuffix) colored

-- The switches that are looked at before all else.
def firstSwitches : List String :=
  ["debug", "use_syslog", "use_journal", "use_json"]

-- What the assignments of a file ask for; `source` names the file. Switches that cannot be read
-- come first, then what keeps the log from its place.
def plan (planner : Planner) (files : Files) (source : Text) : Except Fault Journal.Plan := do
  firstSwitches.forM fun option => (switch assignments .notSwitch option).map fun _ => ()
  let details ← switch assignments .notSwitch "debug"
  if let some file := planFile? assignments then
    return ← planOfFile planner files file
  let file ← (logFile? assignments).mapM (open? files)
  let onErrors ← switch assignments (.notBoolean source) "use_stderr"
  let colored ←
    -- Colors are for terminals, not for files.
    if onErrors || file.isNone then switch assignments (.notBoolean source) "log_color"
    else .ok false
  if ← switch assignments .notSwitch "use_journal" then
    throw .noJournal
  if ← switch assignments (.notBoolean source) "publish_errors" then
    throw .noMessaging
  let asked ← levels assignments
  let place := match file with
    | some p => .file p
    | none => if onErrors then .errors else .output
  let object ← switch assignments .notSwitch "use_json"
  let form := form assignments (colored && file.isNone) object
  return { least := leastOfAll details asked, leastOf := asked, place, form }

-- The paths that the plan depends on. Whether a file can be opened may hang on its directory.
def paths : List Path :=
  let log := (logFile? assignments).map fun file => (Path.ofText file).collapsed
  (planFile? assignments).toList.map Path.ofText ++ log.toList ++ (log.map Path.parent).toList

end AddressSpace.Settings.Log
