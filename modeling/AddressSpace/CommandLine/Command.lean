import AddressSpace.CommandLine.Usage
import AddressSpace.Files
import AddressSpace.Text.Digits

/-!
The commands: `pool show`, `pool allocate`, and the requests for the version and for help.
-/

namespace AddressSpace.CommandLine

structure Sources where
  document : Option Text := none
  configFile : Option Text := none
  deriving DecidableEq, Repr

structure Allocation where
  pool : Text
  sources : Sources
  count : Int
  blocks : Bool
  family : Int
  deriving DecidableEq, Repr

inductive Command where
  | version
  | help
  | show (sources : Sources)
  | allocate (a : Allocation)
  deriving DecidableEq, Repr

namespace Command

open Usage

def rootSpec : Spec :=
  { options := [("--help", false), ("--version", false)], operandsEndOptions := true }

def poolSpec : Spec :=
  { options := [("--help", false)], operandsEndOptions := true }

def showSpec : Spec :=
  { options := [("--config-file", true), ("--document", true), ("--help", false)]
    operandsEndOptions := false }

def allocateSpec : Spec :=
  { options := [("--chunk", false), ("--config-file", true), ("--count", true),
      ("--document", true), ("--family", true), ("--help", false)]
    operandsEndOptions := false }

-- The request that ends the reading of a command line, if there is one; the first one counts.
def eager? (s : Scan) : Option Command :=
  s.options.findSome? fun option =>
    if option = "--version" then some .version
    else if option = "--help" then some .help
    else none

def sources (s : Scan) : Sources :=
  { document := s.value? "--document", configFile := s.value? "--config-file" }

-- Arguments may also stop the program before it has a command, when a path among them cannot be
-- one.
inductive Rejection where
  | usage (r : Usage.Refusal)
  | path (fault : Path.Fault)
  deriving DecidableEq, Repr

def misused (f : Fault) : Rejection :=
  .usage { fault := f }

def count (value : Text) : Except Fault Int :=
  match Text.typedInt? value with
  | none => .error (.notInteger "--count" value "integer range")
  | some n => if n < 1 then .error (.tooSmall "--count" n 1) else .ok n

def family (value : Text) : Except Fault Int :=
  match Text.typedInt? value with
  | none => .error (.notInteger "--family" value "integer")
  | some n => .ok n

def path (value : Text) : Except Path.Fault Unit :=
  match Path.fault? value with
  | none => .ok ()
  | some f => .error f

-- The value of an option is checked when its turn comes.
def check (s : Scan) (option : String) : Except Rejection Unit :=
  match s.value? option with
  | none => .ok ()
  | some value =>
    if option = "--count" then ((count value).mapError misused).map fun _ => ()
    else if option = "--family" then ((family value).mapError misused).map fun _ => ()
    else if option = "--document" ∨ option = "--config-file" then (path value).mapError .path
    else .ok ()

-- The options and operands of a command, once the options have been checked.
def scanChecked (spec : Spec) (args : List Text) : Except Rejection (Scan × Option Command) := do
  let s ← (scan spec args).mapError fun (f, _) => misused f
  match eager? s with
  | some c => return (s, some c)
  | none =>
    s.options.forM (check s)
    return (s, none)

def ofShow (args : List Text) : Except Rejection Command := do
  match ← scanChecked showSpec args with
  | (_, some c) => return c
  | (s, none) =>
    if s.operands ≠ [] then throw (misused (.extraArguments s.operands))
    return .show (sources s)

def ofAllocate (args : List Text) : Except Rejection Command := do
  match ← scanChecked allocateSpec args with
  | (_, some c) => return c
  | (s, none) =>
    match s.operands with
    | [] => throw (misused (.missingArgument "NAME"))
    | pool :: extra =>
      if extra ≠ [] then throw (misused (.extraArguments extra))
      let count ← (((s.value? "--count").map count).getD (.ok 1)).mapError misused
      let family ← (((s.value? "--family").map family).getD (.ok 4)).mapError misused
      return .allocate { pool, sources := sources s, count, blocks := s.has "--chunk", family }

abbrev Group :=
  List (String × (List Text → Except Rejection Command))

def names (commands : Group) : List Text :=
  commands.map fun c => .ofString c.1

-- The commands that come close to the first of the arguments.
def commandsCloseTo (commands : Group) : List Text → List Text
  | [] => []
  | arg :: _ => Text.closeTo arg (names commands)

-- What is found where a command should stand may be an option of the group. If it is not, commands
-- that come close to the argument behind all that was read are hinted at.
def ofStranger (spec : Spec) (commands : Group) (name : Text) (rest : List Text) :
    Except Rejection Command :=
  let refuse (f : Fault) (left : List Text) : Except Rejection Command :=
    .error (.usage { fault := f, commands := commandsCloseTo commands left })
  match scan spec (name :: rest) with
  | .error (f, left) => refuse f left
  | .ok s =>
    match eager? s with
    | some c => .ok c
    | none => refuse (.noSuchCommand name (Text.closeTo name (names commands))) s.operands

-- Reads the options of a group of commands and hands the rest to one of them.
def ofGroup (spec : Spec) (commands : Group) (args : List Text) : Except Rejection Command := do
  match ← scanChecked spec args with
  | (_, some c) => return c
  | (s, none) =>
    match s.operands with
    | [] => throw (misused .missingCommand)
    | name :: rest =>
      match commands.find? fun c => decide (Text.ofString c.1 = name) with
      | some (_, command) => command rest
      | none => ofStranger spec commands name rest

def ofPool : List Text → Except Rejection Command :=
  ofGroup poolSpec [("show", ofShow), ("allocate", ofAllocate)]

def ofArguments : List Text → Except Rejection Command :=
  ofGroup rootSpec [("pool", ofPool)]

end Command

end AddressSpace.CommandLine
