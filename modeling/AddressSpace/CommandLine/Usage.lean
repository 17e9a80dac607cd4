import AddressSpace.Text.Quoted
import AddressSpace.Text.Separated
import AddressSpace.Text.Similar

/-!
The command line: options and operands of the commands, and what can be wrong with their use.
-/

namespace AddressSpace.CommandLine

namespace Usage

inductive Fault where
  | missingCommand
  | noSuchCommand (name : Text) (similar : List Text)
  | noSuchOption (name : Text) (similar : List Text)
  | needsArgument (option : String)
  | takesNoValue (option : String)
  | missingArgument (name : String)
  | extraArguments (args : List Text)
  | notInteger (option : String) (value : Text) (kind : String)
  | tooSmall (option : String) (value least : Int)
  deriving DecidableEq, Repr

namespace Fault

def statement : Fault → Text
  | .missingCommand => "Missing command."
  | .noSuchCommand name _ => "No such command " ++ Text.quoted name ++ "."
  | .noSuchOption name _ => "No such option " ++ Text.quoted name ++ "."
  | .needsArgument option => s!"Option '{option}' requires an argument."
  | .takesNoValue option => s!"Option '{option}' does not take a value."
  | .missingArgument name => s!"Missing argument '{name}'."
  | .extraArguments args =>
    let noun := if args.length = 1 then "argument" else "arguments"
    s!"Got unexpected extra {noun} (" ++ Text.joined " " args ++ ")"
  | .notInteger option value kind =>
    s!"Invalid value for '{option}': " ++ Text.quoted value ++ s!" is not a valid {kind}."
  | .tooSmall option value least =>
    s!"Invalid value for '{option}': {value} is not in the range x>={least}."

def similar : Fault → List Text
  | .noSuchCommand _ similar | .noSuchOption _ similar => similar
  | _ => []

end Fault

-- A use that is refused, and the commands that may have been meant in place of what was found where
-- a command should stand, the closest first.
structure Refusal where
  fault : Fault
  commands : List Text := []
  deriving DecidableEq, Repr

namespace Refusal

def listed (names : List Text) : Text :=
  Text.joined ", " (names.map Text.quoted)

def commandHint (r : Refusal) : Text :=
  if r.commands = [] then [] else " Did you mean " ++ listed r.commands ++ "?"

-- Names that are similar are listed in alphabetical order.
def nameHint (r : Refusal) : Text :=
  let names := r.fault.similar.mergeSort fun x y => decide (Text.order x y ≠ .gt)
  match names with
  | [] => []
  | [name] => " Did you mean " ++ Text.quoted name ++ "?"
  | _ => " (Did you mean one of: " ++ listed names ++ "?)"

def message (r : Refusal) : Text :=
  r.fault.statement ++ r.commandHint ++ r.nameHint

end Refusal

-- The options of a command, and whether they take a value. Where operands end the options, all that
-- follows the first operand belongs to another command.
structure Spec where
  options : List (String × Bool)
  operandsEndOptions : Bool

def Spec.option? (spec : Spec) (name : Text) : Option (String × Bool) :=
  spec.options.find? fun o => decide (Text.ofString o.1 = name)

structure Scan where
  given : List (String × Text) := []
  operands : List Text := []
  deriving DecidableEq, Repr

def Scan.consOption (name : String) (value : Text) (s : Scan) : Scan :=
  { s with given := (name, value) :: s.given }

def Scan.consOperand (arg : Text) (s : Scan) : Scan :=
  { s with operands := arg :: s.operands }

-- An argument that starts with a hyphen and has more to it is an option.
def isOption (arg : Text) : Bool :=
  match arg with
  | .char '-' :: _ :: _ => true
  | _ => false

-- An option that the command does not have. With a single hyphen its name is one letter long,
-- and no other name comes close.
def unknownOption (spec : Spec) (arg name : Text) : Fault :=
  match arg with
  | .char '-' :: .char '-' :: _ =>
    .noSuchOption name (Text.closeTo name (spec.options.map fun o => .ofString o.1))
  | _ => .noSuchOption (arg.take 2) []

-- A fault comes with the arguments behind the one that is at fault.
def scan (spec : Spec) : List Text → Except (Fault × List Text) Scan
  | [] => .ok {}
  | arg :: rest =>
    if arg = "--" then .ok { operands := rest }
    else if isOption arg then
      let (name, value) := Text.cut (.char '=') arg
      match spec.option? name, value with
      | none, _ => .error (unknownOption spec arg name, rest)
      | some (name, false), none => (scan spec rest).map (·.consOption name [])
      | some (name, false), some _ => .error (.takesNoValue name, rest)
      | some (name, true), some value => (scan spec rest).map (·.consOption name value)
      | some (name, true), none =>
        match rest with
        | [] => .error (.needsArgument name, [])
        | value :: rest => (scan spec rest).map (·.consOption name value)
    else if spec.operandsEndOptions then .ok { operands := arg :: rest }
    else (scan spec rest).map (·.consOperand arg)

namespace Scan

def has (s : Scan) (option : String) : Bool :=
  (s.given.lookup option).isSome

-- The value of an option; the last one counts.
def value? (s : Scan) (option : String) : Option Text :=
  s.given.reverse.lookup option

-- The options given, in the order of their first appearance.
def options (s : Scan) : List String :=
  (s.given.map Prod.fst).eraseDups

end Scan

end Usage

end AddressSpace.CommandLine
