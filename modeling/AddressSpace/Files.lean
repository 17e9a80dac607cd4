import AddressSpace.Text.Separated
import AddressSpace.Text.Utf8

/-!
Paths, and the files found under them.
-/

namespace AddressSpace

-- A path is its steps from a root; the root is empty for paths that start where the program
-- runs.
structure Path where
  root : String
  steps : List Text
  deriving DecidableEq, Repr

namespace Path

-- Empty steps and steps to the same place are passed over.
def ofText (t : Text) : Path :=
  let slashes := (t.takeWhile (· = .char '/')).length
  { root := if slashes = 0 then "" else if slashes = 2 then "//" else "/"
    steps := (Text.split (.char '/') t).filter fun step =>
      decide (step ≠ []) && decide (step ≠ ".") }

def text (p : Path) : Text :=
  if p.root = "" ∧ p.steps = [] then "." else p.root ++ Text.joined "/" p.steps

-- A step back cancels the step in front of it, and leads nowhere from a root.
def cancel (rooted : Bool) (reversed : List Text) (step : Text) : List Text :=
  match reversed with
  | [] => if rooted ∧ step = ".." then [] else [step]
  | s :: rest => if step = ".." ∧ s ≠ ".." then rest else step :: s :: rest

def collapsed (p : Path) : Path :=
  { p with steps := (p.steps.foldl (cancel (p.root ≠ "")) []).reverse }

def parent (p : Path) : Path :=
  { p with steps := p.steps.dropLast }

-- Why a text cannot name a file at all.
inductive Fault where
  | unwritable (fault : Text.Utf8.WriteFault)
  | nullOctet
  deriving DecidableEq, Repr

def Fault.message : Fault → String
  | .unwritable f => f.message
  | .nullOctet => "embedded null byte"

def fault? (t : Text) : Option Fault :=
  match Text.Utf8.nameFault? t with
  | some f => some (.unwritable f)
  | none => if .char '\x00' ∈ t then some .nullOctet else none

end Path

namespace Files

inductive Fault where
  | missing
  | notDirectory
  | directory
  | tooLong
  deriving DecidableEq, Repr

def Fault.reason : Fault → String
  | .missing => "[Errno 2] No such file or directory"
  | .notDirectory => "[Errno 20] Not a directory"
  | .directory => "[Errno 21] Is a directory"
  | .tooLong => "[Errno 36] File name too long"

def Fault.message (f : Fault) (path : Text) : Text :=
  f.reason ++ ": " ++ Text.quoted path

end Files

-- What reading each path gives.
abbrev Files :=
  Path → Except Files.Fault (List UInt8)

namespace Files

-- Why a file cannot be opened to write at its end. One that is missing is made if its directory is
-- there.
def appendFault? (files : Files) (p : Path) : Option Fault :=
  match files p with
  | .ok _ => none
  | .error .missing =>
    match files p.parent with
    | .error .directory => none
    | _ => some .missing
  | .error f => some f

-- The octets that a step has at most, and those that a path has fewer than.
def maxStepSize : Nat := 255

def maxPathSize : Nat := 4096

def isTooLong (step : Text) : Bool :=
  decide (maxStepSize < Text.Utf8.nameSize step)

-- Files by their steps from the place where the program runs; their directories exist with them.
abbrev Tree :=
  List (List Text × List UInt8)

namespace Tree

def isDirectory (t : Tree) (steps : List Text) : Bool :=
  steps.isEmpty || t.any fun f => steps.isPrefixOf f.1 && decide (f.1 ≠ steps)

-- What is found above the place where the program runs: directories, but no files.
def above (steps : List Text) : Fault :=
  match steps.dropWhile (fun step : Text => step = "..") with
  | [] => .directory
  | step :: _ => if isTooLong step then .tooLong else .missing

def follow (t : Tree) (place : List Text) : List Text → Except Fault (List UInt8)
  | [] => .error .directory
  | step :: rest =>
    if step = ".." then
      if place = [] then .error (above rest) else follow t place.dropLast rest
    else if isTooLong step then .error .tooLong
    else
      let next := place ++ [step]
      if t.isDirectory next then follow t next rest
      else
        match t.find? fun f => decide (f.1 = next) with
        | none => .error .missing
        | some f => if rest = [] then .ok f.2 else .error .notDirectory

def devices : Text := "dev"

def rootDirectories : List Text :=
  ["bin", devices, "etc", "home", "lib", "opt", "proc", "root", "run", "sbin", "sys", "tmp", "usr",
    "var"]

-- What is found below a root: some directories, and the device that holds nothing.
def fromRoot (place : List Text) : List Text → Except Fault (List UInt8)
  | [] => .error .directory
  | step :: rest =>
    if step = ".." then fromRoot place.dropLast rest
    else if isTooLong step then .error .tooLong
    else if place = [] ∧ step ∈ rootDirectories then fromRoot [step] rest
    else if place = [devices] ∧ step = "null" then
      if rest = [] then .ok [] else .error .notDirectory
    else .error .missing

def files (t : Tree) : Files := fun p =>
  if maxPathSize ≤ Text.Utf8.nameSize p.text then .error .tooLong
  else if p.root = "" then t.follow [] p.steps
  else fromRoot [] p.steps

end Tree

end Files

end AddressSpace
