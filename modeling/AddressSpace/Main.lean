import AddressSpace.CommandLine.Transcript

/-!
The program: reads the files that its command line needs, and prints the answer.
-/

namespace AddressSpace

-- Text as the console takes it: surrogates that stand alone are shown by their numbers.
def shown (t : Text) : String :=
  String.ofList <| t.flatMap fun c =>
    match c with
    | .char c => [c]
    | .half _ => Text.numericEscape c.toNat

def readPath (p : Path) : IO (Except Files.Fault (List UInt8)) := do
  try
    let octets ← IO.FS.readBinFile (shown p.text)
    return .ok octets.toList
  catch e =>
    match e with
    | .inappropriateType _ code _ =>
      return .error (if code = 20 then .notDirectory else .directory)
    | .invalidArgument _ 36 _ => return .error .tooLong
    | _ => return .error .missing

-- The files read so far; others count as missing.
def filesOf (known : List (Path × Except Files.Fault (List UInt8))) : Files := fun p =>
  (known.lookup p).getD (.error .missing)

def readMore (known : List (Path × Except Files.Fault (List UInt8))) (paths : List Path) :
    IO (List (Path × Except Files.Fault (List UInt8))) := do
  let new := (paths.filter fun p => !known.any fun k => k.1 = p).eraseDups
  let read ← new.mapM fun p => do return (p, ← readPath p)
  return known ++ read

def printRecord (place : Journal.Place) (t : Text) : IO Unit := do
  match place with
  | .output => IO.println (shown t)
  | .errors => IO.eprintln (shown t)
  | .file p =>
    let file ← IO.FS.Handle.mk (shown p.text) .append
    file.putStrLn (shown t)

def numberNames : List String :=
  ["msecs", "created", "relativeCreated", "process", "thread", "lineno"]

def textNames : List String :=
  ["asctime", "processName", "threadName", "funcName", "filename", "pathname"]

-- Nothing is told of the time, the process and the place in the program.
def around : Journal.Surroundings :=
  { field? := fun name =>
      if numberNames.any fun known => decide (Text.ofString known = name) then some (.ofInt 0)
      else if textNames.any fun known => decide (Text.ofString known = name) then some (.text "-")
      else none
    object := fun r => r.text }

def printAll (t : CommandLine.Transcript Journal.Plan) : IO Unit := do
  let plan := t.plan.getD {}
  for printed in t.printed do
    match printed with
    | .line l => IO.println (shown l)
    | .record r =>
      if let some text := plan.write around r then
        printRecord plan.place text

end AddressSpace

open AddressSpace in
def main (args : List String) : IO UInt32 := do
  let args := args.map Text.ofString
  -- A settings file may name one more file to read.
  let first ← readMore [] (CommandLine.paths (filesOf []) args)
  let known ← readMore first (CommandLine.paths (filesOf first) args)
  let system := CommandLine.System.ofFiles Settings.Log.noPlanner Json.usualDepth (filesOf known)
  match CommandLine.run system args with
  | .error f =>
    IO.eprintln f.message
    return 1
  | .ok t =>
    printAll t
    if let some message := t.error then
      IO.eprintln (shown message)
    return t.status.toUInt32
