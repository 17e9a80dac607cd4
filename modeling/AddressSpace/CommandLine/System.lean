import AddressSpace.Settings.Log

/-!
What commands find on the system that they run on: the files, how deep a document in them may nest,
and how the log is set up. Of the log nothing is asked but that it is planned or is not; what a plan
does with the records is left open.
-/

namespace AddressSpace.CommandLine

-- Why the log is not planned: a remark that stands by itself, or a fault of what was done.
inductive LogFault where
  | remark (message : Text)
  | fault (message : Text)

def LogFault.message : LogFault → Text
  | .remark t | .fault t => t

-- The log is planned from the assignments of a settings file, whose name is given too.
structure System (π : Type) where
  files : Files
  maxDepth : Nat
  planLog : List Ini.Assignment → Text → Except LogFault π

namespace System

-- A system where the settings of the log mean what they say.
def ofFiles (planner : Settings.Log.Planner) (maxDepth : Nat) (files : Files) : System Journal.Plan :=
  { files
    maxDepth
    planLog := fun assignments source =>
      (Settings.Log.plan assignments planner files source).mapError fun
        | .notSwitch option value => .remark (Settings.Log.Fault.notSwitch option value).message
        | f => .fault f.message }

end System

end AddressSpace.CommandLine
