import AddressSpace.Files
import AddressSpace.Journal
import AddressSpace.Text.Template

/-!
What becomes of the records of the log: which of them are kept, where they go, and how they are
written. The output of a program is its own lines and the records that go there, in one order. What a
record is written with beside what it tells itself, such as the time, the process and the place in the
program, comes from its surroundings.
-/

namespace AddressSpace.Journal

inductive Place where
  | output
  | errors
  | file (path : Path)
  deriving DecidableEq, Repr

-- A record is written in a line, for which those of details have a template of their own, or as one
-- object that holds all there is to tell. After a line in color the terminal is set back.
inductive Form where
  | line (usual detail : Text.Template) (colored : Bool)
  | object
  deriving DecidableEq, Repr

namespace Form

def usualText : Text :=
  "%(asctime)s.%(msecs)03d %(process)d %(levelname)s %(name)s [-] %(instance)s%(message)s"

-- What stands behind a detail.
def usualSuffix : Text := "%(funcName)s %(pathname)s:%(lineno)d"

def messageText : Text := "%(message)s"

-- A line shows a record and, behind a detail, what a text of its own asks for. An empty text asks for
-- the message alone.
def ofTexts (text suffix : Text) (colored : Bool) : Form :=
  let orMessage (t : Text) : Text := if t = [] then messageText else t
  .line (Text.Template.parse (orMessage text))
    (Text.Template.parse (orMessage (if suffix = [] then text else text ++ " " ++ suffix))) colored

def usual : Form :=
  ofTexts usualText usualSuffix false

end Form

-- A record is kept if its level reaches what is asked of its origin, of the closest name around the
-- origin of which anything is asked, or else of all records.
structure Plan where
  least : Int := Level.info.number
  leastOf : List (Text × Int) := []
  place : Place := .output
  form : Form := .usual
  deriving DecidableEq, Repr

-- What is known around a record when it is written.
structure Surroundings where
  field? : Text → Option Text.Field
  object : Record → Text

def colorOf : Level → String
  | .debug => "\x1b[00;32m"
  | .info => "\x1b[00;36m"

def noColor : String := "\x1b[00m"

-- What records here never have: a request, a user, an instance.
def emptyFields : List String :=
  ["instance", "resource", "user_identity", "user_name", "project_name", "global_request_id"]

-- What a line can show of a record: what it tells itself comes before its surroundings.
def field? (w : Surroundings) (colored : Bool) (r : Record) (name : Text) : Option Text.Field :=
  let colors : List (String × Text.Field) :=
    if colored then [("color", .text (colorOf r.level)), ("reset_color", .text noColor)]
    else [("color", .text [])]
  let fields : List (String × Text.Field) :=
    [("levelname", .text r.level.text), ("levelno", .ofInt r.level.number),
      ("name", .text r.origin.text), ("module", .text r.origin.part), ("message", .text r.message),
      ("project", .text "ipam-engine"), ("version", .text "unknown")] ++ colors ++
    emptyFields.map fun name => (name, .text [])
  ((fields.find? fun (known, _) => decide (Text.ofString known = name)).map Prod.snd).or (w.field? name)

-- The text of a record. A line that asks for what nobody tells is lost.
def Form.write (f : Form) (w : Surroundings) (r : Record) : Option Text :=
  match f with
  | .object => some (w.object r)
  | .line usual detail colored =>
    let template := match r.level with
      | .debug => detail
      | .info => usual
    let written := (Text.Template.fill (field? w colored r) none template).toOption
    written.map fun t => if colored then t ++ noColor else t

-- What a program prints: lines of its own, and records.
inductive Printed where
  | line (t : Text)
  | record (r : Record)
  deriving DecidableEq, Repr

namespace Plan

-- Asking for nothing leaves the question to the names around.
def asked? (p : Plan) (name : String) : Option Int :=
  (p.leastOf.lookup (Text.ofString name)).filter (· ≠ 0)

def leastFor (p : Plan) (o : Origin) : Int :=
  ((o.text :: o.around).findSome? p.asked?).getD p.least

def keeps (p : Plan) (r : Record) : Bool :=
  decide (p.leastFor r.origin ≤ r.level.number)

def write (p : Plan) (w : Surroundings) (r : Record) : Option Text :=
  if p.keeps r then p.form.write w r else none

-- The lines of the output that one thing printed makes.
def lines (p : Plan) (w : Surroundings) : Printed → List Text
  | .line t => [t]
  | .record r =>
    if p.place = .output then ((p.write w r).map (Text.split (.char '\n'))).getD [] else []

-- The output, where each thing printed has its own surroundings.
def output (p : Plan) (around : Nat → Surroundings) (printed : List Printed) : List Text :=
  printed.zipIdx.flatMap fun (x, i) => p.lines (around i) x

end Plan

end AddressSpace.Journal
