import AddressSpace.Family
import AddressSpace.Text.Utf8

/-!
What can be wrong with a pool document, and where. A check goes on after an issue, so that a
document is refused with all of its issues, unless the wording of one cannot be written as UTF-8.
How the validation of documents names an issue, puts it into words and orders several of them is
assumed here: fields come in the order of their declaration, items in that of their list, and a
value is at fault in one way only.
-/

namespace AddressSpace.Document

-- A step into a document: to the member of a key, or to an item of a list.
inductive Step where
  | key (name : String)
  | item (index : Nat)
  deriving DecidableEq, Repr

inductive Model where
  | document
  | range
  deriving DecidableEq, Repr

def Model.text : Model → String
  | .document => "PoolDocument"
  | .range => "PoolRangeModel"

-- What can be wrong with the bounds of a range once they are texts.
inductive BoundFault where
  | unparsable (text : Text)
  | mixed (first last : Text) (firstFamily lastFamily : Family)
  | reversed (first last : Text)
  deriving DecidableEq, Repr

def BoundFault.message : BoundFault → Text
  | .unparsable text =>
    "Invalid IP address: " ++ Text.quoted text ++ " does not appear to be an IPv4 or IPv6 address"
  | .mixed first last f g =>
    "Range " ++ first ++ "-" ++ last ++ s!" mixes IPv{f.number} and IPv{g.number}"
  | .reversed first last =>
    "Start IP " ++ first ++ " must be less than or equal to end IP " ++ last

inductive Cause where
  | notJson
  | notUnicode
  | notObject (model : Model)
  | notList
  | notText
  | missing
  | bounds (fault : BoundFault)
  deriving DecidableEq, Repr

-- Whether a document came as a decoded value or as JSON text.
inductive Form where
  | value
  | text
  deriving DecidableEq, Repr

namespace Cause

def kind : Cause → String
  | .notJson => "json_invalid"
  | .notUnicode => "string_unicode"
  | .notObject _ => "model_type"
  | .notList => "list_type"
  | .notText => "string_type"
  | .missing => "missing"
  | .bounds _ => "value_error"

-- The wording of an issue; text that is not JSON has none of its own.
def message? (form : Form) : Cause → Option Text
  | .notJson => none
  | .notUnicode =>
    some "Input should be a valid string, unable to parse raw data as a unicode string"
  | .notObject model =>
    match form with
    | .value => some s!"Input should be a valid dictionary or instance of {model.text}"
    | .text => some "Input should be an object"
  | .notList =>
    match form with
    | .value => some "Input should be a valid list"
    | .text => some "Input should be a valid array"
  | .notText => some "Input should be a valid string"
  | .missing => some "Field required"
  | .bounds fault => some ("Value error, " ++ fault.message)

-- The wording of a fault may repeat surrogates that stand alone.
def writeFault? : Cause → Option Text.Utf8.WriteFault
  | .bounds fault => Text.Utf8.writeFault? fault.message
  | _ => none

end Cause

structure Issue where
  path : List Step
  cause : Cause
  deriving DecidableEq, Repr

def Issue.under (step : Step) (i : Issue) : Issue :=
  { i with path := step :: i.path }

-- The result of a check: what was read, or every issue found.
abbrev Checked (α : Type) :=
  Except (List Issue) α

namespace Checked

variable {α β γ : Type}

def issues : Checked α → List Issue
  | .ok _ => []
  | .error is => is

def fail (cause : Cause) : Checked α :=
  .error [{ path := [], cause }]

def under (step : Step) : Checked α → Checked α
  | .ok a => .ok a
  | .error is => .error (is.map (·.under step))

-- Both checks are made; the issues of the first come first.
def both (f : α → β → γ) : Checked α → Checked β → Checked γ
  | .ok a, .ok b => .ok (f a b)
  | .ok _, .error js => .error js
  | .error is, .ok _ => .error is
  | .error is, .error js => .error (is ++ js)

end Checked

-- A refused document comes with its issues, or with the first wording that cannot be written.
inductive Refusal where
  | issues (is : List Issue)
  | unwritable (fault : Text.Utf8.WriteFault)
  deriving DecidableEq, Repr

def Refusal.ofIssues (is : List Issue) : Refusal :=
  match is.findSome? fun i => i.cause.writeFault? with
  | some f => .unwritable f
  | none => .issues is

end AddressSpace.Document
