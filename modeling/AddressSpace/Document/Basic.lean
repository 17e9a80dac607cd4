import AddressSpace.Address.Host
import AddressSpace.Document.Issue
import AddressSpace.Json.Reader
import AddressSpace.PerPool

/-!
Pool documents: for each pool a list of ranges, given by the texts of their first and last address.
A document is read from a JSON value or from JSON text; keys that name no pool are passed over.
Of the validation that documents go through it is assumed that it looks for a pool under its dashed key
first, checks all fields and items whatever is wrong with others, and compares the bounds of a range
once each of them has passed.
-/

namespace AddressSpace

namespace Document

-- A range by the texts of its bounds, without the blanks around them.
structure Range where
  first : Text
  last : Text
  deriving DecidableEq, Repr

-- The text of a bound, which must spell an address.
def bound (name : String) (members : List (Text × Json)) : Checked (Text × Host) :=
  Checked.under (.key name) <|
    match Json.find? name members with
    | none => .fail .missing
    | some (.str t) =>
      match Host.ofText? (Text.trim t) with
      | some h => .ok (Text.trim t, h)
      | none => .fail (.bounds (.unparsable (Text.trim t)))
    | some _ => .fail .notText

def ordered (first last : Text × Host) : Checked Range :=
  if first.2.family ≠ last.2.family then
    .fail (.bounds (.mixed first.1 last.1 first.2.family last.2.family))
  else if first.2.inOrder last.2 then .ok { first := first.1, last := last.1 }
  else .fail (.bounds (.reversed first.1 last.1))

def Range.ofJson : Json → Checked Range
  | .obj members => do
    let (first, last) ← Checked.both Prod.mk (bound "start" members) (bound "end" members)
    ordered first last
  | _ => .fail (.notObject .range)

def Range.read (v : Json) : Except Refusal Range :=
  (Range.ofJson v).mapError .ofIssues

def rangesFrom (index : Nat) : List Json → Checked (List Range)
  | [] => .ok []
  | v :: rest =>
    Checked.both List.cons ((Range.ofJson v).under (.item index)) (rangesFrom (index + 1) rest)

-- A pool's list is found under its dashed key or else under the name of its option; a pool without
-- a list has no ranges.
def rangesOf (members : List (Text × Json)) (n : PoolName) : Checked (List Range) :=
  let found :=
    match Json.find? n.key members with
    | some v => some (n.key, v)
    | none => (Json.find? n.option members).map (n.option, ·)
  match found with
  | none => .ok []
  | some (key, .arr items) => (rangesFrom 0 items).under (.key key)
  | some (key, _) => (Checked.fail .notList).under (.key key)

end Document

abbrev Document :=
  PerPool (List Document.Range)

namespace Document

def ofJson : Json → Checked Document
  | .obj members =>
    Checked.both (fun (p, s) (t, n) =>
        { pod := p, service := s, staticService := t, nodeService := n })
      (Checked.both Prod.mk (rangesOf members .pod) (rangesOf members .service))
      (Checked.both Prod.mk (rangesOf members .staticService) (rangesOf members .nodeService))
  | _ => .fail (.notObject .document)

inductive Input where
  | value (v : Json)
  | text (t : Text)

-- A value that is nothing but text holds the text of a document.
def Input.ofJson : Json → Input
  | .str t => .text t
  | v => .value v

def Input.form : Input → Form
  | .value _ => .value
  | .text _ => .text

def check : Input → Checked Document
  | .value v => ofJson v
  | .text t =>
    match Text.chars? t with
    | none => .fail .notUnicode
    | some cs =>
      match Json.read .strict cs with
      | .ok v => ofJson v
      | .error _ => .fail .notJson

def read (input : Input) : Except Refusal Document :=
  (check input).mapError .ofIssues

end Document

end AddressSpace
