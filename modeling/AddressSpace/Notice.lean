import AddressSpace.Text.Template

/-!
The kinds of faults that the pools report, and the template of the message of each kind.
-/

namespace AddressSpace

inductive Notice where
  | general
  | invalidRange
  | exhausted
  | invalidAddress
  | lengthMismatch
  | configuration
  | unknownPool
  deriving DecidableEq, Repr, Inhabited

namespace Notice

open Text.Template

def template : Notice → Text.Template
  | .general => [.text "An unknown exception occurred."]
  | .invalidRange =>
    [.text "Invalid range ", .field "start" .plain, .text "-", .field "end" .plain,
      .text ": start is greater than end"]
  | .exhausted => [.text "Address pool exhausted: ", .field "details" .plain]
  | .invalidAddress =>
    [.text "Invalid address ", .field "address" .quoted, .text ": ", .field "details" .plain]
  | .lengthMismatch =>
    [.text "Address length ", .field "got" (.decimal 'd'),
      .text " does not match allocator address length ", .field "expected" (.decimal 'd')]
  | .configuration => [.text "Pool configuration error: ", .field "details" .plain]
  | .unknownPool => [.text "Pool ", .field "name" .plain, .text " not found"]

-- The template of a notice that is given a text of its own; an empty text counts as none.
def templateOr (n : Notice) (own : Option Text) : Text.Template :=
  match own with
  | none | some [] => n.template
  | some t => parse t

def sourceOr (n : Notice) (own : Option Text) : Text :=
  match own with
  | none | some [] => source n.template
  | some t => t

def withDetails (n : Notice) (details : Text) : Text :=
  render (fun _ => .text details) n.template

end Notice

end AddressSpace
