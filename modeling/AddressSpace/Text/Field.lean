import AddressSpace.Number
import AddressSpace.Text.Quoted

/-!
Fields of messages: what a message shows, plainly or in quotes.
-/

namespace AddressSpace.Text

-- Values that are neither text nor numbers show one text. Some of them count as whole numbers.
inductive Field where
  | text (t : Text)
  | number (n : Number)
  | other (kind : String) (shown : Text) (whole : Option Int)

namespace Field

def ofInt (n : Int) : Field :=
  .number (.int n)

def kind : Field → String
  | .text _ => "str"
  | .number (.int _) => "int"
  | .number (.real _) => "float"
  | .other kind _ _ => kind

def plain : Field → Text
  | .text t => t
  | .number n => n.text
  | .other _ shown _ => shown

def quoted : Field → Text
  | .text t => Text.quoted t
  | f => f.plain

-- The number that a field stands for; whole numbers also come as other values.
def number? : Field → Option Number
  | .text _ => none
  | .number n => some n
  | .other _ _ whole => whole.map .int

def int? (f : Field) : Option Int :=
  match f.number? with
  | some (.int n) => some n
  | _ => none

end Field

end AddressSpace.Text
