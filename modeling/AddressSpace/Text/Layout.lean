import AddressSpace.Text.CodePoint

/-!
How a shown value is laid out: its sign, the least count of code points that it takes, what fills the
rest, and a precision, which bounds a text and gives a number its count of digits.
-/

namespace AddressSpace.Text

structure Layout where
  left : Bool := false
  plus : Bool := false
  blank : Bool := false
  alternate : Bool := false
  zeros : Bool := false
  width : Option Nat := none
  precision : Option Nat := none
  deriving DecidableEq, Repr

namespace Layout

def missing (l : Layout) (size : Nat) : Nat :=
  l.width.getD 0 - size

-- Text is cut to the precision and padded with blanks.
def placeText (l : Layout) (t : Text) : Text :=
  let kept := (l.precision.map t.take).getD t
  let blanks := List.replicate (l.missing kept.length) (.char ' ')
  if l.left then kept ++ blanks else blanks ++ kept

-- The sign of a number that is not shown with a minus may be asked for.
def sign (l : Layout) (negative : Bool) : List Char :=
  if negative then ['-'] else if l.plus then ['+'] else if l.blank then [' '] else []

-- Zeros that pad a number go between what leads it and its digits.
def placeNumber (l : Layout) (lead digits : List Char) : Text :=
  let size := lead.length + digits.length
  ofChars <|
    if l.left then lead ++ digits ++ List.replicate (l.missing size) ' '
    else if l.zeros then lead ++ List.replicate (l.missing size) '0' ++ digits
    else List.replicate (l.missing size) ' ' ++ lead ++ digits

end Layout

end AddressSpace.Text
