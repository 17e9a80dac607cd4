import AddressSpace.Binary64.Rounded
import AddressSpace.Text.Field
import AddressSpace.Text.Layout

/-!
Conversions of fields to the text that a message shows, each named by a letter. Numbers are shown as
whole numbers in base ten, eight or sixteen, or rounded to a count of places.
-/

namespace AddressSpace.Text

inductive Conversion where
  | plain
  | quoted
  | escaped
  | character
  -- The letter is one of three that mean the same.
  | decimal (letter : Char)
  | octal
  | hexadecimal (upper : Bool)
  | scientific (upper : Bool)
  | fixed (upper : Bool)
  | general (upper : Bool)
  deriving DecidableEq, Repr

namespace Conversion

inductive Fault where
  | notNumber (letter : Char) (kind : String)
  | notInteger (letter : Char) (kind : String)
  | notReal (kind : String)
  | notCharacter
  | noCharacter
  | noWholePart (fault : Number.Fault)
  | tooLarge
  | tooPrecise
  | overlong
  deriving DecidableEq, Repr

def Fault.message : Fault → String
  | .notNumber letter kind => s!"%{letter} format: a real number is required, not {kind}"
  | .notInteger letter kind => s!"%{letter} format: an integer is required, not {kind}"
  | .notReal kind => s!"must be real number, not {kind}"
  | .notCharacter => "%c requires int or char"
  | .noCharacter => "%c arg not in range(0x110000)"
  | .noWholePart f => f.message
  | .tooLarge => "int too large to convert to float"
  | .tooPrecise => "precision too large"
  | .overlong => overlongMessage

def letter : Conversion → Char
  | .plain => 's'
  | .quoted => 'r'
  | .escaped => 'a'
  | .character => 'c'
  | .decimal letter => letter
  | .octal => 'o'
  | .hexadecimal upper => if upper then 'X' else 'x'
  | .scientific upper => if upper then 'E' else 'e'
  | .fixed upper => if upper then 'F' else 'f'
  | .general upper => if upper then 'G' else 'g'

def all : List Conversion :=
  [.plain, .quoted, .escaped, .character, .decimal 'd', .decimal 'i', .decimal 'u', .octal,
    .hexadecimal false, .hexadecimal true, .scientific false, .scientific true,
    .fixed false, .fixed true, .general false, .general true]

def ofLetter? (c : CodePoint) : Option Conversion :=
  all.find? fun k => decide (.char k.letter = c)

def capitals (upper : Bool) (cs : List Char) : List Char :=
  if upper then cs.map Char.toUpper else cs

/-! ### Whole numbers -/

def maxPrecision : Nat := 2147483644

-- The digits of a whole number behind its sign and the mark of its base.
def placeInt (l : Layout) (base : Nat) (mark : List Char) (upper : Bool) (n : Int) :
    Except Fault Text :=
  let precision := l.precision.getD 0
  if maxPrecision < precision then .error .tooPrecise
  else if base = 10 ∧ isOverlong n then .error .overlong
  else
    let digits := padded base precision n.natAbs
    .ok (l.placeNumber (l.sign (decide (n < 0)) ++ capitals upper mark) (capitals upper digits))

def baseMark (l : Layout) (letter : Char) : List Char :=
  if l.alternate then ['0', letter] else []

-- A number with a fraction is cut off at its point.
def cutOff (letter : Char) (f : Field) : Except Fault Int :=
  match f.number? with
  | none => .error (.notNumber letter f.kind)
  | some n => n.truncate.mapError .noWholePart

def exact (letter : Char) (f : Field) : Except Fault Int :=
  match f.int? with
  | none => .error (.notInteger letter f.kind)
  | some n => .ok n

/-! ### Rounded numbers -/

def real (f : Field) : Except Fault Binary64 :=
  match f.number? with
  | none => .error (.notReal f.kind)
  | some n =>
    match n.toReal? with
    | none => .error .tooLarge
    | some x => .ok x

-- How a mantissa and an exponent are written to a given precision.
def placeReal (l : Layout) (upper : Bool) (write : Nat → Nat → Int → List Char) :
    Binary64 → Text
  | .nan => l.placeNumber (l.sign false) (capitals upper ['n', 'a', 'n'])
  | .infinite negative => l.placeNumber (l.sign negative) (capitals upper ['i', 'n', 'f'])
  | .finite negative mantissa exponent =>
    l.placeNumber (l.sign negative)
      (capitals upper (write (l.precision.getD 6) mantissa exponent))

/-! ### All conversions -/

-- What a field is shown as, unless it is a whole number that is not written out.
def shown (f : Field) (t : Text) : Except Fault Text :=
  match f with
  | .number (.int n) => if isOverlong n then .error .overlong else .ok t
  | _ => .ok t

-- A text of one code point, or the number of one.
def codePoint : Field → Except Fault CodePoint
  | .text [c] => .ok c
  | f =>
    match f.int? with
    | none => .error .notCharacter
    | some n =>
      match (if n < 0 then none else CodePoint.ofNat? n.toNat) with
      | none => .error .noCharacter
      | some c => .ok c

def convert (c : Conversion) (l : Layout) (f : Field) : Except Fault Text :=
  match c with
  | .plain => (shown f f.plain).map l.placeText
  | .quoted => (shown f f.quoted).map l.placeText
  | .escaped => (shown f (asciiOnly f.quoted)).map l.placeText
  | .character => (codePoint f).map fun c => { l with precision := none }.placeText [c]
  | .decimal letter => do placeInt l 10 [] false (← cutOff letter f)
  | .octal => do placeInt l 8 (baseMark l 'o') false (← exact 'o' f)
  | .hexadecimal upper => do
    placeInt l 16 (baseMark l 'x') upper (← exact (Conversion.hexadecimal upper).letter f)
  | .scientific upper => (real f).map (placeReal l upper (Binary64.scientific l.alternate))
  | .fixed upper => (real f).map (placeReal l upper (Binary64.fixed l.alternate))
  | .general upper => (real f).map (placeReal l upper (Binary64.general l.alternate))

end Conversion

end AddressSpace.Text
