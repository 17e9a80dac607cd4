import AddressSpace.Text.Conversion

/-!
Message templates: text with directives that show the fields of a message. A directive is a percent
sign, the name of a field in parentheses, flags, a width, a precision, and the letter of a
conversion; only the first and the last must be there. In text a percent sign is written twice. A
message is filled from fields that may be missing, or rendered from fields that are all there.
-/

namespace AddressSpace.Text

-- A width or a precision: a number, or a star that asks for the field at hand.
inductive Size where
  | count (n : Nat)
  | star
  deriving DecidableEq, Repr

-- What a directive ends with: its conversion, or a letter that names none.
inductive Ending where
  | conversion (c : Conversion)
  | unknown (c : CodePoint) (index : Nat)
  deriving DecidableEq, Repr

-- A directive without a name shows the field at hand.
structure Directive where
  name : Option Text := none
  layout : Layout := {}
  width : Option Size := none
  precision : Option Size := none
  ending : Option Ending := none
  deriving DecidableEq, Repr

inductive Template.Piece where
  | text (t : Text)
  | directive (d : Directive)
  | unclosedName
  deriving DecidableEq, Repr

abbrev Template :=
  List Template.Piece

inductive SizeKind where
  | width
  | precision
  deriving DecidableEq, Repr

namespace SizeKind

def text : SizeKind → String
  | .width => "width"
  | .precision => "precision"

-- The machine word that a size has to fit in.
def word : SizeKind → String
  | .width => "ssize_t"
  | .precision => "int"

def limit : SizeKind → Nat
  | .width => 9223372036854775807
  | .precision => 2147483647

end SizeKind

namespace Template

inductive Fault where
  | missing (name : Text)
  | noFieldLeft
  | starNotInteger
  | starTooLarge (s : SizeKind)
  | sizeTooLarge (s : SizeKind)
  | incomplete
  | incompleteName
  | unsupported (c : CodePoint) (index : Nat)
  | conversion (fault : Conversion.Fault)
  deriving DecidableEq, Repr

def Fault.message : Fault → Text
  | .missing name => Text.quoted name
  | .noFieldLeft => "not enough arguments for format string"
  | .starNotInteger => "* wants int"
  | .starTooLarge s => s!"Python int too large to convert to C {s.word}"
  | .sizeTooLarge s => s!"{s.text} too big"
  | .incomplete => "incomplete format"
  | .incompleteName => "incomplete format key"
  | .unsupported c i =>
    let n := c.toNat
    -- Only ASCII characters are shown as they are.
    let shown := if 31 ≤ n ∧ n ≤ 126 then Char.ofNat n else '?'
    let number := String.ofList (Nat.toDigits 16 n)
    s!"unsupported format character '{shown}' (0x{number}) at index {i}"
  | .conversion f => f.message

/-! ### Reading -/

-- Where a reader stands.
inductive Mode where
  | text (reversed : Text)
  | percent
  | name (depth : Nat) (reversed : Text)
  | flags (d : Directive)
  | width (d : Directive) (n : Nat)
  | point (d : Directive)
  | precision (d : Directive)
  | places (d : Directive) (n : Nat)
  | length (d : Directive)
  | letter (d : Directive)

def flag? (l : Layout) (c : CodePoint) : Option Layout :=
  if c = .char '-' then some { l with left := true }
  else if c = .char '+' then some { l with plus := true }
  else if c = .char ' ' then some { l with blank := true }
  else if c = .char '#' then some { l with alternate := true }
  else if c = .char '0' then some { l with zeros := true }
  else none

def asciiDigit? : CodePoint → Option Nat
  | .char c => digit? c
  | .half _ => none

-- The reader after a code point, with the piece that it completes.
abbrev Advance :=
  List Piece × Mode

def readLetter (d : Directive) (index : Nat) (c : CodePoint) : Advance :=
  let ending :=
    match Conversion.ofLetter? c with
    | some k => .conversion k
    | none => .unknown c index
  ([.directive { d with ending := some ending }], .text [])

-- A letter for the length of a number may come first; it says nothing.
def readLength (d : Directive) (index : Nat) (c : CodePoint) : Advance :=
  if c ∈ ("hlL" : Text) then ([], .letter d) else readLetter d index c

def readPoint (d : Directive) (index : Nat) (c : CodePoint) : Advance :=
  if c = .char '.' then ([], .precision { d with precision := some (.count 0) })
  else readLength d index c

def readWidth (d : Directive) (index : Nat) (c : CodePoint) : Advance :=
  if c = .char '*' then ([], .point { d with width := some .star })
  else
    match asciiDigit? c with
    | some n => ([], .width { d with width := some (.count n) } n)
    | none => readPoint d index c

def readFlags (d : Directive) (index : Nat) (c : CodePoint) : Advance :=
  match flag? d.layout c with
  | some layout => ([], .flags { d with layout })
  | none => readWidth d index c

def textPiece (reversed : Text) : List Piece :=
  if reversed = [] then [] else [.text reversed.reverse]

def Mode.read (index : Nat) (c : CodePoint) : Mode → Advance
  | .text reversed =>
    if c = .char '%' then (textPiece reversed, .percent) else ([], .text (c :: reversed))
  | .percent =>
    if c = .char '%' then ([], .text [c])
    else if c = .char '(' then ([], .name 0 [])
    else readFlags {} index c
  | .name depth reversed =>
    if c = .char ')' then
      match depth with
      | 0 => ([], .flags { name := some reversed.reverse })
      | depth + 1 => ([], .name depth (c :: reversed))
    else ([], .name (if c = .char '(' then depth + 1 else depth) (c :: reversed))
  | .flags d => readFlags d index c
  | .width d n =>
    match asciiDigit? c with
    | some digit =>
      ([], .width { d with width := some (.count (n * 10 + digit)) } (n * 10 + digit))
    | none => readPoint d index c
  | .point d => readPoint d index c
  | .precision d =>
    if c = .char '*' then ([], .length { d with precision := some .star })
    else
      match asciiDigit? c with
      | some n => ([], .places { d with precision := some (.count n) } n)
      | none => readLength d index c
  | .places d n =>
    match asciiDigit? c with
    | some digit =>
      ([], .places { d with precision := some (.count (n * 10 + digit)) } (n * 10 + digit))
    | none => readLength d index c
  | .length d => readLength d index c
  | .letter d => readLetter d index c

-- What is left over at the end.
def Mode.close : Mode → List Piece
  | .text reversed => textPiece reversed
  | .percent => [.directive {}]
  | .name _ _ => [.unclosedName]
  | .flags d | .width d _ | .point d | .precision d | .places d _ | .length d | .letter d =>
    [.directive d]

def parseFrom (index : Nat) (mode : Mode) : Text → Template
  | [] => mode.close
  | c :: rest =>
    let (pieces, next) := mode.read index c
    pieces ++ parseFrom (index + 1) next rest

def parse (t : Text) : Template :=
  parseFrom 0 (.text []) t

-- The piece that shows a field by its name.
def Piece.field (name : String) (c : Conversion) : Piece :=
  .directive { name := some name, ending := some (.conversion c) }

-- How a template is written whose directives have a name and a conversion alone.
def Piece.source : Piece → Text
  | .text t => t.flatMap fun c => if c = .char '%' then "%%" else [c]
  | .directive { name := some name, ending := some (.conversion c), .. } =>
    "%(" ++ name ++ ")" ++ [CodePoint.char c.letter]
  | .directive _ | .unclosedName => "%"

def source (t : Template) : Text :=
  t.flatMap Piece.source

/-! ### Filling -/

-- A star uses up the field at hand, so that none is left for the value.
def takeSize (s : SizeKind) (hand : Option Field) : Option Size → Except Fault (Option Field)
  | none => .ok hand
  | some (.count n) => if s.limit < n then .error (.sizeTooLarge s) else .ok hand
  | some .star =>
    match hand with
    | none => .error .noFieldLeft
    | some f =>
      match f.int? with
      | none => .error .starNotInteger
      | some n =>
        if n < -(s.limit : Int) - 1 ∨ (s.limit : Int) < n then .error (.starTooLarge s)
        else .ok none

def Size.count? : Size → Option Nat
  | .count n => some n
  | .star => none

def convert (d : Directive) (c : Conversion) (f : Field) : Except Fault Text :=
  let layout :=
    { d.layout with
      width := d.width.bind Size.count?
      precision := d.precision.bind Size.count? }
  (c.convert layout f).mapError .conversion

-- The field that a directive names is at hand for it; its parts are looked at in order.
def showDirective (fields : Text → Option Field) (hand : Option Field) (d : Directive) :
    Except Fault Text := do
  let hand ←
    match d.name with
    | none => .ok hand
    | some name =>
      match fields name with
      | none => .error (.missing name)
      | some f => .ok (some f)
  let hand ← takeSize .width hand d.width
  let hand ← takeSize .precision hand d.precision
  match d.ending, hand with
  | none, _ => .error .incomplete
  | some _, none => .error .noFieldLeft
  | some (.unknown c index), some _ => .error (.unsupported c index)
  | some (.conversion c), some f => convert d c f

-- The message, if every piece can be filled; the first piece that cannot is at fault. The field at
-- hand can be shown once, by a directive that comes before all names.
def fill (fields : Text → Option Field) (hand : Option Field) : Template → Except Fault Text
  | [] => .ok []
  | .text t :: rest => (fill fields hand rest).map (t ++ ·)
  | .unclosedName :: _ => .error .incompleteName
  | .directive d :: rest => do
    let shown ← showDirective fields hand d
    let more ← fill fields none rest
    return shown ++ more

-- The message of a template in which every directive names a field that its conversion can
-- show.
def render (fields : Text → Field) : Template → Text
  | [] => []
  | .text t :: rest => t ++ render fields rest
  | .unclosedName :: rest => render fields rest
  | .directive d :: rest =>
    (showDirective (fun name => some (fields name)) none d).toOption.getD [] ++ render fields rest

end Template

end AddressSpace.Text
