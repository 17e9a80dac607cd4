import AddressSpace.Json.Basic

/-!
JSON text read in two stages: characters to tokens, and tokens to a value by a machine that keeps
the open arrays and objects on a stack. Beside the standard grammar the words `NaN`, `Infinity` and
`-Infinity` are read as numbers. A key that is repeated keeps its last value. Of several faults in a
text, the machine finds the first. There are two readers, and where each of them stops is assumed
here: how deep it lets a text nest, how many digits it takes for a number, with or without the sign,
and whether half of a surrogate pair is a character to it.
-/

namespace AddressSpace.Json

-- What a reader takes beyond the grammar, and what it refuses: half of a surrogate pair in an
-- escape, a whole part with too many digits in front of a fraction or an exponent, and nesting beyond a
-- depth. A sign may count as a digit or not, and so may arrays and objects without content as a level.
structure Dialect where
  halves : Bool
  longWholeParts : Bool
  countsSign : Bool
  maxDepth : Nat
  emptyCounts : Bool

-- Text handed over directly.
def Dialect.strict : Dialect :=
  { halves := false, longWholeParts := false, countsSign := true, maxDepth := 200
    emptyCounts := false }

-- Text found in files. How deep it may nest depends on the room that its reader is left with.
def Dialect.lenient (maxDepth : Nat) : Dialect :=
  { halves := true, longWholeParts := true, countsSign := false, maxDepth, emptyCounts := true }

-- The depth where a reader is left with the usual room.
def usualDepth : Nat := 985

inductive Container where
  | array
  | object
  deriving DecidableEq, Repr

def Container.text : Container → String
  | .array => "array"
  | .object => "object"

inductive Fault where
  | malformed
  | overlong (digits : Nat)
  | tooDeep (c : Container)
  deriving DecidableEq, Repr

-- An overlong number is at fault only where a value may stand, a bad token anywhere.
inductive Token where
  | openArray
  | closeArray
  | openObject
  | closeObject
  | comma
  | colon
  | string (t : Text)
  | scalar (v : Json)
  | overlong (digits : Nat)
  | bad
  deriving Repr

/-! ### Words and numbers -/

def isSpace (c : Char) : Bool :=
  c = ' ' || c = '\t' || c = '\n' || c = '\r'

-- Characters of words and numbers.
def isBare (c : Char) : Bool :=
  c.isAlphanum || c = '+' || c = '-' || c = '.'

-- A number in parts; the digits of its whole part do not start with a zero unless that is all.
structure Numeral where
  negative : Bool
  whole : List Nat
  fraction : Option (List Nat)
  exponent : Option Int

def scanDigits (cs : List Char) : List Nat × List Char :=
  ((cs.takeWhile Char.isDigit).map fun c => c.toNat - '0'.toNat, cs.dropWhile Char.isDigit)

def scanSign (cs : List Char) : Bool × List Char :=
  match cs with
  | '-' :: rest => (true, rest)
  | '+' :: rest => (false, rest)
  | _ => (false, cs)

-- A point without a digit behind it belongs to no fraction.
def scanFraction (cs : List Char) : Option (List Nat) × List Char :=
  match cs with
  | '.' :: rest =>
    match scanDigits rest with
    | ([], _) => (none, cs)
    | (digits, rest) => (some digits, rest)
  | _ => (none, cs)

def scanExponent (cs : List Char) : Option Int × List Char :=
  match cs with
  | mark :: rest =>
    let (negative, rest) := scanSign rest
    match scanDigits rest with
    | ([], _) => (none, cs)
    | (digits, rest) =>
      if mark = 'e' ∨ mark = 'E' then
        let n : Int := Text.ofDigits 10 digits
        (some (if negative then -n else n), rest)
      else (none, cs)
  | [] => (none, cs)

-- The longest number at the start of a text, and what follows it.
def scanNumeral (cs : List Char) : Option (Numeral × List Char) :=
  let (negative, body) :=
    match cs with
    | '-' :: rest => (true, rest)
    | _ => (false, cs)
  match scanDigits body with
  | ([], _) => none
  | (0 :: _, _) => some (scanParts negative [0] (body.drop 1))
  | (whole, rest) => some (scanParts negative whole rest)
where
  scanParts (negative : Bool) (whole : List Nat) (rest : List Char) : Numeral × List Char :=
    let (fraction, rest) := scanFraction rest
    let (exponent, rest) := scanExponent rest
    ({ negative, whole, fraction, exponent }, rest)

namespace Numeral

def isWhole (n : Numeral) : Bool :=
  n.fraction.isNone && n.exponent.isNone

-- A whole number is kept as it is; others are rounded.
def value (n : Numeral) : Number :=
  if n.isWhole then
    let whole : Int := Text.ofDigits 10 n.whole
    .int (if n.negative then -whole else whole)
  else
    let fraction := n.fraction.getD []
    .real (.ofDecimal n.negative (Text.ofDigits 10 (n.whole ++ fraction))
      (n.exponent.getD 0 - fraction.length))

-- The digits of the whole part, and the sign in front of them.
def width (n : Numeral) : Nat :=
  n.whole.length + if n.negative then 1 else 0

def isOverlong (d : Dialect) (n : Numeral) : Bool :=
  decide (Text.maxDigits < if d.countsSign then n.width else n.whole.length) &&
    (n.isWhole || !d.longWholeParts)

end Numeral

def word? (cs : List Char) : Option Json :=
  if cs = "null".toList then some .null
  else if cs = "true".toList then some (.bool true)
  else if cs = "false".toList then some (.bool false)
  else if cs = "NaN".toList then some (.number (.real .nan))
  else if cs = "Infinity".toList then some (.number (.real (.infinite false)))
  else if cs = "-Infinity".toList then some (.number (.real (.infinite true)))
  else none

-- The token of a run of bare characters. A number is found overlong before what follows it is read.
def bareToken (d : Dialect) (cs : List Char) : Token :=
  match word? cs, scanNumeral cs with
  | some v, _ => .scalar v
  | none, none => .bad
  | none, some (n, rest) =>
    if n.isOverlong d then .overlong n.whole.length
    else if rest = [] then .scalar (.number n.value)
    else .bad

/-! ### Strings -/

def shortEscape? (c : Char) : Option Char :=
  if c = '"' ∨ c = '\\' ∨ c = '/' then some c
  else if c = 'b' then some '\x08'
  else if c = 'f' then some '\x0c'
  else if c = 'n' then some '\n'
  else if c = 'r' then some '\r'
  else if c = 't' then some '\t'
  else none

def fourDigits? (a b c d : Char) : Option Nat := do
  let digits ← [a, b, c, d].mapM Text.hexDigit?
  return Text.ofDigits 16 digits

def isHighSurrogate (n : Nat) : Bool :=
  decide (0xd800 ≤ n) && decide (n ≤ 0xdbff)

def isLowSurrogate (n : Nat) : Bool :=
  decide (0xdc00 ≤ n) && decide (n ≤ 0xdfff)

-- One piece of a string: a unit of sixteen bits from an escape, or a character.
inductive Piece where
  | unit (n : Nat)
  | char (c : Char)

-- The pieces of a string up to its closing quote, and the text behind it.
def scanString : List Char → Option (List Piece × List Char)
  | [] => none
  | '"' :: rest => some ([], rest)
  | '\\' :: 'u' :: a :: b :: c :: d :: rest => do
    let n ← fourDigits? a b c d
    let (pieces, after) ← scanString rest
    return (.unit n :: pieces, after)
  | '\\' :: c :: rest => do
    let e ← shortEscape? c
    let (pieces, after) ← scanString rest
    return (.char e :: pieces, after)
  | c :: rest => do
    if c.toNat < 0x20 ∨ c = '\\' then none
    else
      let (pieces, after) ← scanString rest
      return (.char c :: pieces, after)

-- A unit that belongs to no pair.
def single (halves : Bool) (n : Nat) : Option CodePoint :=
  if (isHighSurrogate n || isLowSurrogate n) && !halves then none else CodePoint.ofNat? n

-- Text from pieces: two units make one character where they form a pair.
def assemble (halves : Bool) : List Piece → Option Text
  | [] => some []
  | .char c :: rest => (assemble halves rest).map (.char c :: ·)
  | .unit n :: .unit m :: rest =>
    if isHighSurrogate n && isLowSurrogate m then
      let c := Char.ofNat (0x10000 + (n - 0xd800) * 0x400 + (m - 0xdc00))
      (assemble halves rest).map (.char c :: ·)
    else do
      let c ← single halves n
      let more ← assemble halves (.unit m :: rest)
      return c :: more
  | .unit n :: rest => do
    let c ← single halves n
    let more ← assemble halves rest
    return c :: more

theorem length_scanString {cs : List Char} {pieces : List Piece} {rest : List Char}
    (h : scanString cs = some (pieces, rest)) : rest.length < cs.length := by
  fun_induction scanString cs generalizing pieces rest with
  | case1 => simp at h
  | case2 r => simp at h; simp [← h.2]
  | case3 a b c d r ih =>
    simp only [Option.bind_eq_bind, Option.bind_eq_some_iff, Option.pure_def, Option.some.injEq] at h
    obtain ⟨n, -, ⟨p, after⟩, hs, he⟩ := h
    have := ih hs
    simp only [Prod.mk.injEq] at he
    simp only [← he.2, List.length_cons]
    omega
  | case4 c r _ ih =>
    simp only [Option.bind_eq_bind, Option.bind_eq_some_iff, Option.pure_def, Option.some.injEq] at h
    obtain ⟨n, -, ⟨p, after⟩, hs, he⟩ := h
    have := ih hs
    simp only [Prod.mk.injEq] at he
    simp only [← he.2, List.length_cons]
    omega
  | case5 c r => simp at h
  | case6 c r _ _ _ _ ih =>
    simp only [Option.bind_eq_bind, Option.bind_eq_some_iff, Option.pure_def, Option.some.injEq] at h
    obtain ⟨⟨p, after⟩, hs, he⟩ := h
    have := ih hs
    simp only [Prod.mk.injEq] at he
    simp only [← he.2, List.length_cons]
    omega

/-! ### Tokens -/

def Token.mark? (c : Char) : Option Token :=
  if c = '[' then some .openArray
  else if c = ']' then some .closeArray
  else if c = '\x7b' then some .openObject
  else if c = '\x7d' then some .closeObject
  else if c = ',' then some .comma
  else if c = ':' then some .colon
  else none

-- The tokens of a text, up to the first that is bad.
def tokens (d : Dialect) (cs : List Char) : List Token :=
  match cs with
  | [] => []
  | c :: rest =>
    if isSpace c then tokens d rest
    else
      match Token.mark? c with
      | some t => t :: tokens d rest
      | none =>
        if c = '"' then
          match _h : scanString rest with
          | none => [.bad]
          | some (pieces, after) =>
            match assemble d.halves pieces with
            | none => [.bad]
            | some t => .string t :: tokens d after
        else if isBare c then
          bareToken d (c :: rest.takeWhile isBare) :: tokens d (rest.dropWhile isBare)
        else [.bad]
termination_by cs.length
decreasing_by
  · simp
  · simp
  · have := length_scanString _h
    simp only [List.length_cons]
    omega
  · have := (List.dropWhile_sublist (l := rest) isBare).length_le
    simp only [List.length_cons]
    omega

/-! ### Values -/

-- An array or object that is still open, with what it holds so far.
inductive Frame where
  | array (reversed : List Json)
  | object (members : List (Text × Json)) (key : Text)

-- What may come next. The first item or key of a container is awaited in a state of its own,
-- because the container may also close there.
inductive State where
  | value (stack : List Frame)
  | firstItem (stack : List Frame)
  | firstKey (stack : List Frame)
  | key (stack : List Frame) (members : List (Text × Json))
  | colon (stack : List Frame) (members : List (Text × Json)) (key : Text)
  | after (stack : List Frame) (v : Json)

-- One more level is allowed in a stack.
def Dialect.enter (d : Dialect) (c : Container) (stack : List Frame) : Except Fault Unit :=
  if stack.length < d.maxDepth then .ok () else .error (.tooDeep c)

def State.start (d : Dialect) (stack : List Frame) : Token → Except Fault State
  | .openArray => do
    if d.emptyCounts then d.enter .array stack
    return .firstItem stack
  | .openObject => do
    if d.emptyCounts then d.enter .object stack
    return .firstKey stack
  | .string t => .ok (.after stack (.str t))
  | .scalar v => .ok (.after stack v)
  | .overlong digits => .error (.overlong digits)
  | _ => .error .malformed

def State.step (d : Dialect) : State → Token → Except Fault State
  | .value stack, t => State.start d stack t
  | .firstItem stack, .closeArray => .ok (.after stack (.arr []))
  | .firstItem stack, t => do
    d.enter .array stack
    State.start d (.array [] :: stack) t
  | .firstKey stack, .closeObject => .ok (.after stack (.obj []))
  | .firstKey stack, .string k => do
    d.enter .object stack
    return .colon stack [] k
  | .key stack members, .string k => .ok (.colon stack members k)
  | .colon stack members k, .colon => .ok (.value (.object members k :: stack))
  | .after (.array vs :: stack) v, .comma => .ok (.value (.array (v :: vs) :: stack))
  | .after (.array vs :: stack) v, .closeArray => .ok (.after stack (.arr (v :: vs).reverse))
  | .after (.object members k :: stack) v, .comma => .ok (.key stack (put k v members))
  | .after (.object members k :: stack) v, .closeObject =>
    .ok (.after stack (.obj (put k v members)))
  | _, _ => .error .malformed

-- The value of a text, which must hold one value and nothing else.
def read (d : Dialect) (cs : List Char) : Except Fault Json := do
  match ← (tokens d cs).foldlM (State.step d) (.value []) with
  | .after [] v => return v
  | _ => throw .malformed

end AddressSpace.Json
