import AddressSpace.Text.Digits
import AddressSpace.Text.Printable

/-!
Text and octets shown in quotes. The quote is `'`, or `"` for text that holds `'` and no `"`.
The quote itself, the backslash and characters that do not print are written as escapes.
-/

namespace AddressSpace.Text

-- The quote that a text is shown in.
def quoteFor (t : Text) : Char :=
  if t.contains (.char '\'') && !t.contains (.char '"') then '"' else '\''

-- The escape of a code point: two, four or eight hexadecimal digits, as few as hold it.
def numericEscape (n : Nat) : List Char :=
  if n < 0x100 then '\\' :: 'x' :: padded 16 2 n
  else if n < 0x10000 then '\\' :: 'u' :: padded 16 4 n
  else '\\' :: 'U' :: padded 16 8 n

def escape (quote : Char) (c : CodePoint) : Text :=
  if c = .char quote ∨ c = .char '\\' then [.char '\\', c]
  else if c = .char '\n' then "\\n"
  else if c = .char '\r' then "\\r"
  else if c = .char '\t' then "\\t"
  else if isPrintable c then [c]
  else ofChars (numericEscape c.toNat)

def quoted (t : Text) : Text :=
  let quote := quoteFor t
  [.char quote] ++ t.flatMap (escape quote) ++ [.char quote]

-- Text in which all but ASCII characters are shown by their numbers.
def asciiOnly (t : Text) : Text :=
  t.flatMap fun c => if c.toNat < 0x80 then [c] else ofChars (numericEscape c.toNat)

-- An octet inside quotes: ASCII text as it is, all else by its number.
def escapeOctet (quote : Char) (x : UInt8) : Text :=
  if x.toNat < 0x80 then escape quote (Char.ofNat x.toNat) else ofChars (numericEscape x.toNat)

-- Octets between quotes, marked with `b`.
def quotedOctets (xs : List UInt8) : Text :=
  let quote := quoteFor (xs.map fun x => .char (Char.ofNat x.toNat))
  [.char 'b', .char quote] ++ xs.flatMap (escapeOctet quote) ++ [.char quote]

def hexOctets (xs : List UInt8) : List Char :=
  xs.flatMap fun x => padded 16 2 x.toNat

end AddressSpace.Text
