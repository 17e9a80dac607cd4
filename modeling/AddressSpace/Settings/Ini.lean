import AddressSpace.Text.Blank
import AddressSpace.Text.Lower
import AddressSpace.Text.Separated
import AddressSpace.Text.Utf8

/-!
Settings files: lines of `key = value` or `key: value` under `[group]` headers. A line that starts
with a space or a tab continues the value above it; blank lines and comments end a value. When a
key is repeated in a group, the last value counts. Values are given as they stand in the file: where
one refers to another option by a dollar sign and a name, what it refers to is not put in its place.
-/

namespace AddressSpace.Ini

structure Assignment where
  group : Text
  key : Text
  value : Text
  deriving DecidableEq, Repr

-- Where a reader of lines stands: the group, the key and the lines of the value that may go on,
-- and the assignments so far, the last one first.
structure State where
  group : Option Text := none
  pending : Option (Text × List Text) := none
  reversed : List Assignment := []

-- A line break is a line feed, a carriage return, or both in this order.
def lines : Text → List Text
  | [] => [[]]
  | .char '\r' :: .char '\n' :: rest => [] :: lines rest
  | c :: rest =>
    if c = .char '\n' ∨ c = .char '\r' then
      [] :: lines rest
    else
      match lines rest with
      | [] => [[c]]
      | l :: ls => (c :: l) :: ls

-- The lines of a text that goes on. A carriage return at its end may be half of a line break.
def finishedLines (t : Text) : List Text :=
  (lines (if t.getLast? = some (.char '\r') then t.dropLast else t)).dropLast

-- The pending value is complete; it must stand in a group.
def State.flush (s : State) : Option State :=
  match s.pending with
  | none => some s
  | some (key, reversedLines) => do
    let group ← s.group
    let value := Text.joined "\n" reversedLines.reverse
    return { s with pending := none, reversed := ⟨group, key, value⟩ :: s.reversed }

-- A value without the pair of equal quotes around it.
def unquote (t : Text) : Text :=
  match t with
  | q :: rest =>
    if (q = .char '"' ∨ q = .char '\'') ∧ t.getLast? = some q then rest.dropLast else t
  | [] => []

-- The key and the value around the first equals sign or colon.
def assignment? (line : Text) : Option (Text × Text) :=
  let key := line.takeWhile fun c => c ≠ .char '=' && c ≠ .char ':'
  match line.dropWhile fun c => c ≠ .char '=' && c ≠ .char ':' with
  | [] => none
  | _ :: value =>
    let key := Text.trim key
    if key = [] then none else some (key, unquote (Text.trim value))

def header? (line : Text) : Option Text :=
  if line.getLast? = some (.char ']') ∧ 2 < line.length then some (line.drop 1).dropLast else none

-- The state after a line, or none if the line has no place there.
def State.read (s : State) (raw : Text) : Option State :=
  let line := Text.trimEnd raw
  match line with
  | [] => s.flush
  | c :: _ =>
    if c = .char ' ' ∨ c = .char '\t' then do
      let (key, reversedLines) ← s.pending
      return { s with pending := some (key, Text.trimStart line :: reversedLines) }
    else do
      let s ← s.flush
      if c = .char '[' then
        let group ← header? line
        return { s with group := some group }
      else if c = .char '#' ∨ c = .char ';' then
        return s
      else
        let (key, value) ← assignment? line
        return { s with pending := some (key, [value]) }

inductive Fault where
  | malformed
  | undecodable (fault : Text.Utf8.Fault)
  deriving DecidableEq, Repr

-- How many octets of a settings file are read at a time.
def blockSize : Nat := 8192

-- The assignments of a file, in order. Lines are read block by block, so a malformed line is found
-- before octets of a later block that spell no text.
def parse (octets : List UInt8) : Except Fault (List Assignment) :=
  match Text.Utf8.decodeBlocks none (Text.Utf8.blocks blockSize octets) with
  | (cs, none) =>
    match (lines (.ofChars cs)).foldlM State.read {} >>= State.flush with
    | some s => .ok s.reversed.reverse
    | none => .error .malformed
  | (cs, some fault) =>
    match (finishedLines (.ofChars cs)).foldlM State.read {} with
    | some _ => .error (.undecodable fault)
    | none => .error .malformed

-- Groups are named in any case, apart from the default group.
def groupKey (group : Text) : Text :=
  if group = "DEFAULT" then group else Text.lower group

def value? (assignments : List Assignment) (group key : Text) : Option Text :=
  (assignments.reverse.find? fun a =>
    decide (groupKey a.group = groupKey group) && decide (a.key = key)).map Assignment.value

end AddressSpace.Ini
