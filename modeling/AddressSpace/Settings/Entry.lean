import AddressSpace.Address.Source
import AddressSpace.Interval

/-!
Entries of a pool's list in a settings file: one address, or two addresses with a hyphen between
them.
-/

namespace AddressSpace.Entry

inductive Fault where
  | blank
  | address (entry : Text) (fault : Address.Fault)
  | mixed (entry : Text)
  | reversed (entry : Text)

namespace Fault

def details : Fault → Text
  | .blank => "empty pool range entry"
  | .address entry f => "Invalid pool range '" ++ entry ++ "': " ++ f.message
  | .mixed entry =>
    "Invalid pool range '" ++ entry ++ "': start and end are of different address families"
  | .reversed entry =>
    "Invalid pool range '" ++ entry ++ "': start must be less than or equal to end"

def message (f : Fault) : Text :=
  Notice.configuration.withDetails f.details

end Fault

-- The texts of the two bounds. A missing or empty second one repeats the first.
def bounds (t : Text) : Text × Text :=
  let (first, last) := Text.cut (.char '-') t
  match last with
  | none | some [] => (first, first)
  | some last => (first, last)

-- The stretch that an entry names, of one family and with its bounds in order.
def read (t : Text) : Except Fault Interval := do
  let entry := Text.trim t
  if entry = [] then throw .blank
  let (first, last) := bounds entry
  let first ← (Address.Source.text first).resolve.mapError (.address entry)
  let last ← (Address.Source.text last).resolve.mapError (.address entry)
  if first.length ≠ last.length then throw (.mixed entry)
  if last < first then throw (.reversed entry)
  return { first, last }

end AddressSpace.Entry
