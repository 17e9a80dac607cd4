import AddressSpace.Text.Field
import AddressSpace.Text.Separated

/-!
JSON values, with members in the order of their first appearance, and the text that shows a value
in a message. Main statement: a member that is put under a key is found there, and all other members
stay.
-/

namespace AddressSpace

inductive Json where
  | null
  | bool (b : Bool)
  | number (n : Number)
  | str (t : Text)
  | arr (items : List Json)
  | obj (members : List (Text × Json))
  deriving Inhabited, Repr

namespace Json

-- Members with a value put under a key: the key keeps its place, the last value wins.
def put (key : Text) (v : Json) : List (Text × Json) → List (Text × Json)
  | [] => [(key, v)]
  | (k, u) :: rest => if k = key then (k, v) :: rest else (k, u) :: put key v rest

def find? (key : Text) : List (Text × Json) → Option Json
  | [] => none
  | (k, v) :: rest => if k = key then some v else find? key rest

theorem find?_put {key k : Text} {v : Json} {members : List (Text × Json)} :
    find? k (put key v members) = if key = k then some v else find? k members := by
  induction members with
  | nil => simp [put, find?]
  | cons m rest ih =>
    obtain ⟨j, u⟩ := m
    by_cases hj : j = key
    · by_cases hk : key = k <;> simp [put, find?, hj, hk]
    · by_cases hk : key = k
      · subst hk; simp [put, find?, hj, ih]
      · simp [put, find?, hj, ih, hk]

mutual

-- A value inside another one or in quotes.
def quoted : Json → Text
  | .null => "None"
  | .bool b => if b then "True" else "False"
  | .number n => n.text
  | .str t => Text.quoted t
  | .arr items => "[" ++ Text.joined ", " (quotedItems items) ++ "]"
  | .obj members => "\x7b" ++ Text.joined ", " (quotedMembers members) ++ "\x7d"

def quotedItems : List Json → List Text
  | [] => []
  | v :: rest => v.quoted :: quotedItems rest

def quotedMembers : List (Text × Json) → List Text
  | [] => []
  | (key, v) :: rest => (Text.quoted key ++ ": " ++ v.quoted) :: quotedMembers rest

end

-- A value on its own: text is shown as it is.
def plain : Json → Text
  | .str t => t
  | v => v.quoted

mutual

-- Whether a value holds a whole number that is not written out.
def isOverlong : Json → Bool
  | .number (.int n) => Text.isOverlong n
  | .arr items => anyOverlong items
  | .obj members => anyMemberOverlong members
  | _ => false

def anyOverlong : List Json → Bool
  | [] => false
  | v :: rest => v.isOverlong || anyOverlong rest

def anyMemberOverlong : List (Text × Json) → Bool
  | [] => false
  | (_, v) :: rest => v.isOverlong || anyMemberOverlong rest

end

-- The whole number that a value equals. Truth values count as no numbers.
def toInt? : Json → Option Int
  | .number n => n.toInt?
  | _ => none

def kindName : Json → String
  | .null => "NoneType"
  | .bool _ => "bool"
  | .number (.int _) => "int"
  | .number (.real _) => "float"
  | .str _ => "str"
  | .arr _ => "list"
  | .obj _ => "dict"

-- In messages truth values can also be shown as numbers.
def field : Json → Text.Field
  | .str t => .text t
  | .number n => .number n
  | .bool b => .other "bool" (Json.bool b).quoted (some (if b then 1 else 0))
  | v => .other v.kindName v.quoted none

end Json

end AddressSpace
