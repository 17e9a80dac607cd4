/-!
Text as a list of code points. Text that comes out of escapes or off a command line need not be made
of characters: half of a surrogate pair may stand in it alone. Main statement: code points are told
apart by their numbers.
-/

namespace AddressSpace

-- `half n` is the surrogate `0xd800 + n`, a number that no character has.
inductive CodePoint where
  | char (c : Char)
  | half (n : Fin 0x800)
  deriving DecidableEq, Repr, Inhabited

namespace CodePoint

instance : Coe Char CodePoint := ⟨.char⟩

def toNat : CodePoint → Nat
  | .char c => c.toNat
  | .half n => 0xd800 + n.val

def ofNat? (n : Nat) : Option CodePoint :=
  if h : 0xd800 ≤ n ∧ n < 0xe000 then some (.half ⟨n - 0xd800, by omega⟩)
  else if n < 0x110000 then some (.char (Char.ofNat n))
  else none

def isHalf : CodePoint → Bool
  | .char _ => false
  | .half _ => true

theorem toNat_inj {x y : CodePoint} (h : x.toNat = y.toNat) : x = y := by
  -- A character lies below the surrogates or above them.
  have apart (c : Char) (n : Fin 0x800) : c.toNat ≠ 0xd800 + n.val := by
    have hc : c.toNat < 0xd800 ∨ 0xdfff < c.toNat ∧ c.toNat < 0x110000 := c.valid
    omega
  match x, y with
  | .char c, .char d => exact congrArg CodePoint.char (Char.toNat_inj.mp h)
  | .half m, .half n =>
    have : m = n := Fin.ext (by simpa [toNat] using h)
    rw [this]
  | .char c, .half n => exact absurd h (apart c n)
  | .half n, .char c => exact absurd h.symm (apart c n)

end CodePoint

abbrev Text := List CodePoint

namespace Text

def ofChars (cs : List Char) : Text :=
  cs.map .char

def ofString (s : String) : Text :=
  ofChars s.toList

instance : Coe String Text := ⟨ofString⟩

-- The characters of a text that is made of nothing else.
def chars? : Text → Option (List Char)
  | [] => some []
  | .char c :: rest => (chars? rest).map (c :: ·)
  | .half _ :: _ => none

@[simp]
theorem chars?_ofChars (cs : List Char) : chars? (ofChars cs) = some cs := by
  induction cs with
  | nil => rfl
  | cons c cs ih =>
    simp only [ofChars, List.map_cons, chars?] at ih ⊢
    rw [ih]
    rfl

theorem chars?_eq_some_iff {t : Text} {cs : List Char} : chars? t = some cs ↔ t = ofChars cs := by
  refine ⟨fun h => ?_, fun h => h ▸ chars?_ofChars cs⟩
  induction t generalizing cs with
  | nil =>
    cases h
    rfl
  | cons c t ih =>
    cases c with
    | half => cases h
    | char c =>
      obtain ⟨cs, hc, rfl⟩ := Option.map_eq_some_iff.mp h
      rw [ih hc]
      rfl

-- The order of the first code points that differ; a proper beginning comes first.
def order : Text → Text → Ordering
  | [], [] => .eq
  | [], _ :: _ => .lt
  | _ :: _, [] => .gt
  | x :: xs, y :: ys =>
    if x.toNat < y.toNat then .lt else if y.toNat < x.toNat then .gt else order xs ys

end Text

end AddressSpace
