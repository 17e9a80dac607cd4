import AddressSpace.Text.CodePoint

/-!
How much two texts have in common: the longest stretch that both hold, and what the texts before it
and behind it have in common in turn. A word that nobody knows is compared with those that are known.
-/

namespace AddressSpace.Text

variable {α : Type} [DecidableEq α]

def commonStart : List α → List α → Nat
  | x :: xs, y :: ys => if x = y then commonStart xs ys + 1 else 0
  | _, _ => 0

-- A place in each text and the length of the stretch that both hold there.
structure Stretch where
  left : Nat
  right : Nat
  size : Nat
  deriving DecidableEq, Repr

-- The longest stretch that both hold; of equally long ones the first in the first text, and then
-- the first in the second.
def longestCommon (xs ys : List α) : Stretch :=
  let places := (List.range xs.length).flatMap fun i => (List.range ys.length).map (i, ·)
  places.foldl
    (fun best (i, j) =>
      let size := commonStart (xs.drop i) (ys.drop j)
      if best.size < size then ⟨i, j, size⟩ else best)
    ⟨0, 0, 0⟩

def inCommon (xs ys : List α) : Nat :=
  match longestCommon xs ys with
  | ⟨left, right, size⟩ =>
    if _h : size = 0 ∨ xs.length < left + size then 0
    else
      size + inCommon (xs.take left) (ys.take right) +
        inCommon (xs.drop (left + size)) (ys.drop (right + size))
termination_by xs.length
decreasing_by
  all_goals
    simp only [not_or, Nat.not_lt] at _h
    simp only [List.length_take, List.length_drop]
    omega

-- At least three fifths of both texts are in common. The shorter text bounds what they have in
-- common.
def areClose (xs ys : List α) : Bool :=
  decide (3 * (xs.length + ys.length) ≤ 10 * min xs.length ys.length) &&
    decide (3 * (xs.length + ys.length) ≤ 10 * inCommon xs ys)

-- The first candidate shares a larger part with the word than the second; of equal parts, it comes
-- later in the order of texts.
def isCloser (word first second : Text) : Bool :=
  let left := inCommon first word * (second.length + word.length)
  let right := inCommon second word * (first.length + word.length)
  decide (right < left) || (decide (left = right) && decide (Text.order second first = .lt))

-- The three candidates at most that are closest to a word, the closest first.
def closeTo (word : Text) (candidates : List Text) : List Text :=
  ((candidates.filter (areClose · word)).mergeSort fun x y => !isCloser word y x).take 3

end AddressSpace.Text
