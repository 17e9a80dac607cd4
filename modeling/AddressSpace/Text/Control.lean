import AddressSpace.Text.CodePoint

/-!
Control sequences, which tell a terminal how to show a text and are not shown themselves. A sequence
is an escape, a bracket, codes from `0` to `?`, codes from the blank to `/`, and a last code from `@`
to `~`.
-/

namespace AddressSpace.Text

def isBetween (low high : Char) (c : CodePoint) : Bool :=
  decide (low.toNat ≤ c.toNat) && decide (c.toNat ≤ high.toNat)

-- What follows the control sequence that a text starts with.
def afterControl? : Text → Option Text
  | .char '\x1b' :: .char '[' :: body =>
    match (body.dropWhile (isBetween '0' '?')).dropWhile (isBetween ' ' '/') with
    | last :: rest => if isBetween '@' '~' last then some rest else none
    | [] => none
  | _ => none

theorem length_afterControl? {t rest : Text} (h : afterControl? t = some rest) :
    rest.length < t.length := by
  unfold afterControl? at h
  split at h
  · next body =>
    split at h
    · next last r hb =>
      split at h
      · have hr : r = rest := Option.some.inj h
        have outer := (List.dropWhile_sublist
          (l := body.dropWhile (isBetween '0' '?')) (isBetween ' ' '/')).length_le
        have inner := (List.dropWhile_sublist (l := body) (isBetween '0' '?')).length_le
        rw [hb] at outer
        simp only [List.length_cons] at outer ⊢
        rw [← hr]
        omega
      · simp at h
    · simp at h
  · simp at h

-- What a reader sees of a text: all but its control sequences.
def legible : Text → Text
  | [] => []
  | c :: rest =>
    match _h : afterControl? (c :: rest) with
    | some behind => legible behind
    | none => c :: legible rest
termination_by t => t.length
decreasing_by
  · exact length_afterControl? _h
  · simp

end AddressSpace.Text
