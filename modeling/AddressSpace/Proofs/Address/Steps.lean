import AddressSpace.Proofs.Address.Value
import Mathlib.Algebra.Order.Ring.Nat

/-!
Steps up and down on the addresses of a length. A step adds or takes away one, modulo the count of these
addresses, and tells whether it wrapped around. A step up and a step down undo each other, and where one
of them wraps around, so does the other one.
-/

namespace AddressSpace

namespace Octets

theorem space_eq_pow (length : Nat) : space length = 256 ^ length := by
  induction length
  case zero           => rfl
  case succ length hi => rw [space, hi, Nat.pow_succ']

-- The carry turns the same octets from 255 to 0 that the borrow turns back.
theorem pred_succ (xs : List UInt8) : pred (succ xs).1 = (xs, (succ xs).2) := by
  induction xs
  case nil => rfl
  case cons x xs hi =>
    rcases hs : succ xs with ⟨ys, _ | _⟩
    case false => simp_all [succ, pred]
    case true =>
      have hp : pred ys = (xs, true) := by simpa [hs] using hi
      by_cases hx : x = 255
      case pos => simp [succ, hs, pred, hp, hx]
      case neg =>
        have hx : x + 1 ≠ 0 := fun h => hx (by grind)
        simp_all [succ, pred]

theorem succ_pred (xs : List UInt8) : succ (pred xs).1 = (xs, (pred xs).2) := by
  induction xs
  case nil => rfl
  case cons x xs hi =>
    rcases hp : pred xs with ⟨ys, _ | _⟩
    case false => simp_all [succ, pred]
    case true =>
      have hs : succ ys = (xs, true) := by simpa [hp] using hi
      by_cases hx : x = 0
      case pos => simp [succ, hs, pred, hp, hx]
      case neg =>
        have hx : x - 1 ≠ 255 := fun h => hx (by grind)
        simp_all [succ, pred]

end Octets

namespace Address

-- A step up wraps around at the last address of the length, to the first one.
theorem next_cases (a : Address) :
    (a.next.2 = false ∧ a.next.1.value = a.value + 1 ∧ a.value + 1 < Octets.space a.length)
    ∨ (a.next.2 = true ∧ a.next.1.value = 0 ∧ a.value + 1 = Octets.space a.length) := by
  have hn := a.next.1.value_lt
  have ha := a.value_lt
  have hv := a.value_next
  rw [length_next] at hn
  cases hw : a.next.2 <;> simp only [hw, Bool.false_eq_true, if_true, if_false] at hv
  case false => exact .inl ⟨rfl, by omega⟩
  case true  => exact .inr ⟨rfl, by omega⟩

-- A step down wraps around at the first address of the length, to the last one.
theorem previous_cases (a : Address) :
    (a.previous.2 = false ∧ a.previous.1.value + 1 = a.value)
    ∨ (a.previous.2 = true ∧ a.value = 0 ∧ a.previous.1.value + 1 = Octets.space a.length) := by
  have hp := a.previous.1.value_lt
  have hv := a.value_previous
  rw [length_previous] at hp
  cases hw : a.previous.2 <;> simp only [hw, Bool.false_eq_true, if_true, if_false] at hv
  case false => exact .inl ⟨rfl, hv⟩
  case true  => exact .inr ⟨rfl, by omega⟩

theorem next_wraps_iff (a : Address) : a.next.2 ↔ a.value + 1 = Octets.space a.length := by
  rcases a.next_cases with ⟨hw, _, hlt⟩ | ⟨hw, _, he⟩
  · simp [hw, hlt.ne]
  · simp [hw, he]

theorem previous_wraps_iff (a : Address) : a.previous.2 ↔ a.value = 0 := by
  rcases a.previous_cases with ⟨hw, hv⟩ | ⟨hw, h₀, _⟩
  · simp [hw, ← hv]
  · simp [hw, h₀]

theorem value_next_mod (a : Address) : a.next.1.value = (a.value + 1) % Octets.space a.length := by
  rcases a.next_cases with ⟨_, hv, hlt⟩ | ⟨_, hv, he⟩
  · rw [hv, Nat.mod_eq_of_lt hlt]
  · rw [hv, he, Nat.mod_self]

theorem value_previous_mod (a : Address) :
    (a.previous.1.value : Int) = ((a.value : Int) - 1) % Octets.space a.length := by
  have hlt := a.value_lt
  rcases a.previous_cases with ⟨_, hv⟩ | ⟨_, h₀, hv⟩
  · rw [Int.emod_eq_of_lt (by omega) (by omega)]
    omega
  · rw [← Int.add_emod_right, Int.emod_eq_of_lt (by omega) (by omega)]
    omega

theorem previous_next (a : Address) : a.next.1.previous = (a, a.next.2) := by
  simp [next, previous, Octets.pred_succ]

theorem next_previous (a : Address) : a.previous.1.next = (a, a.previous.2) := by
  simp [next, previous, Octets.succ_pred]

-- On the addresses of a length, a step up is addition of one and a step down is subtraction of one, modulo
-- their count. A step wraps around at the one end that it leads out of; the step back wraps around with it,
-- and leads back to the same octets.
theorem steps_modulo_space (a : Address) :
    let space := 256 ^ a.length
    (a.next.1.length = a.length ∧ a.next.1.value = (a.value + 1) % space
      ∧ (a.next.2 ↔ a.value = space - 1))
    ∧ (a.previous.1.length = a.length ∧ (a.previous.1.value : Int) = ((a.value : Int) - 1) % space
      ∧ (a.previous.2 ↔ a.value = 0))
    ∧ a.next.1.previous = (a, a.next.2) ∧ a.previous.1.next = (a, a.previous.2) := by
  intro space
  have hs : Octets.space a.length = space := Octets.space_eq_pow a.length
  have hlt : a.value < space := hs ▸ a.value_lt
  have hw : a.next.2 ↔ a.value = space - 1 := by
    rw [next_wraps_iff, hs]
    omega
  refine ⟨⟨length_next a, ?_, hw⟩, ⟨length_previous a, ?_, previous_wraps_iff a⟩, previous_next a,
    next_previous a⟩
  · rw [value_next_mod, hs]
  · rw [value_previous_mod, hs]

-- The carry and the borrow go through all octets, or through none at all.
example : next ⟨[255, 255]⟩ = (⟨[0, 0]⟩, true) ∧ previous ⟨[1, 0, 0]⟩ = (⟨[0, 255, 255]⟩, false)
    ∧ next ⟨[]⟩ = (⟨[]⟩, true) := by
  decide

end Address

end AddressSpace
