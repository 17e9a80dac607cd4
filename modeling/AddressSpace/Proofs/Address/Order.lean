import AddressSpace.Allocator
import AddressSpace.Proofs.Interval

/-!
The order of octets from left to right is the order of their values, as long as the lengths are the same. So
what is next to an address, what is apart from it, what lies in a stretch and how much the stretch takes in
can all be read off the values.
-/

namespace AddressSpace

theorem Address.order_eq_compare {a b : Address} (h : a.length = b.length) :
    a.order b = compare a.value b.value := by
  rw [Nat.compare_eq_ite_lt]
  exact Octets.order_eq_compare h

namespace Allocator

variable {i : Interval} {x : Address}

theorem inside_eq_ok (hi : i.first.length = i.last.length) (hx : x.length = i.first.length) :
    inside i x = .ok (decide (i.first.value ≤ x.value ∧ x.value ≤ i.last.value)) := by
  simp only [inside, if_pos hx, Interval.spans, Address.le_iff_value_le hx.symm,
    Address.le_iff_value_le (hx.trans hi), Bool.decide_and]

-- An address of another length than that of the bounds is refused, and so it lies in no stretch.
theorem inside_eq_ok_true_iff : inside i x = .ok true ↔ x ∈ i.addresses := by
  rw [inside, Interval.mem_addresses]
  split
  case isTrue h  => simp [h, Interval.spans]
  case isFalse h => simp [h]

end Allocator

-- Addresses of one length are ordered as their values. An address meets another one just when the values
-- follow each other, and is short of it just when there are values in between. A stretch between bounds of one
-- length holds the addresses of that length whose values lie between those of the bounds, and its size is
-- their count, as long as the bounds are in order.
theorem Address.order_is_numeric (a b : Address) :
    (a.length = b.length → a.order b = compare a.value b.value)
    ∧ (a.meets b ↔ a.length = b.length ∧ b.value = a.value + 1)
    ∧ (a.length = b.length → (a.isShortOf b ↔ a.value + 1 < b.value))
    ∧ (a.length = b.length → ∀ x : Address, x.length = a.length →
      Allocator.inside { first := a, last := b } x = .ok (decide (a.value ≤ x.value ∧ x.value ≤ b.value)))
    ∧ (a.length = b.length → a ≤ b → ∃ within : Finset Address,
      (∀ x, x ∈ within ↔ Allocator.inside { first := a, last := b } x = .ok true)
      ∧ Interval.size { first := a, last := b } = within.card) := by
  refine ⟨order_eq_compare, meets_iff, isShortOf_iff, fun h x hx => Allocator.inside_eq_ok h hx, ?_⟩
  intro h hle
  have hf : Interval.Fits a.length { first := a, last := b } :=
    ⟨rfl, h.symm, (le_iff_value_le h).mp hle⟩
  exact ⟨_, fun _ => Allocator.inside_eq_ok_true_iff.symm, hf.card_addresses.symm⟩

end AddressSpace
