import AddressSpace.Interval
import AddressSpace.Proofs.Address.Value
import Mathlib.Data.Finset.Card
import Mathlib.Data.Finset.Union
import Mathlib.Order.Interval.Finset.Nat

/-!
Stretches as sets of addresses: how many addresses a stretch takes in, and what becomes of them when
two stretches are joined or one is taken out of another.
-/

namespace AddressSpace

namespace Address

-- The addresses of a length.
def all (length : Nat) : Finset Address :=
  (Finset.range (Octets.space length)).image (ofValue length)

@[simp]
theorem mem_all {a : Address} {length : Nat} : a ∈ all length ↔ a.length = length := by
  simp only [all, Finset.mem_image, Finset.mem_range]
  constructor
  · rintro ⟨n, -, rfl⟩
    exact length_ofValue length n
  · rintro rfl
    exact ⟨a.value, a.value_lt, ofValue_value a⟩

end Address

namespace Interval

variable {i j cut : Interval} {a : Address} {octetCount : Nat}

-- The addresses from the first to the last one that have the length of the bounds. Addresses of
-- another length may lie between the bounds in the order of octets, and are not meant.
def addresses (i : Interval) : Finset Address :=
  (Address.all i.first.length).filter fun a => i.first ≤ a ∧ a ≤ i.last

@[simp]
theorem mem_addresses :
    a ∈ i.addresses ↔ a.length = i.first.length ∧ i.first ≤ a ∧ a ≤ i.last := by
  simp [addresses]

-- A stretch of addresses of a length, with its bounds in order.
structure Fits (octetCount : Nat) (i : Interval) : Prop where
  first : i.first.length = octetCount
  last  : i.last.length = octetCount
  le    : i.first.value ≤ i.last.value

theorem fits_iff : i.Fits octetCount ↔ i.first.length = octetCount ∧ i.Proper := by
  constructor
  · intro ⟨hf, hl, hle⟩
    have h : i.first.length = i.last.length := hf.trans hl.symm
    exact ⟨hf, h, (Address.le_iff_value_le h).mpr hle⟩
  · intro ⟨hf, h, hle⟩
    exact ⟨hf, h ▸ hf, (Address.le_iff_value_le h).mp hle⟩

namespace Fits

theorem length_eq (h : i.Fits octetCount) : i.first.length = i.last.length :=
  h.first.trans h.last.symm

theorem mem_iff (h : i.Fits octetCount) : a ∈ i.addresses ↔
    a.length = octetCount ∧ i.first.value ≤ a.value ∧ a.value ≤ i.last.value := by
  rw [mem_addresses, h.first]
  refine and_congr_right fun ha => ?_
  rw [Address.le_iff_value_le (h.first.trans ha.symm), Address.le_iff_value_le (ha.trans h.last.symm)]

theorem first_mem (h : i.Fits octetCount) : i.first ∈ i.addresses :=
  h.mem_iff.mpr ⟨h.first, le_rfl, h.le⟩

theorem last_mem (h : i.Fits octetCount) : i.last ∈ i.addresses :=
  h.mem_iff.mpr ⟨h.last, h.le, le_rfl⟩

-- One stretch lies within another just when its bounds do.
theorem addresses_subset_iff (hi : i.Fits octetCount) (hj : j.Fits octetCount) :
    i.addresses ⊆ j.addresses ↔ j.first.value ≤ i.first.value ∧ i.last.value ≤ j.last.value := by
  constructor
  · intro h
    have hf := hj.mem_iff.mp (h hi.first_mem)
    have hl := hj.mem_iff.mp (h hi.last_mem)
    exact ⟨hf.right.left, hl.right.right⟩
  · intro ⟨hf, hl⟩ a ha
    have ⟨hn, ha, hb⟩ := hi.mem_iff.mp ha
    exact hj.mem_iff.mpr ⟨hn, hf.trans ha, hb.trans hl⟩

theorem value_lt (h : i.Fits octetCount) : i.last.value < Octets.space octetCount :=
  h.last ▸ i.last.value_lt

theorem size_eq (h : i.Fits octetCount) : i.size = (i.last.value + 1 - i.first.value : Nat) := by
  have := h.le
  simp only [size, Address.count]
  omega

theorem addresses_eq_image (h : i.Fits octetCount) : i.addresses
    = (Finset.Icc i.first.value i.last.value).image (Address.ofValue octetCount) := by
  have hlt := h.value_lt
  ext a
  rw [h.mem_iff, Finset.mem_image]
  constructor
  · rintro ⟨rfl, ha⟩
    exact ⟨a.value, Finset.mem_Icc.mpr ha, Address.ofValue_value a⟩
  · rintro ⟨n, hn, rfl⟩
    rw [Finset.mem_Icc] at hn
    rw [Address.value_ofValue (by omega)]
    exact ⟨Address.length_ofValue .., hn⟩

theorem card_addresses (h : i.Fits octetCount) : (i.addresses.card : Int) = i.size := by
  have hlt := h.value_lt
  rw [h.addresses_eq_image, Finset.card_image_of_injOn, Nat.card_Icc, h.size_eq]
  intro m hm n hn he
  simp only [Finset.coe_Icc, Set.mem_Icc] at hm hn
  have hv := congrArg Address.value he
  rwa [Address.value_ofValue (by omega), Address.value_ofValue (by omega)] at hv

end Fits

-- Stretches with their bounds in reverse take in no addresses.
theorem addresses_eq_empty (h : i.first.length = i.last.length) (hr : i.last < i.first) :
    i.addresses = ∅ := by
  rw [Address.lt_iff_value_lt h.symm] at hr
  refine Finset.eq_empty_of_forall_notMem fun a ha => ?_
  have ⟨hl, h₁, h₂⟩ := mem_addresses.mp ha
  rw [Address.le_iff_value_le hl.symm] at h₁
  rw [Address.le_iff_value_le (hl.trans h)] at h₂
  omega

theorem addresses_single (a : Address) : addresses { first := a, last := a } = {a} := by
  have h : Fits a.length { first := a, last := a } := ⟨rfl, rfl, le_rfl⟩
  ext b
  rw [h.mem_iff, Finset.mem_singleton]
  constructor
  · intro ⟨hl, h₁, h₂⟩
    exact Address.eq_of_value_eq hl (le_antisymm h₂ h₁)
  · rintro rfl
    exact ⟨rfl, le_rfl, le_rfl⟩

/-! ### Joining -/

theorem Fits.hull (hi : i.Fits octetCount) (hj : j.Fits octetCount) :
    (i.hull j).Fits octetCount where
  first := (Address.length_lower (hi.first.trans hj.first.symm)).trans hi.first
  last  := (Address.length_upper (hi.last.trans hj.last.symm)).trans hi.last
  le    := by
    have := hi.le
    simp only [Interval.hull, Address.value_lower (hi.first.trans hj.first.symm),
      Address.value_upper (hi.last.trans hj.last.symm)]
    omega

-- Nothing lies between stretches that overlap or meet, so the hull adds no address.
theorem addresses_hull (hi : i.Fits octetCount) (hj : j.Fits octetCount)
    (h₁ : ¬ j.last.isShortOf i.first) (h₂ : ¬ i.last.isShortOf j.first) :
    (i.hull j).addresses = i.addresses ∪ j.addresses := by
  rw [Address.isShortOf_iff (hj.last.trans hi.first.symm)] at h₁
  rw [Address.isShortOf_iff (hi.last.trans hj.first.symm)] at h₂
  have := hi.le
  have := hj.le
  ext a
  rw [Finset.mem_union, (hi.hull hj).mem_iff, hi.mem_iff, hj.mem_iff]
  simp only [hull, Address.value_lower (hi.first.trans hj.first.symm),
    Address.value_upper (hi.last.trans hj.last.symm)]
  omega

/-! ### Taking out -/

theorem overlaps_iff (hi : i.Fits octetCount) (hc : cut.Fits octetCount) :
    i.overlaps cut ↔ i.first.value ≤ cut.last.value ∧ cut.first.value ≤ i.last.value := by
  simp only [overlaps, Address.lt_iff_value_lt (hi.last.trans hc.first.symm),
    Address.lt_iff_value_lt (hc.last.trans hi.first.symm), Bool.not_eq_true', Bool.or_eq_false_iff,
    decide_eq_false_iff_not, Nat.not_lt]
  exact and_comm

theorem overlaps_iff_not_disjoint (hi : i.Fits octetCount) (hc : cut.Fits octetCount) :
    i.overlaps cut ↔ ¬ Disjoint i.addresses cut.addresses := by
  have := hi.le
  have := hc.le
  rw [overlaps_iff hi hc, Finset.not_disjoint_iff]
  constructor
  -- The higher one of the two first addresses lies in both.
  · intro ⟨h₁, h₂⟩
    cases Nat.le_total i.first.value cut.first.value
    case inl h => exact ⟨cut.first, hi.mem_iff.mpr ⟨hc.first, h, h₂⟩, hc.first_mem⟩
    case inr h => exact ⟨i.first, hi.first_mem, hc.mem_iff.mpr ⟨hi.first, h, h₁⟩⟩
  · rintro ⟨a, ha, hb⟩
    have := hi.mem_iff.mp ha
    have := hc.mem_iff.mp hb
    omega

theorem minus_of_not_overlaps (h : ¬ i.overlaps cut) : i.minus cut = [i] := by
  simp [minus, h]

-- What lies below the cut, if anything does.
def below (i cut : Interval) : Interval :=
  { first := i.first, last := cut.first.previous.1 }

-- What lies above the cut, if anything does.
def above (i cut : Interval) : Interval :=
  { first := cut.last.next.1, last := i.last }

theorem minus_of_overlaps (hi : i.Fits octetCount) (hc : cut.Fits octetCount)
    (h : i.overlaps cut) : i.minus cut
      = (if i.first.value < cut.first.value then [i.below cut] else [])
        ++ (if cut.last.value < i.last.value then [i.above cut] else []) := by
  simp only [minus, h, if_true, below, above,
    Address.lt_iff_value_lt (hi.first.trans hc.first.symm),
    Address.lt_iff_value_lt (hc.last.trans hi.last.symm)]

theorem value_last_below (h : i.first.value < cut.first.value) :
    (i.below cut).last.value + 1 = cut.first.value :=
  Address.value_previous_of_lt h

theorem value_first_above (hi : i.Fits octetCount) (hc : cut.Fits octetCount)
    (h : cut.last.value < i.last.value) : (i.above cut).first.value = cut.last.value + 1 :=
  Address.value_next_of_lt (hc.last.trans hi.last.symm) h

theorem Fits.below (hi : i.Fits octetCount) (hc : cut.Fits octetCount)
    (h : i.first.value < cut.first.value) : (i.below cut).Fits octetCount where
  first := hi.first
  last  := (Address.length_previous _).trans hc.first
  le    := by
    have := value_last_below h
    simp only [Interval.below] at this ⊢
    omega

theorem Fits.above (hi : i.Fits octetCount) (hc : cut.Fits octetCount)
    (h : cut.last.value < i.last.value) : (i.above cut).Fits octetCount where
  first := (Address.length_next _).trans hc.last
  last  := hi.last
  le    := by
    have := value_first_above hi hc h
    simp only [Interval.above] at this ⊢
    omega

end Interval

end AddressSpace
