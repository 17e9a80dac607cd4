import AddressSpace.Proofs.FreeList.Ascending
import AddressSpace.Proofs.FreeList.Block
import AddressSpace.Proofs.FreeList.Edits
import Mathlib.Order.Bounds.Defs

/-!
Where a block of the lowest free addresses ends, counted from the lowest one upward: at the first
address, with enough of them in front, that is the last of its stretch or of a block of 256. What the
block leaves of the list starts right behind it.
-/

namespace AddressSpace

theorem Interval.length_ascending (i : Interval) :
    i.ascending.length = i.last.value + 1 - i.first.value := by
  simp [ascending]

theorem Interval.getElem?_ascending {i : Interval} {n : Nat} (h : n < i.ascending.length) :
    i.ascending[n]? = some (Address.ofValue i.first.length (i.first.value + n)) := by
  rw [length_ascending] at h
  simp [ascending, List.getElem?_range' h]

namespace FreeList

-- The address is the last one of a free stretch, or of a block of 256.
def Closes (l : FreeList) (a : Address) : Prop :=
  (∃ i ∈ l, i.last = a) ∨ a.octets.getLast? = some 255

-- Whole stretches, and one that is cut behind an address.
def upTo (whole : FreeList) (i : Interval) (stop : Address) : FreeList :=
  whole ++ [{ first := i.first, last := stop }]

-- What is left of a stretch that is cut behind an address.
def behind (i : Interval) (stop : Address) : FreeList :=
  if stop.value < i.last.value then [{ first := stop.next.1, last := i.last }] else []

-- A list that falls into the whole stretches of a block, the one that is cut to complete the block, and
-- those behind it.
structure BlockAt (octetCount : Nat) (l : FreeList) (needed : Nat) (whole : FreeList) (i : Interval)
    (rest : FreeList) (stop : Address) : Prop where
  eq        : l = whole ++ i :: rest
  canonical : l.Canonical octetCount
  lacking   : size whole < needed
  cut       : CutAt octetCount i (needed - size whole) stop

variable {octetCount needed : Nat} {l whole rest : FreeList} {i : Interval} {a stop : Address}

theorem exists_blockAt (c : l.Canonical octetCount) (h₀ : 0 < needed) (h : needed ≤ l.size) :
    ∃ whole i rest stop, BlockAt octetCount l needed whole i rest stop
      ∧ lowestBlock needed l = .ok (upTo whole i stop) :=
  have ⟨whole, i, rest, stop, he, hb, hlt, hcut⟩ := lowestBlock_eq_ok c (Int.natCast_pos.mpr h₀) h
  ⟨whole, i, rest, stop, ⟨he, c, hlt, hcut⟩, hb⟩

namespace BlockAt

section

variable (b : BlockAt octetCount l needed whole i rest stop)
include b

theorem split : Canonical octetCount (whole ++ i :: rest) :=
  b.eq ▸ b.canonical

theorem mem : i ∈ l :=
  b.eq ▸ List.mem_append_right whole (.head rest)

theorem fits : i.Fits octetCount :=
  b.canonical.fits b.mem

theorem first_le : i.first.value ≤ stop.value := by
  have := b.cut.enough
  have := b.lacking
  omega

theorem length_stop : stop.length = i.last.length :=
  b.cut.length.trans b.fits.last.symm

/-! ### What the block takes -/

theorem canonical_upTo : (upTo whole i stop).Canonical octetCount :=
  canonical_taken b.split b.cut.length b.first_le

theorem mem_upTo : a ∈ (upTo whole i stop).addresses ↔ a ∈ l.addresses ∧ a.value ≤ stop.value := by
  rw [b.eq]
  exact mem_addresses_taken b.split b.cut.length b.first_le b.cut.le

theorem length_whole : (whole.ascending.length : Int) = size whole :=
  (b.split.sublist (List.sublist_append_left ..)).length_ascending

/-! ### What the block leaves -/

theorem fits_behind (h : stop.value < i.last.value) :
    Interval.Fits octetCount { first := stop.next.1, last := i.last } where
  first := (Address.length_next stop).trans b.cut.length
  last  := b.fits.last
  le    := by
    have := Address.value_next_of_lt b.length_stop h
    simp only
    omega

theorem mem_behind : a ∈ (behind i stop).addresses ↔ a ∈ i.addresses ∧ stop.value < a.value := by
  have hf := b.first_le
  rw [behind, b.fits.mem_iff]
  split
  case isFalse => simp; omega
  case isTrue h =>
    have hv := Address.value_next_of_lt b.length_stop h
    rw [addresses_singleton, (b.fits_behind h).mem_iff]
    simp only [hv]
    omega

theorem canonical_left : Canonical octetCount (behind i stop ++ rest) := by
  have ci := b.split.sublist (List.sublist_append_right whole (i :: rest))
  have ⟨_, hl, cr⟩ := Canonical.cons_iff.mp ci
  rw [behind]
  split
  case isTrue h  => exact Canonical.cons_iff.mpr ⟨b.fits_behind h, hl, cr⟩
  case isFalse h => exact cr

theorem mem_left : a ∈ addresses (behind i stop ++ rest) ↔ a ∈ l.addresses ∧ stop.value < a.value := by
  have ci := b.split.sublist (List.sublist_append_right whole (i :: rest))
  have hw : a ∈ whole.addresses → a.value ≤ stop.value := fun ha =>
    (b.mem_upTo.mp (addresses_append ▸ Finset.mem_union_left _ ha)).right
  have hr : a ∈ rest.addresses → stop.value < a.value := fun ha => by
    have := ci.last_lt_of_mem_tail ha
    have := b.cut.le
    omega
  simp only [b.eq, addresses_append, addresses_cons, Finset.mem_union, b.mem_behind]
  constructor
  · rintro (⟨ha, h⟩ | ha)
    · exact ⟨.inr (.inl ha), h⟩
    · exact ⟨.inr (.inr ha), hr ha⟩
  · rintro ⟨ha | ha | ha, h⟩
    · exact absurd (hw ha) h.not_ge
    · exact .inl ⟨ha, h⟩
    · exact .inr ha

-- Taking the stretches of the block out of the list one by one leaves what lies behind it.
theorem foldl_remove_upTo : (upTo whole i stop).foldl (fun l i => remove i l) l = behind i stop ++ rest := by
  have hc : ∀ j ∈ upTo whole i stop, j.Fits octetCount := fun j hj => b.canonical_upTo.fits hj
  refine (canonical_foldl_remove b.canonical hc).ext b.canonical_left (Finset.ext fun a => ?_)
  rw [addresses_foldl_remove b.canonical hc, Finset.mem_sdiff, b.mem_upTo, b.mem_left]
  refine and_congr_right fun ha => ?_
  simp only [ha, true_and, not_le]

theorem ascending_eq : l.ascending = (upTo whole i stop).ascending ++ ascending (behind i stop ++ rest) := by
  refine b.canonical.ascending_eq_append b.canonical_upTo b.canonical_left (Finset.ext fun a => ?_) ?_
  · rw [Finset.mem_union, b.mem_upTo, b.mem_left, ← and_or_left, iff_self_and]
    exact fun _ => le_or_gt ..
  · intro x hx y hy
    have := (b.mem_upTo.mp hx).right
    have := (b.mem_left.mp hy).right
    omega

/-! ### Where it ends -/

theorem closes_stop : l.Closes stop := by
  cases b.cut.ends
  case inl h => exact .inl ⟨i, b.mem, (Address.eq_of_value_eq b.length_stop h).symm⟩
  case inr h =>
    have hp : 0 < stop.length := by
      by_contra h₀
      have := stop.value_lt
      simp only [Nat.eq_zero_of_not_pos h₀, Octets.space] at this
      omega
    exact .inr ((Address.getLast?_eq_some_iff hp).mpr h)

-- No address that completes the block ends a stretch or a block of 256 before the cut.
theorem not_closes (hl : a.length = octetCount) (hn : i.first.value + (needed - size whole) ≤ a.value + 1)
    (h : a.value < stop.value) : ¬ l.Closes a := by
  have hf := b.lacking
  have hle := b.cut.le
  rintro (⟨j, hj, rfl⟩ | ha)
  -- The end of a stretch lies in no other one, and the stretch that is cut ends behind the cut.
  · have hm : j.last ∈ i.addresses := b.fits.mem_iff.mpr ⟨hl, by omega, by omega⟩
    have he : i = j := by
      by_contra hne
      have hd := b.canonical.pairwise_disjoint.forall b.mem hj hne
      exact Finset.disjoint_left.mp hd hm (b.canonical.fits hj).last_mem
    subst he
    omega
  · exact b.cut.least a.value hn h (Address.value_mod_of_getLast? ha)

omit b in
theorem length_upTo : (upTo whole i stop).ascending.length
    = whole.ascending.length + (stop.value + 1 - i.first.value) := by
  simp [upTo, ascending, Interval.length_ascending]

-- The addresses of the stretch that is cut follow those of the whole stretches.
theorem getElem?_ascending {n : Nat} (h : i.first.value + n ≤ stop.value) :
    l.ascending[whole.ascending.length + n]? = some (Address.ofValue octetCount (i.first.value + n)) := by
  have hn : n < (Interval.ascending { first := i.first, last := stop }).length := by
    rw [Interval.length_ascending]
    simp only
    omega
  have hu : (upTo whole i stop).ascending
      = whole.ascending ++ Interval.ascending { first := i.first, last := stop } := by
    simp [upTo, ascending]
  rw [b.ascending_eq, hu, List.append_assoc, List.getElem?_append_right (Nat.le_add_right ..),
    Nat.add_sub_cancel_left, List.getElem?_append_left hn, Interval.getElem?_ascending hn, b.fits.first]

-- The block ends at the first address, with enough of them in front, that ends a stretch or a block of
-- 256.
theorem isLeast : IsLeast {n : Nat | needed ≤ n ∧ ∃ a, l.ascending[n - 1]? = some a ∧ l.Closes a}
    (upTo whole i stop).ascending.length := by
  have hw := b.length_whole
  have hlt := b.lacking
  have hen := b.cut.enough
  have hf := b.first_le
  rw [length_upTo]
  constructor
  case left =>
    refine ⟨by omega, stop, ?_, b.closes_stop⟩
    have hi : whole.ascending.length + (stop.value + 1 - i.first.value) - 1
        = whole.ascending.length + (stop.value - i.first.value) := by omega
    rw [hi, b.getElem?_ascending (by omega), Nat.add_sub_cancel' hf, ← b.cut.length, Address.ofValue_value]
  case right =>
    rintro n ⟨hn, a, ha, hc⟩
    by_contra hlt
    obtain ⟨m, rfl⟩ : ∃ m, n = whole.ascending.length + m + 1 :=
      ⟨n - 1 - whole.ascending.length, by omega⟩
    rw [Nat.add_sub_cancel, b.getElem?_ascending (by omega)] at ha
    cases ha
    have hv : (Address.ofValue octetCount (i.first.value + m)).value = i.first.value + m := by
      have := b.cut.le
      have := b.fits.value_lt
      exact Address.value_ofValue (by omega)
    exact b.not_closes (Address.length_ofValue ..) (by omega) (by omega) hc

-- At most 255 addresses are taken on top of those that are needed.
theorem length_upTo_le : (upTo whole i stop).ascending.length ≤ needed + 255 := by
  have hw := b.length_whole
  have hlt := b.lacking
  have hl := b.cut.least
  rw [length_upTo]
  by_contra h
  let n := (i.first.value + (needed - whole.ascending.length) - 1) / 256 * 256 + 255
  exact hl n (by omega) (by omega) (by omega)

end

end BlockAt

end FreeList

end AddressSpace
