import AddressSpace.FreeList
import AddressSpace.Proofs.Interval

/-!
Canonical free lists as sets of addresses. A canonical list has as many addresses as its stretches have
together, and is determined by them: two canonical lists of the same addresses are the same list.
-/

namespace AddressSpace.FreeList

variable {octetCount : Nat} {l l' : FreeList} {i j : Interval} {a : Address}

def addresses (l : FreeList) : Finset Address :=
  l.toFinset.biUnion Interval.addresses

theorem mem_addresses : a ∈ l.addresses ↔ ∃ i ∈ l, a ∈ i.addresses := by
  simp [addresses]

@[simp]
theorem addresses_nil : addresses [] = ∅ :=
  rfl

@[simp]
theorem addresses_cons : addresses (i :: l) = i.addresses ∪ l.addresses := by
  simp [addresses, Finset.biUnion_insert]

@[simp]
theorem addresses_singleton : addresses [i] = i.addresses := by
  rw [addresses_cons, addresses_nil, Finset.union_empty]

@[simp]
theorem addresses_append : addresses (l ++ l') = l.addresses ∪ l'.addresses := by
  simp [addresses, Finset.union_biUnion]

namespace Canonical

theorem nil : Canonical octetCount [] :=
  ⟨nofun, .nil⟩

theorem fits (c : l.Canonical octetCount) (h : i ∈ l) : i.Fits octetCount :=
  Interval.fits_iff.mpr (c.proper i h)

theorem of_fits (hf : ∀ i ∈ l, i.Fits octetCount)
    (h : l.Pairwise fun i j => i.last.value + 1 < j.first.value) : l.Canonical octetCount :=
  ⟨fun i hi => Interval.fits_iff.mp (hf i hi), h⟩

theorem sublist (c : l.Canonical octetCount) (h : l'.Sublist l) : l'.Canonical octetCount :=
  ⟨fun i hi => c.proper i (h.subset hi), c.apart.sublist h⟩

theorem cons_iff : Canonical octetCount (i :: l) ↔
    i.Fits octetCount ∧ (∀ j ∈ l, i.last.value + 1 < j.first.value) ∧ l.Canonical octetCount := by
  constructor
  · intro c
    have ⟨h, ht⟩ := List.pairwise_cons.mp c.apart
    exact ⟨c.fits (.head _), h, fun j hj => c.proper j (.tail _ hj), ht⟩
  · intro ⟨hi, h, c⟩
    refine of_fits (fun j hj => ?_) (.cons h c.apart)
    cases hj
    case head       => exact hi
    case tail hj => exact c.fits hj

theorem length_of_mem (c : l.Canonical octetCount) (h : a ∈ l.addresses) : a.length = octetCount := by
  have ⟨_, hi, ha⟩ := mem_addresses.mp h
  exact (c.fits hi).mem_iff.mp ha |>.left

theorem covers_iff (c : l.Canonical octetCount) (h : a.length = octetCount) :
    l.covers a ↔ a ∈ l.addresses := by
  simp only [covers, List.any_eq_true, mem_addresses, Interval.spans, Interval.mem_addresses,
    Bool.and_eq_true, decide_eq_true_eq]
  constructor
  · rintro ⟨i, hi, ha⟩
    exact ⟨i, hi, h.trans (c.fits hi).first.symm, ha⟩
  · rintro ⟨i, hi, _, ha⟩
    exact ⟨i, hi, ha⟩

-- All addresses behind the first stretch are above it, and do not even meet it.
theorem last_lt_of_mem_tail (c : Canonical octetCount (i :: l)) (h : a ∈ l.addresses) :
    i.last.value + 1 < a.value := by
  have ⟨_, hl, ct⟩ := cons_iff.mp c
  have ⟨j, hj, ha⟩ := mem_addresses.mp h
  have := hl j hj
  have := (ct.fits hj).mem_iff.mp ha
  omega

theorem disjoint_tail (c : Canonical octetCount (i :: l)) : Disjoint i.addresses l.addresses := by
  have ⟨hi, _⟩ := cons_iff.mp c
  refine Finset.disjoint_left.mpr fun a ha hl => ?_
  have := c.last_lt_of_mem_tail hl
  have := hi.mem_iff.mp ha
  omega

theorem pairwise_disjoint (c : l.Canonical octetCount) :
    l.Pairwise fun i j => Disjoint i.addresses j.addresses := by
  refine c.apart.imp_of_mem fun hi hj h => Finset.disjoint_left.mpr fun a ha hb => ?_
  have := (c.fits hi).mem_iff.mp ha
  have := (c.fits hj).mem_iff.mp hb
  omega

theorem first_le (c : Canonical octetCount (i :: l)) (h : a ∈ addresses (i :: l)) :
    i.first.value ≤ a.value := by
  have ⟨hi, _⟩ := cons_iff.mp c
  cases Finset.mem_union.mp (addresses_cons ▸ h)
  case inl h => exact (hi.mem_iff.mp h).right.left
  case inr h =>
    have := hi.le
    have := c.last_lt_of_mem_tail h
    omega

-- The first stretch begins with the lowest address.
theorem first_lowest (c : Canonical octetCount (i :: l)) :
    i.first ∈ addresses (i :: l) ∧ ∀ a ∈ addresses (i :: l), i.first ≤ a := by
  have hi := c.fits (.head _)
  refine ⟨addresses_cons ▸ Finset.mem_union_left _ hi.first_mem, fun a ha => ?_⟩
  rw [Address.le_iff_value_le (hi.first.trans (c.length_of_mem ha).symm)]
  exact c.first_le ha

theorem size_eq_card (c : l.Canonical octetCount) : l.size = l.addresses.card := by
  induction l
  case nil => rfl
  case cons i l hi =>
    have ⟨h, _, ct⟩ := cons_iff.mp c
    rw [addresses_cons, Finset.card_union_of_disjoint c.disjoint_tail, Int.natCast_add,
      h.card_addresses, ← hi ct, size]

-- There are no more free addresses than addresses of the length.
theorem size_le_space (c : l.Canonical octetCount) : l.size ≤ Octets.space octetCount := by
  have hs : l.addresses ⊆ Address.all octetCount := fun _ ha => Address.mem_all.mpr (c.length_of_mem ha)
  have hc : (Address.all octetCount).card ≤ Octets.space octetCount :=
    Finset.card_image_le.trans (Finset.card_range _).le
  rw [c.size_eq_card, Int.ofNat_le]
  exact (Finset.card_le_card hs).trans hc

theorem addresses_eq_empty_iff (c : l.Canonical octetCount) : l.addresses = ∅ ↔ l = [] := by
  cases l
  case nil => simp
  case cons i l =>
    have h := (c.fits (.head _)).first_mem
    simp only [addresses_cons, reduceCtorEq, iff_false]
    exact Finset.ne_empty_of_mem (Finset.mem_union_left _ h)

/-! ### One list for a set of addresses -/

theorem addresses_tail (c : Canonical octetCount (i :: l)) :
    l.addresses = addresses (i :: l) \ i.addresses := by
  rw [addresses_cons, Finset.union_sdiff_cancel_left c.disjoint_tail]

-- The first stretch starts at the lowest address.
theorem first_eq (c : Canonical octetCount (i :: l)) (c' : Canonical octetCount (j :: l'))
    (h : addresses (i :: l) = addresses (j :: l')) : i.first = j.first := by
  have hi := c.fits (.head _)
  have hj := c'.fits (.head _)
  have h₁ := c'.first_le (h ▸ addresses_cons ▸ Finset.mem_union_left _ hi.first_mem)
  have h₂ := c.first_le (h ▸ addresses_cons ▸ Finset.mem_union_left _ hj.first_mem)
  exact Address.eq_of_value_eq (hi.first.trans hj.first.symm) (le_antisymm h₂ h₁)

-- The first stretch ends in front of the first address that is missing.
theorem last_le (c : Canonical octetCount (i :: l)) (c' : Canonical octetCount (j :: l'))
    (h : addresses (i :: l) = addresses (j :: l')) : i.last.value ≤ j.last.value := by
  have hi := c.fits (.head _)
  have hj := c'.fits (.head _)
  have hf := c.first_eq c' h
  by_contra hlt
  let a := Address.ofValue octetCount (j.last.value + 1)
  have hv : a.value = j.last.value + 1 := Address.value_ofValue (by have := hi.value_lt; omega)
  have ha : a ∈ i.addresses :=
    hi.mem_iff.mpr ⟨Address.length_ofValue .., by have := hf ▸ hj.le; omega, by omega⟩
  have ha : a ∈ addresses (j :: l') := h ▸ addresses_cons ▸ Finset.mem_union_left _ ha
  cases Finset.mem_union.mp (addresses_cons ▸ ha)
  case inl ha =>
    have := hj.mem_iff.mp ha
    omega
  case inr ha =>
    have := c'.last_lt_of_mem_tail ha
    omega

theorem ext (c : l.Canonical octetCount) (c' : l'.Canonical octetCount)
    (h : l.addresses = l'.addresses) : l = l' := by
  induction l generalizing l'
  case nil => exact (c'.addresses_eq_empty_iff.mp h.symm).symm
  case cons i l hi =>
    cases l'
    case nil => exact c.addresses_eq_empty_iff.mp h
    case cons j l' =>
      have hl : i.last = j.last := by
        refine Address.eq_of_value_eq ?_ (le_antisymm (c.last_le c' h) (c'.last_le c h.symm))
        exact (c.fits (.head _)).last.trans (c'.fits (.head _)).last.symm
      have he : i = j := congrArg₂ Interval.mk (c.first_eq c' h) hl
      subst he
      have ht : addresses l = addresses l' := by rw [c.addresses_tail, c'.addresses_tail, h]
      rw [hi (cons_iff.mp c).right.right (cons_iff.mp c').right.right ht]

end Canonical

end AddressSpace.FreeList
