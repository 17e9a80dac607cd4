import AddressSpace.Proofs.FreeList.Canonical
import Mathlib.Data.List.Sort

/-!
Free lists written out address by address, from the lowest upward. The addresses of a canonical list
come out in strictly ascending order, and there is only one such order of a set of addresses.
-/

namespace AddressSpace

-- No address is above itself, so none comes twice.
theorem Address.nodup_of_pairwise_value_lt {as : List Address}
    (h : as.Pairwise fun a b => a.value < b.value) : as.Nodup :=
  h.imp fun hlt he => (he ▸ hlt).false

namespace Interval

variable {i : Interval} {a : Address} {octetCount : Nat}

-- The addresses from the first to the last one, one by one.
def ascending (i : Interval) : List Address :=
  (List.range' i.first.value (i.last.value + 1 - i.first.value)).map
    (Address.ofValue i.first.length)

theorem Fits.mem_ascending (h : i.Fits octetCount) : a ∈ i.ascending ↔ a ∈ i.addresses := by
  have := h.le
  rw [h.addresses_eq_image, ascending, List.mem_map, Finset.mem_image, h.first]
  refine exists_congr fun n => and_congr_left fun _ => ?_
  rw [List.mem_range'_1, Finset.mem_Icc]
  omega

theorem Fits.pairwise_ascending (h : i.Fits octetCount) :
    i.ascending.Pairwise fun a b => a.value < b.value := by
  have hlt := h.value_lt
  rw [ascending, List.pairwise_map, h.first]
  refine List.Pairwise.imp_of_mem (fun hm hn hlt => ?_) (List.pairwise_lt_range' _)
  rw [List.mem_range'_1] at hm hn
  rwa [Address.value_ofValue (by omega), Address.value_ofValue (by omega)]

theorem ascending_single (a : Address) : ascending { first := a, last := a } = [a] := by
  simp [ascending, Address.ofValue_value]

end Interval

namespace FreeList

variable {octetCount : Nat} {l below above : FreeList} {a b : Address}

-- The free addresses one by one.
def ascending (l : FreeList) : List Address :=
  l.flatMap Interval.ascending

@[simp]
theorem ascending_singleton (i : Interval) : ascending [i] = i.ascending :=
  List.flatMap_singleton ..

namespace Canonical

theorem mem_ascending (c : l.Canonical octetCount) : a ∈ l.ascending ↔ a ∈ l.addresses := by
  rw [ascending, List.mem_flatMap, mem_addresses]
  exact exists_congr fun i => and_congr_right fun hi => (c.fits hi).mem_ascending

theorem pairwise_ascending (c : l.Canonical octetCount) :
    l.ascending.Pairwise fun a b => a.value < b.value := by
  refine List.pairwise_flatMap.mpr ⟨fun i hi => (c.fits hi).pairwise_ascending, ?_⟩
  refine c.apart.imp_of_mem fun hi hj h a ha b hb => ?_
  have := (c.fits hi).mem_iff.mp ((c.fits hi).mem_ascending.mp ha)
  have := (c.fits hj).mem_iff.mp ((c.fits hj).mem_ascending.mp hb)
  omega

theorem pairwise_lt_ascending (c : l.Canonical octetCount) : l.ascending.Pairwise (· < ·) := by
  refine c.pairwise_ascending.imp_of_mem fun ha hb h => ?_
  have ha := c.length_of_mem (c.mem_ascending.mp ha)
  have hb := c.length_of_mem (c.mem_ascending.mp hb)
  exact (Address.lt_iff_value_lt (ha.trans hb.symm)).mpr h

-- A list in ascending order is determined by the addresses in it.
theorem ascending_eq {as : List Address} (c : l.Canonical octetCount)
    (h : as.Pairwise fun a b => a.value < b.value) (hm : ∀ a, a ∈ as ↔ a ∈ l.addresses) :
    l.ascending = as := by
  have hn := Address.nodup_of_pairwise_value_lt c.pairwise_ascending
  have hp := (List.perm_ext_iff_of_nodup hn (Address.nodup_of_pairwise_value_lt h)).mpr
    fun a => c.mem_ascending.trans (hm a).symm
  exact hp.eq_of_pairwise (fun a b _ _ hab hba => absurd hab hba.not_gt) c.pairwise_ascending h

theorem length_ascending (c : l.Canonical octetCount) : l.ascending.length = l.size := by
  have he : l.ascending.toFinset = l.addresses := by
    ext a
    rw [List.mem_toFinset, c.mem_ascending]
  have hn := Address.nodup_of_pairwise_value_lt c.pairwise_ascending
  rw [c.size_eq_card, ← he, List.toFinset_card_of_nodup hn]

-- Where a set of addresses falls into lower and higher ones, so does the list of them.
theorem ascending_eq_append (c : l.Canonical octetCount) (cb : below.Canonical octetCount)
    (ca : above.Canonical octetCount) (h : l.addresses = below.addresses ∪ above.addresses)
    (hlt : ∀ a ∈ below.addresses, ∀ b ∈ above.addresses, a.value < b.value) :
    l.ascending = below.ascending ++ above.ascending := by
  refine c.ascending_eq (List.pairwise_append.mpr ⟨cb.pairwise_ascending, ca.pairwise_ascending, ?_⟩)
    fun a => ?_
  · exact fun a ha b hb => hlt a (cb.mem_ascending.mp ha) b (ca.mem_ascending.mp hb)
  · rw [List.mem_append, cb.mem_ascending, ca.mem_ascending, h, Finset.mem_union]

end Canonical

end FreeList

end AddressSpace
