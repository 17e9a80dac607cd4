import AddressSpace.Proofs.FreeList.Canonical
import Mathlib.Combinatorics.Enumerative.DoubleCounting

/-!
Canonical free lists are as short as can be. Between two stretches of a canonical list an address is
missing, so no stretch of free addresses reaches into both; and a list of stretches with the same
addresses needs at least one for each.
-/

namespace AddressSpace

namespace Interval

variable {i : Interval} {a b c : Address}

-- A stretch leaves nothing out between two addresses of one length.
theorem mem_addresses_of_between (ha : a ∈ i.addresses) (hc : c ∈ i.addresses)
    (h : b.length = a.length) (hab : a.value ≤ b.value) (hbc : b.value ≤ c.value) :
    b ∈ i.addresses := by
  have ⟨hla, hfa, _⟩ := mem_addresses.mp ha
  have ⟨hlc, _, hcl⟩ := mem_addresses.mp hc
  have hab : a ≤ b := (Address.le_iff_value_le h.symm).mpr hab
  have hbc : b ≤ c := (Address.le_iff_value_le (h.trans (hla.trans hlc.symm))).mpr hbc
  exact mem_addresses.mpr ⟨h.trans hla, Address.le_trans hfa hab, Address.le_trans hbc hcl⟩

end Interval

namespace FreeList.Canonical

variable {octetCount : Nat} {l : FreeList} {i j k : Interval} {a : Address}

-- Of two stretches of a list, one lies behind the other one with a gap between them.
theorem apart_of_ne (c : l.Canonical octetCount) (hi : i ∈ l) (hj : j ∈ l) (h : i ≠ j) :
    i.last.value + 1 < j.first.value ∨ j.last.value + 1 < i.first.value := by
  have hp : l.Pairwise fun i j =>
      i.last.value + 1 < j.first.value ∨ j.last.value + 1 < i.first.value := c.apart.imp .inl
  have : Std.Symm fun i j : Interval =>
      i.last.value + 1 < j.first.value ∨ j.last.value + 1 < i.first.value := ⟨fun _ _ => Or.symm⟩
  exact hp.forall hi hj h

-- The address behind a stretch is not free.
theorem notMem_of_value_eq (c : l.Canonical octetCount) (hi : i ∈ l)
    (hv : a.value = i.last.value + 1) : a ∉ l.addresses := by
  intro ha
  have ⟨j, hj, ha⟩ := mem_addresses.mp ha
  have hf := c.fits hi
  have hm := (c.fits hj).mem_iff.mp ha
  by_cases h : i = j
  case pos => subst h; omega
  case neg =>
    have := hf.le
    cases c.apart_of_ne hi hj h <;> omega

-- A stretch of free addresses reaches into no more than one stretch of the list.
theorem eq_of_first_mem (c : l.Canonical octetCount) (hk : k.addresses ⊆ l.addresses) (hi : i ∈ l)
    (hj : j ∈ l) (hik : i.first ∈ k.addresses) (hjk : j.first ∈ k.addresses) : i = j := by
  -- The stretch would also take in the address behind the lower one of the two.
  have hlow {i j : Interval} (hi : i ∈ l) (hj : j ∈ l) (hik : i.first ∈ k.addresses)
      (hjk : j.first ∈ k.addresses) : ¬ i.last.value + 1 < j.first.value := by
    intro hlt
    have hf := c.fits hi
    have hle := hf.le
    have hbound := (c.fits hj).first ▸ j.first.value_lt
    let a := Address.ofValue octetCount (i.last.value + 1)
    have hv : a.value = i.last.value + 1 := Address.value_ofValue (by omega)
    have hl : a.length = i.first.length := (Address.length_ofValue ..).trans hf.first.symm
    have ha := Interval.mem_addresses_of_between hik hjk hl (by omega) (by omega)
    exact c.notMem_of_value_eq hi hv (hk ha)
  by_contra h
  cases c.apart_of_ne hi hj h
  case inl hlt => exact hlow hi hj hik hjk hlt
  case inr hlt => exact hlow hj hi hjk hik hlt

theorem nodup (c : l.Canonical octetCount) : l.Nodup := by
  refine c.apart.imp_of_mem fun hi _ h he => ?_
  have := (c.fits hi).le
  subst he
  omega

-- Each stretch of the list starts in a stretch of the other one, and no two of them in the same.
theorem length_le (c : l.Canonical octetCount) (is : List Interval)
    (h : FreeList.addresses is = l.addresses) : l.length ≤ is.length := by
  have hcard : l.toFinset.card ≤ is.toFinset.card := by
    refine Finset.card_le_card_of_forall_subsingleton (fun i k => i.first ∈ k.addresses) ?_ ?_
    · intro i hi
      have hi := List.mem_toFinset.mp hi
      have hm := mem_addresses.mpr ⟨i, hi, (c.fits hi).first_mem⟩
      have ⟨k, hk, hik⟩ := mem_addresses.mp (h ▸ hm)
      exact ⟨k, List.mem_toFinset.mpr hk, hik⟩
    · rintro k hk i ⟨hi, hik⟩ j ⟨hj, hjk⟩
      have hk : k.addresses ⊆ l.addresses := fun a ha =>
        h ▸ mem_addresses.mpr ⟨k, List.mem_toFinset.mp hk, ha⟩
      exact c.eq_of_first_mem hk (List.mem_toFinset.mp hi) (List.mem_toFinset.mp hj) hik hjk
  calc l.length
    _ = l.toFinset.card  := (List.toFinset_card_of_nodup c.nodup).symm
    _ ≤ is.toFinset.card := hcard
    _ ≤ is.length        := is.toFinset_card_le

end FreeList.Canonical

end AddressSpace
