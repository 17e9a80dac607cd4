import AddressSpace.Proofs.Allocator.Edits
import AddressSpace.Proofs.Pool.Routing

/-!
What is handed out is removed. Stretches that are free and apart may be removed one by one in any order;
each removal finds all of its stretch, and together they leave what is left when the stretches are handed
out at once.
-/

namespace AddressSpace.Allocator

-- The call removes a stretch, however it names the bounds.
def Call.Removes (c : Call) (i : Interval) : Prop :=
  ∃ first last, c = .remove first last ∧ stretch first last = .ok i

variable {t : Allocator} {octetCount : Nat} {i : Interval} {is order taken : FreeList}
variable {c : Call} {calls : List Call}

theorem removes_octets (hi : i.Fits octetCount) (h : 0 < octetCount) :
    (Call.remove (.octets i.first) (.octets i.last)).Removes i :=
  ⟨_, _, rfl, stretch_octets hi.length_eq (hi.first ▸ h)⟩

theorem perform_of_removes (h : t.Admits octetCount) (hi : i.Fits octetCount) (hr : c.Removes i) :
    t.outcome c = .ok (.flag (t.free.overlaps i)) ∧ t.after c = t.without [i] := by
  obtain ⟨first, last, rfl, hn⟩ := hr
  exact perform_removing h { first, last, named := i, names := hn, fits := hi }

-- Stretches that are free and have no address in common are all found when they are removed one by one.
theorem run_of_removes (ck : t.free.Canonical octetCount) (h : t.Admits octetCount)
    (hi : ∀ i ∈ is, i.Fits octetCount) (hf : ∀ i ∈ is, i.addresses ⊆ t.free.addresses)
    (hd : is.Pairwise fun i j => Disjoint i.addresses j.addresses) (hr : List.Forall₂ Call.Removes calls is) :
    (∀ e ∈ t.history calls, e.outcome = .ok (.flag true)) ∧ t.run calls = t.without is := by
  induction hr generalizing t
  case nil => exact ⟨by simp [history], rfl⟩
  case cons c i calls is hc _ ih =>
    obtain ⟨hi, his⟩ := List.forall_mem_cons.mp hi
    obtain ⟨hf, hfs⟩ := List.forall_mem_cons.mp hf
    obtain ⟨hd, hds⟩ := List.pairwise_cons.mp hd
    obtain ⟨ho, ha⟩ := perform_of_removes h hi hc
    have hov := FreeList.overlaps_of_mem ck hi (hf hi.first_mem) hi.first_mem
    -- What is behind in the list is still free.
    have hleft : ∀ j ∈ is, j.addresses ⊆ (t.without [i]).free.addresses := fun j hj x hx => by
      have hx' := Finset.disjoint_right.mp (hd j hj) hx
      simpa [without, FreeList.addresses_remove ck hi, hx'] using hfs j hj hx
    obtain ⟨ho', ha'⟩ := ih (t := t.without [i]) (FreeList.canonical_remove ck hi) h his hleft hds
    rw [hov] at ho
    refine ⟨List.forall_mem_cons.mpr ⟨ho, ha ▸ ho'⟩, ?_⟩
    show (t.after c).run calls = _
    rw [ha, ha']
    rfl

theorem without_perm (hc : t.Canonical) (ck : t.free.Canonical octetCount) (hi : ∀ i ∈ is, i.Fits octetCount)
    (hp : order.Perm is) : t.without order = t.without is := by
  have ho : ∀ i ∈ order, i.Fits octetCount := fun i h => hi i (hp.mem_iff.mp h)
  have ha : order.addresses = is.addresses := by
    ext x
    simp only [FreeList.mem_addresses, hp.mem_iff]
  refine (hc.without ck ho).eq_of_addressSet (hc.without ck hi) rfl ?_
  rw [addressSet_without order ck ho, addressSet_without is ck hi, ha]

-- Stretches that are free and in order are removed one by one, in whatever order, as they are at once.
theorem run_of_removes_perm (hc : t.Canonical) (ck : t.free.Canonical octetCount) (h : t.Admits octetCount)
    (ct : taken.Canonical octetCount) (hf : taken.addresses ⊆ t.free.addresses) (hp : order.Perm taken)
    (hr : List.Forall₂ Call.Removes calls order) :
    (∀ e ∈ t.history calls, e.outcome = .ok (.flag true)) ∧ t.run calls = t.without taken := by
  have hi : ∀ i ∈ order, i.Fits octetCount := fun i hm => ct.fits (hp.mem_iff.mp hm)
  have hs : ∀ i ∈ order, i.addresses ⊆ t.free.addresses := fun i hm x hx =>
    hf (FreeList.mem_addresses.mpr ⟨i, hp.mem_iff.mp hm, hx⟩)
  have hd : order.Pairwise fun i j => Disjoint i.addresses j.addresses :=
    ct.pairwise_disjoint.perm hp.symm fun hd => hd.symm
  rw [← without_perm hc ck (fun i hm => ct.fits hm) hp]
  exact run_of_removes ck h hi hs hd hr

/-! ### Requests -/

-- An allocator with free addresses is fixed to their length.
theorem exists_admits (hc : t.Canonical) (hf : t.free ≠ []) :
    ∃ octetCount, t.free.Canonical octetCount ∧ t.Admits octetCount :=
  have ⟨k, ck, hl⟩ := canonical_iff.mp hc
  ⟨k, ck, .inr (hl hf)⟩

theorem take_of_free_ne_nil (ck : t.free.Canonical octetCount) (hf : t.free ≠ []) :
    ∃ x, t.outcome .take = .ok (.address x) ∧ t.after .take = t.without [{ first := x, last := x }]
      ∧ x ∈ t.free.addresses ∧ ∀ y ∈ t.free.addresses, x ≤ y := by
  have e := effect ck .take
  generalize t.outcome .take = answer, t.after .take = t' at e ⊢
  cases e
  case refused f hr =>
    cases hr
    case take h₀ =>
      rw [ck.size_eq_card, Int.natCast_eq_zero, Finset.card_eq_zero, ck.addresses_eq_empty_iff] at h₀
      exact absurd h₀ hf
  case take x hx hle => exact ⟨x, rfl, rfl, hx, hle⟩

theorem takeBlock_of_size (ck : t.free.Canonical octetCount) (hs : FreeList.blockSize ≤ t.free.size) :
    ∃ taken : FreeList, t.outcome .takeBlock = .ok (.stretches taken) ∧ t.after .takeBlock = t.without taken
      ∧ taken.Canonical octetCount ∧ FreeList.blockSize ≤ taken.size
      ∧ taken.addresses ⊆ t.free.addresses := by
  have ⟨taken, _, hb, ct, hn, hm⟩ := FreeList.exists_lowestBlock ck (by decide) hs
  have hp := perform_takeBlock hs hb
  exact ⟨taken, by simp [outcome, hp], by simp [after, hp], ct, hn, fun x hx => ((hm x).mp hx).left⟩

-- A single address or a block is handed out as it is removed: it is no longer free, and the allocator that
-- is left is the one that the removal of the address leaves, or the removals of the stretches of the block
-- in any order. Each removal tells that it has changed the list.
theorem allocation_is_removal (t : Allocator) (ht : t.Reachable) :
    (t.free ≠ [] → ∃ a, t.outcome .take = .ok (.address a)
      ∧ a ∈ t.addressSet.free ∧ (∀ b ∈ t.addressSet.free, a ≤ b)
      ∧ (t.after .take).addressSet = t.addressSet.without {a}
      ∧ (0 < a.length → (Call.remove (.octets a) (.octets a)).Removes { first := a, last := a })
      ∧ ∀ c : Call, c.Removes { first := a, last := a } →
        t.outcome c = .ok (.flag true) ∧ t.after c = t.after .take)
    ∧ (256 ≤ t.addressSet.free.card → ∃ taken : FreeList, t.outcome .takeBlock = .ok (.stretches taken)
      ∧ taken.addresses ⊆ t.addressSet.free ∧ 256 ≤ taken.addresses.card
      ∧ (t.after .takeBlock).addressSet = t.addressSet.without taken.addresses
      ∧ (∀ i ∈ taken, (Call.remove (.octets i.first) (.octets i.last)).Removes i)
      ∧ ∀ order calls, order.Perm taken → List.Forall₂ Call.Removes calls order →
        (∀ e ∈ t.history calls, e.outcome = .ok (.flag true)) ∧ t.run calls = t.after .takeBlock) := by
  have hc := ht.canonical
  constructor
  · intro hf
    obtain ⟨k, ck, h⟩ := exists_admits hc hf
    obtain ⟨a, ho, ha, hm, hle⟩ := take_of_free_ne_nil ck hf
    have hi := FreeList.fits_single (ck.length_of_mem hm)
    have hs : (t.after .take).addressSet = t.addressSet.without {a} := by
      rw [ha, addressSet_without _ ck (List.forall_mem_singleton.mpr hi), FreeList.addresses_singleton,
        Interval.addresses_single]
    refine ⟨a, ho, hm, hle, hs, fun hl => removes_octets hi (hi.first ▸ hl), fun c hr => ?_⟩
    obtain ⟨hr, hl⟩ := perform_of_removes h hi hr
    rw [FreeList.overlaps_of_mem ck hi hm hi.first_mem] at hr
    exact ⟨hr, hl.trans ha.symm⟩
  · intro hs
    have hne : t.free ≠ [] := fun hf => by simp [addressSet, hf] at hs
    obtain ⟨k, ck, h⟩ := exists_admits hc hne
    have hs : FreeList.blockSize ≤ t.free.size := by
      rw [hc.size_free, FreeList.blockSize]
      omega
    obtain ⟨taken, ho, ha, ct, hn, hf⟩ := takeBlock_of_size ck hs
    rw [ct.size_eq_card] at hn
    -- There is but one address without octets.
    have hk : 0 < k := by
      by_contra h₀
      have hl := ck.size_le_space
      simp only [Nat.eq_zero_of_not_pos h₀, Octets.space] at hl
      simp only [FreeList.blockSize] at hs
      omega
    rw [ha]
    exact ⟨taken, ho, hf, Int.ofNat_le.mp hn, addressSet_without _ ck fun i hi => ct.fits hi,
      fun i hi => removes_octets (ct.fits hi) hk,
      fun order calls hp hr => run_of_removes_perm hc ck h ct hf hp hr⟩

-- Of two stretches, the first is one address and the second reaches to the top of the space; a block takes
-- in both of them, and they are removed from the top.
theorem allocation_is_removal_of_two :
    let low  : Interval := ⟨⟨[1, 9]⟩, ⟨[1, 9]⟩⟩
    let high : Interval := ⟨⟨[255, 0]⟩, ⟨[255, 255]⟩⟩
    let removal (i : Interval) : Call := .remove (.octets i.first) (.octets i.last)
    let t := run {} [.add (.octets low.first) (.octets low.last), .add (.octets high.first) (.octets high.last)]
    t.Reachable ∧ t.free ≠ [] ∧ 256 ≤ t.addressSet.free.card
    ∧ t.outcome (removal low) = .ok (.flag true) ∧ t.after (removal low) = t.after .take
    ∧ (∀ e ∈ t.history [removal high, removal low], e.outcome = .ok (.flag true))
    ∧ t.run [removal high, removal low] = t.after .takeBlock ∧ (t.after .takeBlock).free = [] := by
  intro low high removal t
  have ht : t.Reachable := ⟨none, _, rfl⟩
  have hf : t.free ≠ [] := by decide +kernel
  have hs : t.free.size = 257 := by decide +kernel
  have h : 256 ≤ t.addressSet.free.card := by
    have hc := ht.canonical.size_free
    omega
  have ⟨hsingle, hblock⟩ := allocation_is_removal t ht
  obtain ⟨a, ho, _, _, _, _, hr⟩ := hsingle hf
  have ho' : t.outcome .take = .ok (.address low.first) := by rfl
  cases ho.symm.trans ho'
  have ⟨hl, ha⟩ := hr (removal low) ⟨_, _, rfl, rfl⟩
  obtain ⟨taken, ho, _, _, _, _, hr⟩ := hblock h
  have ho' : (t.outcome .takeBlock).toOption = some (.stretches [low, high]) := by decide +kernel
  rw [ho] at ho'
  cases ho'
  have ⟨hh, hu⟩ := hr [high, low] [removal high, removal low] (.swap low high [])
    (.cons ⟨_, _, rfl, rfl⟩ (.cons ⟨_, _, rfl, rfl⟩ .nil))
  exact ⟨ht, hf, h, hl, ha, hh, hu, by decide +kernel⟩

end AddressSpace.Allocator
