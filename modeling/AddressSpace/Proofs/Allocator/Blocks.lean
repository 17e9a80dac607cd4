import AddressSpace.Proofs.Allocator.AddressSet
import AddressSpace.Proofs.FreeList.BlockEnd

/-!
Which addresses a block takes in. It takes the lowest free ones, as many as it takes until 256 are
reached and an address comes that is the last of its stretch or of a block of 256; so it stays below 512
addresses, and what it leaves of a stretch begins a block of 256.
-/

namespace AddressSpace.Allocator

-- What a block of the lowest free addresses takes of a free list and what it leaves, when the free
-- addresses are counted in their order.
structure LowestBlock (free : FreeList) (order : List Address) (k : Nat) (taken left : FreeList) : Prop where
  isLeast   : IsLeast {n | 256 ≤ n ∧ ∃ a, order[n - 1]? = some a ∧ free.Closes a} k
  le        : k ≤ 511
  canonical : ∃ octetCount, taken.Canonical octetCount
  lowest    : ∀ x, x ∈ taken.addresses ↔ x ∈ order.take k
  others    : left.addresses = free.addresses \ (order.take k).toFinset
  pieces    : ∃ whole i rest stop, free = whole ++ i :: rest
    ∧ taken = whole ++ [{ first := i.first, last := stop }]
    ∧ (stop = i.last ∧ left = rest
      ∨ stop < i.last ∧ ∃ next : Address, stop.meets next ∧ next.octets.getLast? = some 0
        ∧ left = { first := next, last := i.last } :: rest)

variable {t : Allocator} {octetCount : Nat} {l whole rest : FreeList} {i : Interval} {stop : Address}

-- What is left of the stretch that is cut begins a block of 256.
theorem behind_cut (b : FreeList.BlockAt octetCount l 256 whole i rest stop) :
    stop = i.last ∧ FreeList.behind i stop ++ rest = rest
    ∨ stop < i.last ∧ ∃ next : Address, stop.meets next ∧ next.octets.getLast? = some 0
      ∧ FreeList.behind i stop ++ rest = { first := next, last := i.last } :: rest := by
  by_cases h : stop = i.last
  case pos => exact .inl ⟨h, by simp [FreeList.behind, h]⟩
  case neg =>
    have hne : stop.value ≠ i.last.value := fun hv => h (Address.eq_of_value_eq b.length_stop hv)
    have hlt : stop.value < i.last.value := lt_of_le_of_ne b.cut.le hne
    have hnext := Address.value_next_of_lt b.length_stop hlt
    have hends := b.cut.ends.resolve_left hne
    have hpos : 0 < stop.next.1.length :=
      FreeList.length_pos_of_value_lt (a := stop) (hnext ▸ Nat.lt_succ_self _)
    refine .inr ⟨(Address.lt_iff_value_lt b.length_stop).mpr hlt, stop.next.1, ?_, ?_, ?_⟩
    · exact Address.meets_iff.mpr ⟨(Address.length_next stop).symm, hnext⟩
    · rw [Address.getLast?_eq_some_iff hpos, hnext, UInt8.toNat_zero]
      omega
    · simp [FreeList.behind, hlt]

theorem lowestBlock_of_blockAt (b : FreeList.BlockAt octetCount l 256 whole i rest stop) :
    LowestBlock l l.ascending (FreeList.upTo whole i stop).ascending.length (FreeList.upTo whole i stop)
      (FreeList.behind i stop ++ rest) := by
  have ht (x : Address) : x ∈ l.ascending.take (FreeList.upTo whole i stop).ascending.length ↔
      x ∈ (FreeList.upTo whole i stop).addresses := by
    rw [b.ascending_eq, List.take_left, b.canonical_upTo.mem_ascending]
  refine ⟨b.isLeast, b.length_upTo_le, ⟨octetCount, b.canonical_upTo⟩, fun x => (ht x).symm, ?_,
    whole, i, rest, stop, b.eq, rfl, behind_cut b⟩
  ext x
  rw [Finset.mem_sdiff, List.mem_toFinset, ht, b.mem_left, b.mem_upTo]
  refine and_congr_right fun hx => ?_
  simp only [hx, true_and, not_le]

-- Where at least 256 addresses are free, a block is handed out. It takes in the lowest free addresses up
-- to the first one behind 255 others that ends its stretch or a block of 256, and nothing else changes.
theorem takeBlock_takes_lowest (t : Allocator) (ht : t.Reachable) (h : 256 ≤ t.addressSet.free.card) :
    ∃ (order : List Address) (k : Nat) (taken : List Interval),
      order.Pairwise (· < ·) ∧ (∀ x, x ∈ order ↔ x ∈ t.addressSet.free)
      ∧ t.outcome .takeBlock = .ok (.stretches taken)
      ∧ (t.after .takeBlock).octetCount = t.octetCount
      ∧ LowestBlock t.free order k taken (t.after .takeBlock).free := by
  have ⟨_, c, _⟩ := canonical_iff.mp ht.canonical
  have hs : ((256 : Nat) : Int) ≤ t.free.size := by
    rw [c.size_eq_card, Int.ofNat_le]
    exact h
  obtain ⟨whole, i, rest, stop, b, hb⟩ := FreeList.exists_blockAt c (by decide) hs
  have hp := perform_takeBlock hs hb
  have ha : t.after .takeBlock = { t with free := FreeList.behind i stop ++ rest } := by
    simp only [after, hp, without, b.foldl_remove_upTo]
  refine ⟨t.free.ascending, (FreeList.upTo whole i stop).ascending.length, FreeList.upTo whole i stop,
    c.pairwise_lt_ascending, fun x => c.mem_ascending, ?_, ?_, ?_⟩
  · simp only [outcome, hp, Outcome.map_ok]
  · rw [ha]
  · rw [ha]
    exact lowestBlock_of_blockAt b

-- A block of a whole stretch of 140 addresses and of the lowest 247 of another one, whose rest begins a
-- block of 256.
theorem takeBlock_takes_lowest_of_two :
    let t := run {} [.add (.octets ⟨[1, 127]⟩) (.octets ⟨[2, 10]⟩),
      .add (.octets ⟨[3, 9]⟩) (.octets ⟨[4, 128]⟩)]
    t.Reachable ∧ 256 ≤ t.addressSet.free.card
    ∧ ∃ order k, order.Pairwise (· < ·) ∧ (∀ x, x ∈ order ↔ x ∈ t.addressSet.free)
      ∧ LowestBlock t.free order k [⟨⟨[1, 127]⟩, ⟨[2, 10]⟩⟩, ⟨⟨[3, 9]⟩, ⟨[3, 255]⟩⟩]
        [⟨⟨[4, 0]⟩, ⟨[4, 128]⟩⟩] := by
  intro t
  have ht : t.Reachable := ⟨none, _, rfl⟩
  have ⟨_, c, _⟩ := canonical_iff.mp ht.canonical
  have hs : t.free.size = 516 := by decide +kernel
  have h : 256 ≤ t.addressSet.free.card := by
    have hc : t.free.size = t.addressSet.free.card := c.size_eq_card
    omega
  have ⟨order, k, taken, hp, hm, ho, _, hb⟩ := takeBlock_takes_lowest t ht h
  have ho' : t.outcome .takeBlock
      = .ok (.stretches [⟨⟨[1, 127]⟩, ⟨[2, 10]⟩⟩, ⟨⟨[3, 9]⟩, ⟨[3, 255]⟩⟩]) := by rfl
  have hl : (t.after .takeBlock).free = [⟨⟨[4, 0]⟩, ⟨[4, 128]⟩⟩] := by decide +kernel
  cases ho.symm.trans ho'
  exact ⟨ht, h, order, k, hp, hm, hl ▸ hb⟩

end AddressSpace.Allocator
