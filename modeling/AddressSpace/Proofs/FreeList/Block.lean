import AddressSpace.Proofs.FreeList.Canonical

/-!
The block of lowest addresses of a canonical free list. Where enough addresses are free the block is
found; it takes in all free addresses up to the one where its last stretch is cut.
-/

namespace AddressSpace.FreeList

variable {octetCount : Nat} {l whole rest : FreeList} {i : Interval} {a stop : Address} {needed : Int}

@[simp]
theorem size_append (l l' : FreeList) : size (l ++ l') = l.size + l'.size := by
  induction l
  case nil => simp [size]
  case cons i l hi => simp only [List.cons_append, size, hi]; omega

-- The address at which a stretch is cut when it completes a block: the first one at or behind the
-- last address needed that ends a block of 256 or the stretch.
structure CutAt (octetCount : Nat) (i : Interval) (needed : Int) (stop : Address) : Prop where
  length : stop.length = octetCount
  enough : i.first.value + needed ≤ stop.value + 1
  le     : stop.value ≤ i.last.value
  ends   : stop.value = i.last.value ∨ stop.value % 256 = 255
  least  : ∀ n : Nat, i.first.value + needed ≤ n + 1 → n < stop.value → n % 256 ≠ 255

theorem length_pos_of_value_lt {a b : Address} (h : a.value < b.value) : 0 < b.length := by
  cases Nat.eq_zero_or_pos b.length
  case inl h₀ =>
    have := b.value_lt
    simp only [h₀, Octets.space] at this
    omega
  case inr h₀ => exact h₀

-- The address that completes what is needed lies in the stretch, so that the jump to it stays within the space.
theorem shift_first_eq_ok (hi : i.Fits octetCount) (h₀ : 0 < needed) (h : needed ≤ i.size) :
    i.first.shift (needed - 1)
      = .ok (Address.ofValue octetCount (i.first.value + (needed - 1).toNat)) := by
  have hlt := hi.value_lt
  rw [hi.size_eq] at h
  rw [Address.shift_eq_ok (n := i.first.value + (needed - 1).toNat) (by omega), hi.first]
  rw [hi.first]
  omega

theorem cutPoint_eq_ok (hi : i.Fits octetCount) (h₀ : 0 < needed) (h : needed ≤ i.size) :
    ∃ stop, cutPoint i needed = .ok stop ∧ CutAt octetCount i needed stop := by
  have hshift := shift_first_eq_ok hi h₀ h
  rw [hi.size_eq] at h
  have hle := hi.le
  have hlt := hi.value_lt
  let s := Address.ofValue octetCount (i.first.value + (needed - 1).toNat)
  have hs : s.value = i.first.value + (needed - 1).toNat := Address.value_ofValue (by omega)
  have hl : s.length = i.last.length := (Address.length_ofValue ..).trans hi.last.symm
  change i.first.shift (needed - 1) = .ok s at hshift
  simp only [cutPoint, hshift, bind, Except.bind]
  split
  -- The address above is left over and opens no block, so the rest of its block is taken too.
  case isTrue h =>
    have hv := (Address.lt_iff_value_lt hl).mp h.left
    have hpos : 0 < s.length := hl ▸ length_pos_of_value_lt hv
    have hnext := Address.value_next_of_lt hl hv
    have hopen := h.right
    rw [Bool.not_eq_true', ← Bool.not_eq_true, Address.opensBlock_iff (by simpa), hnext] at hopen
    have hend : s.blockEnd.length = i.last.length := (Address.length_blockEnd hpos).trans hl
    have hlow := Address.value_lower hend
    rw [Address.value_blockEnd hpos] at hlow
    refine ⟨_, rfl, ?_⟩
    exact {
      length := (Address.length_lower hend).trans (hend.trans hi.last)
      enough := by omega
      le     := by omega
      ends   := by omega
      least  := by omega }
  case isFalse h =>
    rw [Address.lt_iff_value_lt hl] at h
    have hends : s.value = i.last.value ∨ s.value % 256 = 255 := by
      cases Nat.lt_or_ge s.value i.last.value
      case inl hv =>
        have hpos : 0 < s.length := hl ▸ length_pos_of_value_lt hv
        have hopen : s.next.1.opensBlock := by simpa [hv] using h
        rw [Address.opensBlock_iff (by simpa), Address.value_next_of_lt hl hv] at hopen
        omega
      case inr => omega
    refine ⟨_, rfl, ?_⟩
    exact {
      length := Address.length_ofValue ..
      enough := by omega
      le     := by omega
      ends   := hends
      least  := by omega }

-- A block is made of whole stretches and of one that is cut.
theorem lowestBlock_eq_ok (c : l.Canonical octetCount) (h₀ : 0 < needed) (h : needed ≤ l.size) :
    ∃ whole i rest stop, l = whole ++ i :: rest
      ∧ lowestBlock needed l = .ok (whole ++ [{ first := i.first, last := stop }])
      ∧ size whole < needed ∧ CutAt octetCount i (needed - size whole) stop := by
  induction l generalizing needed
  case nil => simp only [size] at h; omega
  case cons i l hl =>
    obtain ⟨hi, _, ct⟩ := Canonical.cons_iff.mp c
    simp only [size] at h
    by_cases hn : i.size < needed
    case pos =>
      have hr : needed - i.size ≤ size l := by omega
      obtain ⟨whole, j, rest, stop, he, hb, hlt, hcut⟩ := hl ct (by omega) hr
      refine ⟨i :: whole, j, rest, stop, by rw [he, List.cons_append], ?_, ?_, ?_⟩
      · simp [lowestBlock, hn, hb, bind, Except.bind, pure, Except.pure]
      · simp only [size]
        omega
      · rwa [size, ← Int.sub_sub]
    case neg =>
      obtain ⟨stop, hs, hcut⟩ := cutPoint_eq_ok hi h₀ (by omega)
      refine ⟨[], i, l, stop, rfl, ?_, ?_, ?_⟩
      · simp [lowestBlock, hn, hs, bind, Except.bind, pure, Except.pure]
      · exact h₀
      · simpa [size] using hcut

theorem canonical_taken (c : Canonical octetCount (whole ++ i :: rest))
    (hs : stop.length = octetCount) (h₁ : i.first.value ≤ stop.value) :
    Canonical octetCount (whole ++ [{ first := i.first, last := stop }]) := by
  have ⟨hw, _, hp⟩ := List.pairwise_append.mp c.apart
  have hi := c.fits (List.mem_append_right whole (.head rest))
  refine Canonical.of_fits (fun j hj => ?_) <|
    List.pairwise_append.mpr ⟨hw, List.pairwise_singleton .., ?_⟩
  · cases List.mem_append.mp hj
    case inl hj => exact c.fits (List.mem_append_left _ hj)
    case inr hj =>
      cases List.mem_singleton.mp hj
      exact ⟨hi.first, hs, h₁⟩
  · intro j hj k hk
    cases List.mem_singleton.mp hk
    exact hp j hj i (.head rest)

-- A block takes in the free addresses up to the one at which it is cut, and no others.
theorem mem_addresses_taken (c : Canonical octetCount (whole ++ i :: rest))
    (hs : stop.length = octetCount) (h₁ : i.first.value ≤ stop.value)
    (h₂ : stop.value ≤ i.last.value) :
    a ∈ addresses (whole ++ [{ first := i.first, last := stop }]) ↔
      a ∈ addresses (whole ++ i :: rest) ∧ a.value ≤ stop.value := by
  have ht := (canonical_taken c hs h₁).fits (List.mem_append_right whole (.head []))
  have ⟨_, _, hp⟩ := List.pairwise_append.mp c.apart
  have hi := c.fits (List.mem_append_right whole (.head rest))
  have ci : Canonical octetCount (i :: rest) := c.sublist (List.sublist_append_right ..)
  have hwhole : a ∈ whole.addresses → a.value ≤ stop.value := by
    intro ha
    have ⟨j, hj, ha⟩ := mem_addresses.mp ha
    have := (c.fits (List.mem_append_left _ hj)).mem_iff.mp ha
    have := hp j hj i (.head rest)
    omega
  have hrest : a ∈ rest.addresses → stop.value < a.value := by
    intro ha
    have := ci.last_lt_of_mem_tail ha
    omega
  simp only [addresses_append, addresses_cons, addresses_nil, Finset.union_empty, Finset.mem_union,
    ht.mem_iff, hi.mem_iff]
  constructor
  · rintro (ha | ha)
    · exact ⟨.inl ha, hwhole ha⟩
    · exact ⟨.inr (.inl (by omega)), by omega⟩
  · rintro ⟨ha | ha | ha, hle⟩
    · exact .inl ha
    · exact .inr (by omega)
    · exact absurd hle (hrest ha).not_ge

-- Where enough addresses are free, a block of the lowest ones is found.
theorem exists_lowestBlock (c : l.Canonical octetCount) (h₀ : 0 < needed) (h : needed ≤ l.size) :
    ∃ (taken : FreeList) (stop : Address), lowestBlock needed l = .ok taken
      ∧ taken.Canonical octetCount ∧ needed ≤ taken.size
      ∧ ∀ a, a ∈ taken.addresses ↔ a ∈ l.addresses ∧ a.value ≤ stop.value := by
  have ⟨whole, i, rest, stop, he, hb, hlt, hcut⟩ := lowestBlock_eq_ok c h₀ h
  subst he
  have h₁ : i.first.value ≤ stop.value := by
    have := hcut.enough
    omega
  have ct := canonical_taken c hcut.length h₁
  refine ⟨_, stop, hb, ct, ?_, fun a => mem_addresses_taken c hcut.length h₁ hcut.le⟩
  have hi := ct.fits (List.mem_append_right whole (.head []))
  have := hcut.enough
  simp only [size_append, size, hi.size_eq]
  omega

end AddressSpace.FreeList
