import AddressSpace.Proofs.FreeList.Canonical

/-!
What the operations do to a canonical free list: it stays canonical, and its set of addresses becomes
the union with the added stretch or the difference from the removed one. The lowest address is taken by
removing it.
-/

namespace AddressSpace.FreeList

variable {octetCount : Nat} {l : FreeList} {i j new cut : Interval} {a : Address}

/-! ### Adding -/

theorem lt_first_of_mem_add {n : Nat} (hn : n < new.first.value) (hl : ∀ i ∈ l, n < i.first.value)
    (h : j ∈ add new l) : n < j.first.value := by
  induction l generalizing new
  case nil => simp_all [add]
  case cons i l hi =>
    have ⟨h₀, ht⟩ := List.forall_mem_cons.mp hl
    simp only [add] at h
    split at h <;> try split at h
    · rcases List.mem_cons.mp h with rfl | h
      · exact h₀
      · exact hi hn ht h
    · rcases List.mem_cons.mp h with rfl | h
      · exact hn
      · exact hl j h
    · refine hi ?_ ht h
      cases Address.lower_eq_or new.first i.first
      case inl e => simp [Interval.hull, e, hn]
      case inr e => simp [Interval.hull, e, h₀]

theorem canonical_add (c : l.Canonical octetCount) (hn : new.Fits octetCount) :
    (add new l).Canonical octetCount := by
  induction l generalizing new
  case nil => exact Canonical.cons_iff.mpr ⟨hn, nofun, .nil⟩
  case cons i l hl =>
    have ⟨hi, hlt, ct⟩ := Canonical.cons_iff.mp c
    simp only [add, Address.isShortOf_iff (hi.last.trans hn.first.symm),
      Address.isShortOf_iff (hn.last.trans hi.first.symm)]
    split <;> try split
    case isTrue h =>
      exact Canonical.cons_iff.mpr ⟨hi, fun _ => lt_first_of_mem_add h hlt, hl ct hn⟩
    case isFalse.isTrue h =>
      refine Canonical.cons_iff.mpr ⟨hn, List.forall_mem_cons.mpr ⟨h, fun j hj => ?_⟩, c⟩
      have := hi.le
      have := hlt j hj
      omega
    case isFalse.isFalse => exact hl ct (hn.hull hi)

theorem addresses_add (c : l.Canonical octetCount) (hn : new.Fits octetCount) :
    (add new l).addresses = l.addresses ∪ new.addresses := by
  induction l generalizing new
  case nil => simp [add]
  case cons i l hl =>
    have ⟨hi, _, ct⟩ := Canonical.cons_iff.mp c
    simp only [add]
    split <;> try split
    case isTrue => rw [addresses_cons, hl ct hn, addresses_cons, Finset.union_assoc]
    case isFalse.isTrue => rw [addresses_cons, Finset.union_comm]
    case isFalse.isFalse h₁ h₂ =>
      rw [hl ct (hn.hull hi), Interval.addresses_hull hn hi h₁ h₂, addresses_cons,
        Finset.union_comm new.addresses, Finset.union_left_comm, Finset.union_assoc]

/-! ### Removing -/

@[simp]
theorem remove_nil : remove cut [] = [] :=
  rfl

@[simp]
theorem remove_cons : remove cut (i :: l) = i.minus cut ++ remove cut l :=
  List.flatMap_cons

theorem canonical_minus (hi : i.Fits octetCount) (hc : cut.Fits octetCount) :
    Canonical octetCount (i.minus cut) := by
  by_cases h : i.overlaps cut
  case neg =>
    rw [Interval.minus_of_not_overlaps h]
    exact Canonical.cons_iff.mpr ⟨hi, nofun, .nil⟩
  case pos =>
    rw [Interval.minus_of_overlaps hi hc h]
    split <;> split
    case isTrue.isTrue hb ha =>
      have habove : Canonical octetCount [i.above cut] :=
        Canonical.cons_iff.mpr ⟨hi.above hc ha, nofun, .nil⟩
      refine Canonical.cons_iff.mpr ⟨hi.below hc hb, ?_, habove⟩
      have := Interval.value_last_below hb
      have := Interval.value_first_above hi hc ha
      have := hc.le
      simp
      omega
    case isTrue.isFalse hb _ => exact Canonical.cons_iff.mpr ⟨hi.below hc hb, nofun, .nil⟩
    case isFalse.isTrue _ ha => exact Canonical.cons_iff.mpr ⟨hi.above hc ha, nofun, .nil⟩
    case isFalse.isFalse => exact .nil

theorem mem_addresses_below (hi : i.Fits octetCount) (hc : cut.Fits octetCount) :
    a ∈ addresses (if i.first.value < cut.first.value then [i.below cut] else []) ↔
      a.length = octetCount ∧ i.first.value ≤ a.value ∧ a.value < cut.first.value := by
  split
  case isTrue h =>
    have := Interval.value_last_below h
    rw [addresses_singleton, (hi.below hc h).mem_iff]
    simp only [Interval.below] at this ⊢
    omega
  case isFalse => simp; omega

theorem mem_addresses_above (hi : i.Fits octetCount) (hc : cut.Fits octetCount) :
    a ∈ addresses (if cut.last.value < i.last.value then [i.above cut] else []) ↔
      a.length = octetCount ∧ cut.last.value < a.value ∧ a.value ≤ i.last.value := by
  split
  case isTrue h =>
    have := Interval.value_first_above hi hc h
    rw [addresses_singleton, (hi.above hc h).mem_iff]
    simp only [Interval.above] at this ⊢
    omega
  case isFalse => simp; omega

theorem addresses_minus (hi : i.Fits octetCount) (hc : cut.Fits octetCount) :
    addresses (i.minus cut) = i.addresses \ cut.addresses := by
  by_cases h : i.overlaps cut
  case neg =>
    rw [Interval.minus_of_not_overlaps h, addresses_singleton]
    rw [Interval.overlaps_iff_not_disjoint hi hc, not_not] at h
    exact (Finset.sdiff_eq_self_of_disjoint h).symm
  case pos =>
    have := (Interval.overlaps_iff hi hc).mp h
    ext a
    rw [Interval.minus_of_overlaps hi hc h, addresses_append, Finset.mem_union, Finset.mem_sdiff,
      mem_addresses_below hi hc, mem_addresses_above hi hc, hi.mem_iff, hc.mem_iff]
    omega

-- The pieces of a stretch stay within its bounds.
theorem bounds_of_mem_minus (hi : i.Fits octetCount) (hc : cut.Fits octetCount)
    (h : j ∈ i.minus cut) : i.first.value ≤ j.first.value ∧ j.last.value ≤ i.last.value := by
  have hj := (canonical_minus hi hc).fits h
  have hs : j.addresses ⊆ i.addresses := fun a ha =>
    (Finset.mem_sdiff.mp (addresses_minus hi hc ▸ mem_addresses.mpr ⟨j, h, ha⟩)).left
  have hf := hi.mem_iff.mp (hs hj.first_mem)
  have hl := hi.mem_iff.mp (hs hj.last_mem)
  exact ⟨hf.right.left, hl.right.right⟩

theorem canonical_remove (c : l.Canonical octetCount) (hc : cut.Fits octetCount) :
    (remove cut l).Canonical octetCount := by
  refine Canonical.of_fits (fun j hj => ?_) (List.pairwise_flatMap.mpr ⟨fun i hi => ?_, ?_⟩)
  · have ⟨i, hi, hj⟩ := List.mem_flatMap.mp hj
    exact (canonical_minus (c.fits hi) hc).fits hj
  · exact (canonical_minus (c.fits hi) hc).apart
  · refine c.apart.imp_of_mem fun hi hj h p hp q hq => ?_
    have := bounds_of_mem_minus (c.fits hi) hc hp
    have := bounds_of_mem_minus (c.fits hj) hc hq
    omega

theorem addresses_remove (c : l.Canonical octetCount) (hc : cut.Fits octetCount) :
    (remove cut l).addresses = l.addresses \ cut.addresses := by
  induction l
  case nil => simp
  case cons i l hl =>
    have ⟨hi, _, ct⟩ := Canonical.cons_iff.mp c
    rw [remove_cons, addresses_append, addresses_minus hi hc, hl ct, addresses_cons,
      Finset.union_sdiff_distrib]

theorem overlaps_iff_not_disjoint (c : l.Canonical octetCount) (hc : cut.Fits octetCount) :
    l.overlaps cut ↔ ¬ Disjoint l.addresses cut.addresses := by
  simp only [overlaps, List.any_eq_true, addresses, Finset.disjoint_biUnion_left, not_forall,
    List.mem_toFinset, exists_prop]
  exact exists_congr fun i => and_congr_right fun hi =>
    Interval.overlaps_iff_not_disjoint (c.fits hi) hc

theorem overlaps_of_mem (c : l.Canonical octetCount) (hc : cut.Fits octetCount) (h : a ∈ l.addresses)
    (h' : a ∈ cut.addresses) : l.overlaps cut :=
  (overlaps_iff_not_disjoint c hc).mpr (Finset.not_disjoint_iff.mpr ⟨a, h, h'⟩)

theorem remove_of_not_overlaps (h : ¬ l.overlaps cut) : remove cut l = l := by
  induction l
  case nil => rfl
  case cons i l hl =>
    simp only [overlaps, List.any_cons, Bool.or_eq_true, not_or] at h
    rw [remove_cons, Interval.minus_of_not_overlaps h.left, hl h.right, List.singleton_append]

-- A removal is told to have changed the list just when it has.
theorem overlaps_iff_remove_ne (c : l.Canonical octetCount) (hc : cut.Fits octetCount) :
    l.overlaps cut ↔ remove cut l ≠ l := by
  refine ⟨fun h he => ?_, fun h => by_contra (h <| remove_of_not_overlaps ·)⟩
  refine (overlaps_iff_not_disjoint c hc).mp h ?_
  rw [← Finset.sdiff_eq_self_iff_disjoint, ← addresses_remove c hc, he]

theorem canonical_foldl_remove {cuts : List Interval} (c : l.Canonical octetCount)
    (hc : ∀ i ∈ cuts, i.Fits octetCount) :
    (cuts.foldl (fun l i => remove i l) l).Canonical octetCount := by
  induction cuts generalizing l
  case nil => exact c
  case cons i cuts hi =>
    have ⟨h, ht⟩ := List.forall_mem_cons.mp hc
    exact hi (canonical_remove c h) ht

theorem addresses_foldl_remove {cuts : List Interval} (c : l.Canonical octetCount)
    (hc : ∀ i ∈ cuts, i.Fits octetCount) :
    addresses (cuts.foldl (fun l i => remove i l) l) = l.addresses \ addresses cuts := by
  induction cuts generalizing l
  case nil => simp
  case cons i cuts hi =>
    have ⟨h, ht⟩ := List.forall_mem_cons.mp hc
    rw [List.foldl_cons, hi (canonical_remove c h) ht, addresses_remove c h, addresses_cons,
      sdiff_sdiff, Finset.sup_eq_union]

/-! ### Taking the lowest address -/

theorem takeLowest?_eq_none_iff : takeLowest? l = none ↔ l = [] := by
  cases l
  case nil  => simp [takeLowest?]
  case cons => simp only [takeLowest?]; split <;> simp

theorem fits_single (h : a.length = octetCount) : Interval.Fits octetCount { first := a, last := a } :=
  ⟨h, h, le_rfl⟩

-- The lowest address is taken by removing it.
theorem takeLowest?_cons (c : Canonical octetCount (i :: l)) : takeLowest? (i :: l)
    = some (i.first, remove { first := i.first, last := i.first } (i :: l)) := by
  have ⟨hi, _, ct⟩ := Canonical.cons_iff.mp c
  have hc := fits_single hi.first
  have hl : remove { first := i.first, last := i.first } l = l := by
    apply remove_of_not_overlaps
    rw [overlaps_iff_not_disjoint ct hc, not_not, Interval.addresses_single]
    exact c.disjoint_tail.symm.mono_right (Finset.singleton_subset_iff.mpr hi.first_mem)
  have ho := (Interval.overlaps_iff hi hc).mpr ⟨le_rfl, hi.le⟩
  rw [remove_cons, hl, Interval.minus_of_overlaps hi hc ho, takeLowest?]
  by_cases h : i.first = i.last
  case pos => simp [h]
  case neg =>
    have hlt : i.first.value < i.last.value :=
      lt_of_le_of_ne hi.le fun hv => h (Address.eq_of_value_eq hi.length_eq hv)
    simp [h, hlt, Interval.above]

theorem takeLowest?_eq_some {l' : FreeList} (c : l.Canonical octetCount)
    (h : takeLowest? l = some (a, l')) : a ∈ l.addresses ∧ (∀ b ∈ l.addresses, a ≤ b)
      ∧ l' = remove { first := a, last := a } l := by
  cases l
  case nil => simp [takeLowest?] at h
  case cons i l =>
    rw [takeLowest?_cons c] at h
    cases h
    exact ⟨c.first_lowest.left, c.first_lowest.right, rfl⟩

end AddressSpace.FreeList
