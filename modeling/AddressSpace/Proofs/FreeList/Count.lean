import AddressSpace.Proofs.FreeList.Edits

/-!
How many stretches a canonical free list has after an edit. The stretches that an edit reaches stand side by
side. When a stretch is added they become one with it, so the list has one more stretch without them. When
a stretch is removed, those that lie in it go, and one that goes on at both ends of it falls into two. All
others stay as they are.
-/

namespace AddressSpace

namespace Interval

variable {i j cut : Interval} {octetCount : Nat}

-- Two stretches have an address in common, or one begins right behind the other.
def touches (i j : Interval) : Bool :=
  i.overlaps j || i.last.meets j.first || j.last.meets i.first

-- All of the first stretch lies in the second one.
def within (i j : Interval) : Bool :=
  decide (j.first ≤ i.first) && decide (i.last ≤ j.last)

-- The first stretch goes on below the second one, and above it.
def encloses (i j : Interval) : Bool :=
  decide (i.first < j.first) && decide (j.last < i.last)

theorem touches_iff (hi : i.Fits octetCount) (hj : j.Fits octetCount) :
    i.touches j ↔ i.first.value ≤ j.last.value + 1 ∧ j.first.value ≤ i.last.value + 1 := by
  have := hi.le
  have := hj.le
  simp only [touches, Bool.or_eq_true, overlaps_iff hi hj, Address.meets_iff,
    hi.last.trans hj.first.symm, hj.last.trans hi.first.symm, true_and]
  omega

theorem within_iff (hi : i.Fits octetCount) (hj : j.Fits octetCount) :
    i.within j ↔ j.first.value ≤ i.first.value ∧ i.last.value ≤ j.last.value := by
  simp only [within, Bool.and_eq_true, decide_eq_true_eq,
    Address.le_iff_value_le (hj.first.trans hi.first.symm),
    Address.le_iff_value_le (hi.last.trans hj.last.symm)]

theorem encloses_iff (hi : i.Fits octetCount) (hj : j.Fits octetCount) :
    i.encloses j ↔ i.first.value < j.first.value ∧ j.last.value < i.last.value := by
  simp only [encloses, Bool.and_eq_true, decide_eq_true_eq,
    Address.lt_iff_value_lt (hi.first.trans hj.first.symm),
    Address.lt_iff_value_lt (hj.last.trans hi.last.symm)]

-- A stretch goes when all of it is taken out, and falls into two when something is left at both ends.
theorem length_minus (hi : i.Fits octetCount) (hc : cut.Fits octetCount) :
    (i.minus cut).length + (if i.within cut then 1 else 0) = 1 + (if i.encloses cut then 1 else 0) := by
  have := hi.le
  have := hc.le
  simp only [within_iff hi hc, encloses_iff hi hc]
  by_cases h : i.overlaps cut
  case pos =>
    rw [minus_of_overlaps hi hc h]
    split_ifs <;> simp <;> omega
  case neg =>
    rw [minus_of_not_overlaps h]
    rw [overlaps_iff hi hc] at h
    split_ifs <;> simp <;> omega

end Interval

namespace FreeList

variable {octetCount : Nat} {l lower old upper : FreeList} {i new cut : Interval}

-- A list falls into the stretches that a test picks out, which stand side by side, and those in front of
-- them and behind.
structure Parted (picked : Interval → Bool) (l lower old upper : FreeList) : Prop where
  eq   : l = lower ++ old ++ upper
  old  : ∀ i ∈ old, picked i
  rest : ∀ i ∈ lower ++ upper, ¬ picked i

-- The stretches that a test picks out make way for new ones. All others stay as they are, in their order.
def Replaced (picked : Interval → Bool) (l new l' : FreeList) : Prop :=
  ∃ lower old upper, Parted picked l lower old upper ∧ l' = lower ++ new ++ upper

theorem Parted.filter_eq {picked : Interval → Bool} (h : Parted picked l lower old upper) :
    l.filter picked = old := by
  have ⟨hl, hu⟩ := List.forall_mem_append.mp h.rest
  rw [h.eq, List.filter_append, List.filter_append, List.filter_eq_nil_iff.mpr hl,
    List.filter_eq_self.mpr h.old, List.filter_eq_nil_iff.mpr hu, List.nil_append, List.append_nil]

theorem Replaced.length {picked : Interval → Bool} {new l' : FreeList} (h : Replaced picked l new l') :
    l'.length + l.countP picked = l.length + new.length := by
  obtain ⟨lower, old, upper, hp, rfl⟩ := h
  rw [List.countP_eq_length_filter, hp.filter_eq, hp.eq]
  simp only [List.length_append]
  omega

-- A test that picks out the stretches of a canonical list that reach into a span of values parts it.
theorem Canonical.exists_parted {picked : Interval → Bool} {low high : Nat} (c : l.Canonical octetCount)
    (h : ∀ i ∈ l, picked i ↔ low ≤ i.last.value ∧ i.first.value ≤ high) :
    ∃ lower old upper, Parted picked l lower old upper
      ∧ (∀ i ∈ lower, i.last.value < low) ∧ ∀ i ∈ upper, high < i.first.value := by
  induction l
  case nil => exact ⟨[], [], [], ⟨rfl, by simp, by simp⟩, by simp⟩
  case cons i l hl =>
    obtain ⟨hi, hlt, ct⟩ := Canonical.cons_iff.mp c
    obtain ⟨hp, ht⟩ := List.forall_mem_cons.mp h
    have hle := hi.le
    by_cases hlow : i.last.value < low
    case pos =>
      obtain ⟨lower, old, upper, ⟨rfl, hold, hrest⟩, hlower, hupper⟩ := hl ct ht
      have hn : ¬ picked i := by rw [hp]; omega
      exact ⟨i :: lower, old, upper, ⟨rfl, hold, List.forall_mem_cons.mpr ⟨hn, hrest⟩⟩,
        List.forall_mem_cons.mpr ⟨hlow, hlower⟩, hupper⟩
    case neg =>
      by_cases hhigh : high < i.first.value
      case pos =>
        have hu : ∀ j ∈ i :: l, high < j.first.value := List.forall_mem_cons.mpr ⟨hhigh, fun j hj => by
          have := hlt j hj
          omega⟩
        have hn : ∀ j ∈ i :: l, ¬ picked j := fun j hj => by
          have := hu j hj
          rw [h j hj]
          omega
        exact ⟨[], [], i :: l, ⟨rfl, by simp, hn⟩, by simp, hu⟩
      case neg =>
        obtain ⟨lower, old, upper, ⟨rfl, hold, hrest⟩, hlower, hupper⟩ := hl ct ht
        -- What follows a stretch that is not below the span is not below it either.
        have hn : lower = [] := by
          refine List.eq_nil_iff_forall_not_mem.mpr fun j hj => ?_
          have hm : j ∈ lower ++ old ++ upper := by simp [hj]
          have := hlt j hm
          have := (ct.fits hm).le
          have := hlower j hj
          omega
        subst hn
        have hi : picked i := by rw [hp]; omega
        exact ⟨[], i :: old, upper, ⟨rfl, List.forall_mem_cons.mpr ⟨hi, hold⟩, hrest⟩, by simp, hupper⟩

/-! ### Adding -/

theorem add_append_of_isShortOf (h : ∀ i ∈ lower, i.last.isShortOf new.first) :
    add new (lower ++ l) = lower ++ add new l := by
  induction lower
  case nil => rfl
  case cons i lower hl =>
    have ⟨hi, ht⟩ := List.forall_mem_cons.mp h
    simp [add, hi, hl ht]

theorem add_of_lt (c : l.Canonical octetCount) (hn : new.Fits octetCount)
    (h : ∀ i ∈ l, new.last.value + 1 < i.first.value) : add new l = new :: l := by
  cases l
  case nil => rfl
  case cons i l =>
    have hi := c.fits (.head l)
    have hlt := h i (.head l)
    have := hi.le
    have := hn.le
    have h₁ : ¬ i.last.isShortOf new.first := by
      rw [Address.isShortOf_iff (hi.last.trans hn.first.symm)]
      omega
    have h₂ : new.last.isShortOf i.first := (Address.isShortOf_iff (hn.last.trans hi.first.symm)).mpr hlt
    simp [add, h₁, h₂]

-- The stretches that touch the new one become one with it. What they become touches the next of them too,
-- and reaches no further up than they do themselves.
theorem add_append_of_touches (c : (old ++ upper).Canonical octetCount) (hn : new.Fits octetCount)
    (ho : ∀ i ∈ old, i.touches new) (hu : ∀ i ∈ upper, new.last.value + 1 < i.first.value) :
    add new (old ++ upper) = old.foldl Interval.hull new :: upper
    ∧ (old.foldl Interval.hull new).addresses = new.addresses ∪ addresses old := by
  induction old generalizing new
  case nil => exact ⟨add_of_lt c hn hu, by simp⟩
  case cons i old hi =>
    obtain ⟨hf, hlt, ct⟩ := Canonical.cons_iff.mp c
    obtain ⟨ht, ho⟩ := List.forall_mem_cons.mp ho
    have hlow := Address.value_lower (hn.first.trans hf.first.symm)
    have hhigh := Address.value_upper (hn.last.trans hf.last.symm)
    have hh := hn.hull hf
    rw [Interval.touches_iff hf hn] at ht
    have h₁ : ¬ i.last.isShortOf new.first := by
      rw [Address.isShortOf_iff (hf.last.trans hn.first.symm)]
      omega
    have h₂ : ¬ new.last.isShortOf i.first := by
      rw [Address.isShortOf_iff (hn.last.trans hf.first.symm)]
      omega
    have ho' : ∀ j ∈ old, j.touches (new.hull i) := fun j hj => by
      have hj' := ct.fits (List.mem_append_left upper hj)
      have := (Interval.touches_iff hj' hn).mp (ho j hj)
      rw [Interval.touches_iff hj' hh]
      simp only [Interval.hull, hlow, hhigh]
      omega
    have hu' : ∀ j ∈ upper, (new.hull i).last.value + 1 < j.first.value := fun j hj => by
      have := hlt j (List.mem_append_right old hj)
      have := hu j hj
      simp only [Interval.hull, hhigh]
      omega
    obtain ⟨hadd, ha⟩ := hi ct hh ho' hu'
    refine ⟨by simpa [add, h₁, h₂] using hadd, ?_⟩
    rw [List.foldl_cons, ha, Interval.addresses_hull hn hf h₁ h₂, addresses_cons, Finset.union_assoc]

-- The stretches of a list that touch a new one, with those below it and those above.
structure Touching (new : Interval) (l lower old upper : FreeList) : Prop where
  parted : Parted (·.touches new) l lower old upper
  lower  : ∀ i ∈ lower, i.last.value + 1 < new.first.value
  upper  : ∀ i ∈ upper, new.last.value + 1 < i.first.value

theorem Canonical.exists_touching (c : l.Canonical octetCount) (hn : new.Fits octetCount) :
    ∃ lower old upper, Touching new l lower old upper := by
  have ht : ∀ i ∈ l, i.touches new ↔
      new.first.value - 1 ≤ i.last.value ∧ i.first.value ≤ new.last.value + 1 := fun i hi => by
    rw [Interval.touches_iff (c.fits hi) hn]
    omega
  obtain ⟨lower, old, upper, hp, hl, hu⟩ := c.exists_parted ht
  refine ⟨lower, old, upper, hp, fun i hi => ?_, hu⟩
  have := hl i hi
  omega

-- What touches the new stretch makes way for one that takes in all of it.
theorem Touching.add_eq (h : Touching new l lower old upper) (c : l.Canonical octetCount) (hn : new.Fits octetCount) :
    add new l = lower ++ old.foldl Interval.hull new :: upper
    ∧ (old.foldl Interval.hull new).addresses = new.addresses ∪ addresses old := by
  obtain rfl := h.parted.eq
  have hshort : ∀ i ∈ lower, i.last.isShortOf new.first := fun i hi => by
    have hm : i ∈ lower ++ old ++ upper := by simp [hi]
    exact (Address.isShortOf_iff ((c.fits hm).last.trans hn.first.symm)).mpr (h.lower i hi)
  have ct : (old ++ upper).Canonical octetCount := c.sublist (by simp)
  obtain ⟨hadd, ha⟩ := add_append_of_touches ct hn h.parted.old h.upper
  exact ⟨by rw [List.append_assoc, add_append_of_isShortOf hshort, hadd], ha⟩

theorem replaced_add (c : l.Canonical octetCount) (hn : new.Fits octetCount) :
    ∃ hull : Interval, Replaced (·.touches new) l [hull] (add new l)
      ∧ hull.addresses = new.addresses ∪ addresses (l.filter (·.touches new)) := by
  obtain ⟨lower, old, upper, h⟩ := c.exists_touching hn
  obtain ⟨hadd, ha⟩ := h.add_eq c hn
  refine ⟨old.foldl Interval.hull new, ⟨lower, old, upper, h.parted, ?_⟩, h.parted.filter_eq.symm ▸ ha⟩
  rw [hadd, List.append_assoc, List.singleton_append]

theorem length_add (c : l.Canonical octetCount) (hn : new.Fits octetCount) :
    (add new l).length + l.countP (·.touches new) = l.length + 1 :=
  have ⟨_, hr, _⟩ := replaced_add c hn
  hr.length

/-! ### Removing -/

theorem remove_append (l l' : FreeList) : remove cut (l ++ l') = remove cut l ++ remove cut l' :=
  List.flatMap_append

theorem replaced_remove (c : l.Canonical octetCount) (hc : cut.Fits octetCount) :
    ∃ pieces, Replaced (·.overlaps cut) l pieces (remove cut l) := by
  have ho : ∀ i ∈ l, i.overlaps cut ↔
      cut.first.value ≤ i.last.value ∧ i.first.value ≤ cut.last.value := fun i hi => by
    rw [Interval.overlaps_iff (c.fits hi) hc, and_comm]
  obtain ⟨lower, old, upper, hp, _, _⟩ := c.exists_parted ho
  have ⟨hl, hu⟩ := List.forall_mem_append.mp hp.rest
  have hkept {l : FreeList} (h : ∀ i ∈ l, ¬ i.overlaps cut) : remove cut l = l :=
    remove_of_not_overlaps (by simpa [overlaps] using h)
  refine ⟨remove cut old, lower, old, upper, hp, ?_⟩
  rw [hp.eq, remove_append, remove_append, hkept hl, hkept hu]

theorem length_remove (c : l.Canonical octetCount) (hc : cut.Fits octetCount) :
    (remove cut l).length + l.countP (·.within cut) = l.length + l.countP (·.encloses cut) := by
  induction l
  case nil => rfl
  case cons i l hl =>
    obtain ⟨hi, _, ct⟩ := Canonical.cons_iff.mp c
    have := Interval.length_minus hi hc
    have := hl ct
    simp only [remove_cons, List.length_append, List.countP_cons, List.length_cons]
    omega

-- No two stretches of a list go on at both ends of the same one.
theorem countP_encloses (c : l.Canonical octetCount) (hc : cut.Fits octetCount) :
    l.countP (·.encloses cut) = if l.any (·.encloses cut) then 1 else 0 := by
  induction l
  case nil => rfl
  case cons i l hl =>
    obtain ⟨hi, hlt, ct⟩ := Canonical.cons_iff.mp c
    rw [List.countP_cons, List.any_cons]
    by_cases he : i.encloses cut
    case neg => simp [he, hl ct]
    case pos =>
      have hn : ∀ j ∈ l, ¬ j.encloses cut := fun j hj => by
        have := (Interval.encloses_iff hi hc).mp he
        have := hlt j hj
        have := hc.le
        rw [Interval.encloses_iff (ct.fits hj) hc]
        omega
      simp [he, List.countP_eq_zero.mpr hn]

end FreeList

end AddressSpace
