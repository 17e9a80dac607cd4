import AddressSpace.Proofs.Allocator.AddressSet

/-!
Stretches that are added to an allocator or removed from it, of the length of its addresses and with
their bounds in order. Such an edit is never refused, and what a run of them leaves depends on nothing
but the stretches; so they may come in any order, and an addition and a removal may change places where
their stretches have no address in common.
-/

namespace AddressSpace.Allocator

-- The bounds of a stretch of addresses of a length, in order, as a caller hands them over.
structure Bounds (octetCount : Nat) where
  first : Address.Source
  last  : Address.Source
  named : Interval
  names : stretch first last = .ok named
  fits  : named.Fits octetCount

namespace Bounds

variable {octetCount : Nat}

def adding (b : Bounds octetCount) : Call :=
  .add b.first b.last

def removing (b : Bounds octetCount) : Call :=
  .remove b.first b.last

theorem le (b : Bounds octetCount) : b.named.first ≤ b.named.last :=
  (Address.le_iff_value_le b.fits.length_eq).mpr b.fits.le

theorem not_reversed (b : Bounds octetCount) : ¬ b.named.last < b.named.first :=
  (Address.not_lt_iff_le b.fits.length_eq).mpr b.le

-- All addresses between the bounds of a list.
def addresses (bs : List (Bounds octetCount)) : Finset Address :=
  FreeList.addresses (bs.map named)

@[simp]
theorem addresses_nil : addresses ([] : List (Bounds octetCount)) = ∅ :=
  rfl

@[simp]
theorem addresses_cons (b : Bounds octetCount) (bs : List (Bounds octetCount)) :
    addresses (b :: bs) = b.named.addresses ∪ addresses bs :=
  FreeList.addresses_cons

theorem addresses_perm {bs bs' : List (Bounds octetCount)} (h : bs.Perm bs') :
    addresses bs = addresses bs' := by
  ext x
  simp only [addresses, FreeList.mem_addresses, (h.map named).mem_iff]

end Bounds

-- Addresses of a length are taken: the allocator is fixed to it, or to none yet.
def Admits (t : Allocator) (octetCount : Nat) : Prop :=
  t.octetCount = none ∨ t.length? = some (octetCount : Int)

variable {t : Allocator} {octetCount : Nat} {bs bs' : List (Bounds octetCount)}

namespace Admits

theorem accept (h : t.Admits octetCount) (b : Bounds octetCount) : t.accept b.named.first = .ok () :=
  accept_eq_ok_iff.mpr (b.fits.first.symm ▸ h)

theorem canonical (h : t.Admits octetCount) (c : t.Canonical) (b : Bounds octetCount) :
    t.free.Canonical octetCount :=
  b.fits.first ▸ c.of_accept (h.accept b)

theorem supplied (h : t.Admits octetCount) (b : Bounds octetCount) :
    (t.supplied b.named).Admits octetCount :=
  .inr ((length?_supplied (h.accept b)).trans (by rw [b.fits.first]))

end Admits

/-! ### One edit -/

-- An addition is not refused, and adds the stretch.
theorem perform_adding (h : t.Admits octetCount) (b : Bounds octetCount) :
    t.outcome b.adding = .ok .done ∧ t.after b.adding = t.supplied b.named := by
  have hp : t.perform b.adding = .ok (.done, t.supplied b.named) := by
    simp [Bounds.adding, perform, add, b.names, b.not_reversed, h.accept b, Allocator.supplied]
  exact outcome_after_of_perform hp

-- A removal is not refused, and removes the stretch.
theorem perform_removing (h : t.Admits octetCount) (b : Bounds octetCount) :
    t.outcome b.removing = .ok (.flag (t.free.overlaps b.named))
    ∧ t.after b.removing = t.without [b.named] := by
  have hp : t.perform b.removing = .ok (.flag (t.free.overlaps b.named), t.without [b.named]) := by
    simp [Bounds.removing, perform, remove, b.names, b.not_reversed, h.accept b, without]
  exact outcome_after_of_perform hp

theorem free_adding (c : t.Canonical) (h : t.Admits octetCount) (b : Bounds octetCount) :
    (t.after b.adding).addressSet.free = t.addressSet.free ∪ b.named.addresses := by
  rw [(perform_adding h b).right]
  exact FreeList.addresses_add (h.canonical c b) b.fits

theorem free_removing (c : t.Canonical) (h : t.Admits octetCount) (b : Bounds octetCount) :
    (t.after b.removing).addressSet.free = t.addressSet.free \ b.named.addresses := by
  rw [(perform_removing h b).right, addressSet_without [b.named] (h.canonical c b) (by simpa using b.fits)]
  simp [AddressSet.without]

theorem octetCount_adding (h : t.Admits octetCount) (b : Bounds octetCount) :
    (t.after b.adding).octetCount = some (t.octetCount.getD (.int octetCount)) := by
  rw [(perform_adding h b).right, supplied, b.fits.first]

theorem octetCount_removing (h : t.Admits octetCount) (b : Bounds octetCount) :
    (t.after b.removing).octetCount = t.octetCount := by
  rw [(perform_removing h b).right, without]

theorem Admits.adding (h : t.Admits octetCount) (b : Bounds octetCount) :
    (t.after b.adding).Admits octetCount :=
  (perform_adding h b).right ▸ h.supplied b

theorem Admits.removing (h : t.Admits octetCount) (b : Bounds octetCount) :
    (t.after b.removing).Admits octetCount :=
  (perform_removing h b).right ▸ h

/-! ### Runs of edits -/

-- What additions leave, whatever their order.
structure Added (t : Allocator) (bs : List (Bounds octetCount)) (t' : Allocator) : Prop where
  free       : t'.addressSet.free = t.addressSet.free ∪ Bounds.addresses bs
  octetCount : t'.octetCount = if bs = [] then t.octetCount else some (t.octetCount.getD (.int octetCount))

theorem run_adding (c : t.Canonical) (h : t.Admits octetCount) (bs : List (Bounds octetCount)) :
    (∀ e ∈ t.history (bs.map Bounds.adding), e.outcome = .ok .done)
    ∧ Added t bs (t.run (bs.map Bounds.adding)) := by
  induction bs generalizing t
  case nil => exact ⟨by simp [history], by simp [run], by simp [run]⟩
  case cons b bs hi =>
    have ⟨hh, hf, hl⟩ := hi (c.after b.adding) (h.adding b)
    refine ⟨List.forall_mem_cons.mpr ⟨(perform_adding h b).left, hh⟩, hf.trans ?_, hl.trans ?_⟩
    · rw [free_adding c h b, Bounds.addresses_cons, Finset.union_assoc]
    · rw [octetCount_adding h b]
      simp

theorem run_removing (c : t.Canonical) (h : t.Admits octetCount) (bs : List (Bounds octetCount)) :
    (∀ e ∈ t.history (bs.map Bounds.removing), ∃ b, e.outcome = .ok (.flag b))
    ∧ (t.run (bs.map Bounds.removing)).addressSet.free = t.addressSet.free \ Bounds.addresses bs
    ∧ (t.run (bs.map Bounds.removing)).octetCount = t.octetCount := by
  induction bs generalizing t
  case nil => exact ⟨by simp [history], by simp [run], rfl⟩
  case cons b bs hi =>
    have ⟨hh, hf, hl⟩ := hi (c.after b.removing) (h.removing b)
    refine ⟨List.forall_mem_cons.mpr ⟨⟨_, (perform_removing h b).left⟩, hh⟩, hf.trans ?_, hl.trans ?_⟩
    · rw [free_removing c h b, Bounds.addresses_cons, sdiff_sdiff, Finset.sup_eq_union]
    · exact octetCount_removing h b

-- Allocators are told apart by the length that they are fixed to and by their free addresses.
theorem Canonical.eq_of_addressSet {t' : Allocator} (c : t.Canonical) (c' : t'.Canonical)
    (hl : t.octetCount = t'.octetCount) (hf : t.addressSet.free = t'.addressSet.free) : t = t' :=
  Allocator.ext hl (c.free_eq c' hf)

theorem Added.eq_of_perm {t₁ t₂ : Allocator} (a₁ : Added t bs t₁) (a₂ : Added t bs' t₂)
    (c₁ : t₁.Canonical) (c₂ : t₂.Canonical) (h : bs.Perm bs') : t₁ = t₂ := by
  refine c₁.eq_of_addressSet c₂ ?_ ?_
  · have hn : bs = [] ↔ bs' = [] := by rw [← List.length_eq_zero_iff, h.length_eq, List.length_eq_zero_iff]
    simp only [a₁.octetCount, a₂.octetCount, hn]
  · rw [a₁.free, a₂.free, Bounds.addresses_perm h]

-- A stretch is added and another one is removed, in either order.
theorem run_adding_removing (c : t.Canonical) (h : t.Admits octetCount) {b b' : Bounds octetCount}
    (hd : Disjoint b.named.addresses b'.named.addresses) :
    t.run [b.adding, b'.removing] = t.run [b'.removing, b.adding] := by
  refine (c.run _).eq_of_addressSet (c.run _) ?_ ?_
  · show ((t.after b.adding).after b'.removing).octetCount = ((t.after b'.removing).after b.adding).octetCount
    rw [octetCount_removing (h.adding b), octetCount_adding h, octetCount_adding (h.removing b'),
      octetCount_removing h]
  · show ((t.after b.adding).after b'.removing).addressSet.free
      = ((t.after b'.removing).after b.adding).addressSet.free
    rw [free_removing (c.after _) (h.adding b), free_adding c h,
      free_adding (c.after _) (h.removing b'), free_removing c h, Finset.union_sdiff_distrib,
      Finset.sdiff_eq_self_of_disjoint hd]

-- Additions leave the same allocator in whatever order they come, and so do removals; none of them is
-- refused. An addition and a removal of stretches that have no address in common may change places.
theorem edits_in_any_order (t : Allocator) (ht : t.Reachable) (octetCount : Nat)
    (h : t.Admits octetCount) :
    (∀ bs bs' : List (Bounds octetCount), bs.Perm bs' →
      (∀ e ∈ t.history (bs.map Bounds.adding), e.outcome = .ok .done)
      ∧ (t.run (bs.map Bounds.adding)).addressSet.free = t.addressSet.free ∪ Bounds.addresses bs
      ∧ t.run (bs.map Bounds.adding) = t.run (bs'.map Bounds.adding))
    ∧ (∀ bs bs' : List (Bounds octetCount), bs.Perm bs' →
      (∀ e ∈ t.history (bs.map Bounds.removing), ∃ b, e.outcome = .ok (.flag b))
      ∧ (t.run (bs.map Bounds.removing)).addressSet.free = t.addressSet.free \ Bounds.addresses bs
      ∧ t.run (bs.map Bounds.removing) = t.run (bs'.map Bounds.removing))
    ∧ ∀ b b' : Bounds octetCount, Disjoint b.named.addresses b'.named.addresses →
      t.run [b.adding, b'.removing] = t.run [b'.removing, b.adding] := by
  have c := ht.canonical
  refine ⟨fun bs bs' hp => ?_, fun bs bs' hp => ?_, fun b b' => run_adding_removing c h⟩
  · have ⟨hh, ha⟩ := run_adding c h bs
    have ⟨_, ha'⟩ := run_adding c h bs'
    exact ⟨hh, ha.free, ha.eq_of_perm ha' (c.run _) (c.run _) hp⟩
  · have ⟨hh, hf, hl⟩ := run_removing c h bs
    have ⟨_, hf', hl'⟩ := run_removing c h bs'
    refine ⟨hh, hf, (c.run _).eq_of_addressSet (c.run _) (hl.trans hl'.symm) ?_⟩
    rw [hf, hf', Bounds.addresses_perm hp]

-- Three stretches, of which the last one lies between the other two and touches both.
theorem edits_in_any_order_of_touching :
    let bounds (first last : UInt8) (h : first.toNat ≤ last.toNat) : Bounds 1 :=
      { first := .octets ⟨[first]⟩, last := .octets ⟨[last]⟩, named := ⟨⟨[first]⟩, ⟨[last]⟩⟩
        names := rfl
        fits  := ⟨rfl, rfl, by simpa [Address.value, Octets.value, Octets.space] using h⟩ }
    let low     := bounds 1 3 (by decide)
    let high    := bounds 6 9 (by decide)
    let between := bounds 4 5 (by decide)
    let t := run {} [.add (.octets ⟨[2]⟩) (.octets ⟨[7]⟩)]
    t.Reachable ∧ t.Admits 1 ∧ [low, high, between].Perm [between, high, low]
    ∧ (t.run [low.adding, high.adding, between.adding]).free = [⟨⟨[1]⟩, ⟨[9]⟩⟩]
    ∧ t.run [low.adding, high.adding, between.adding] = t.run [between.adding, high.adding, low.adding]
    ∧ (t.run [low.removing, high.removing, between.removing]).free = []
    ∧ t.run [low.removing, high.removing, between.removing]
      = t.run [between.removing, high.removing, low.removing]
    ∧ Disjoint between.named.addresses low.named.addresses
    ∧ (t.run [between.adding, low.removing]).free = [⟨⟨[4]⟩, ⟨[7]⟩⟩]
    ∧ t.run [between.adding, low.removing] = t.run [low.removing, between.adding] := by
  intro bounds low high between t
  have ht : t.Reachable := ⟨none, _, rfl⟩
  have h : t.Admits 1 := .inr rfl
  have hp : [low, high, between].Perm [between, high, low] := List.reverse_perm [between, high, low]
  have hd : Disjoint between.named.addresses low.named.addresses :=
    not_not.mp <| (Interval.overlaps_iff_not_disjoint between.fits low.fits).not.mp (by decide)
  obtain ⟨ha, hr, hc⟩ := edits_in_any_order t ht 1 h
  exact ⟨ht, h, hp, by decide, (ha _ _ hp).right.right, by decide, (hr _ _ hp).right.right, hd,
    by decide, hc _ _ hd⟩

end AddressSpace.Allocator
