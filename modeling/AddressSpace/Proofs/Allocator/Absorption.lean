import AddressSpace.Proofs.Allocator.Edits

/-!
Edits within a stretch, and an edit of the whole stretch behind them. Edits within a stretch change nothing
outside of it; so nothing shows of them any more once the whole stretch is added or removed.
-/

namespace AddressSpace.Allocator

-- A call that adds or removes a part of a stretch.
inductive EditsWithin {octetCount : Nat} (r : Bounds octetCount) : Call → Prop
  | adding {q : Bounds octetCount} : q.named.addresses ⊆ r.named.addresses → EditsWithin r q.adding
  | removing {q : Bounds octetCount} : q.named.addresses ⊆ r.named.addresses → EditsWithin r q.removing

-- Two allocators that differ in some addresses at most, and in whether their length is fixed yet.
structure AgreeOutside (octetCount : Nat) (s : Finset Address) (t t' : Allocator) : Prop where
  free       : t'.addressSet.free \ s = t.addressSet.free \ s
  octetCount : t'.octetCount.getD (.int octetCount) = t.octetCount.getD (.int octetCount)

variable {t t' : Allocator} {octetCount : Nat} {q r : Bounds octetCount} {s : Finset Address}
variable {c : Call} {calls : List Call}

namespace AgreeOutside

theorem refl : AgreeOutside octetCount s t t :=
  ⟨rfl, rfl⟩

theorem trans {u : Allocator} (h : AgreeOutside octetCount s t t') (h' : AgreeOutside octetCount s t' u) :
    AgreeOutside octetCount s t u :=
  ⟨h'.free.trans h.free, h'.octetCount.trans h.octetCount⟩

/-! ### Edits within a stretch -/

theorem adding (hc : t.Canonical) (h : t.Admits octetCount) (hs : q.named.addresses ⊆ s) :
    AgreeOutside octetCount s t (t.after q.adding) where
  free       := by rw [free_adding hc h, Finset.union_sdiff_distrib, Finset.sdiff_eq_empty_iff_subset.mpr hs,
    Finset.union_empty]
  octetCount := by rw [octetCount_adding h, Option.getD_some]

theorem removing (hc : t.Canonical) (h : t.Admits octetCount) (hs : q.named.addresses ⊆ s) :
    AgreeOutside octetCount s t (t.after q.removing) where
  free       := by rw [free_removing hc h, sdiff_sdiff, Finset.sup_eq_union, Finset.union_eq_right.mpr hs]
  octetCount := by rw [octetCount_removing h]

end AgreeOutside

-- An edit within a stretch is not refused, and changes nothing outside of the stretch.
theorem after_of_editsWithin (hc : t.Canonical) (h : t.Admits octetCount) (he : EditsWithin r c) :
    (∃ answer, t.outcome c = .ok answer) ∧ (t.after c).Admits octetCount
    ∧ AgreeOutside octetCount r.named.addresses t (t.after c) := by
  cases he
  case adding q hq   => exact ⟨⟨_, (perform_adding h q).left⟩, h.adding q, .adding hc h hq⟩
  case removing q hq => exact ⟨⟨_, (perform_removing h q).left⟩, h.removing q, .removing hc h hq⟩

-- Nor does a run of such edits.
theorem run_of_editsWithin (hc : t.Canonical) (h : t.Admits octetCount) (he : ∀ c ∈ calls, EditsWithin r c) :
    (∀ e ∈ t.history calls, ∃ answer, e.outcome = .ok answer) ∧ (t.run calls).Admits octetCount
    ∧ AgreeOutside octetCount r.named.addresses t (t.run calls) := by
  induction calls generalizing t
  case nil => exact ⟨by simp [history], h, .refl⟩
  case cons c calls hi =>
    obtain ⟨he, hr⟩ := List.forall_mem_cons.mp he
    obtain ⟨ho, ha, hs⟩ := after_of_editsWithin hc h he
    obtain ⟨ho', ha', hs'⟩ := hi (hc.after c) ha hr
    exact ⟨List.forall_mem_cons.mpr ⟨ho, ho'⟩, ha', hs.trans hs'⟩

/-! ### The whole stretch -/

theorem AgreeOutside.after_adding (hc : t.Canonical) (h : t.Admits octetCount) (hc' : t'.Canonical)
    (h' : t'.Admits octetCount) (ha : AgreeOutside octetCount r.named.addresses t t') :
    t'.after r.adding = t.after r.adding := by
  refine (hc'.after _).eq_of_addressSet (hc.after _) ?_ ?_
  · rw [octetCount_adding h', octetCount_adding h, ha.octetCount]
  · rw [free_adding hc' h', free_adding hc h, ← Finset.sdiff_union_self_eq_union, ha.free,
      Finset.sdiff_union_self_eq_union]

theorem AgreeOutside.free_after_removing (hc : t.Canonical) (h : t.Admits octetCount) (hc' : t'.Canonical)
    (h' : t'.Admits octetCount) (ha : AgreeOutside octetCount r.named.addresses t t') :
    (t'.after r.removing).free = (t.after r.removing).free :=
  (hc'.after _).free_eq (hc.after _) <| by
    have hf := free_removing hc h r
    have hf' := free_removing hc' h' r
    exact hf'.trans (ha.free.trans hf.symm)

theorem run_append : t.run (calls ++ [c]) = (t.run calls).after c := by
  simp [run]

-- The calls come through, and nothing shows of them once a whole stretch is added or removed behind them.
structure Absorbed (r : Bounds octetCount) (t : Allocator) (calls : List Call) : Prop where
  performed : ∀ e ∈ t.history calls, ∃ answer, e.outcome = .ok answer
  adding    : (t.run calls).outcome r.adding = .ok .done ∧ t.run (calls ++ [r.adding]) = t.run [r.adding]
  removing  : (∃ b, (t.run calls).outcome r.removing = .ok (.flag b))
    ∧ (t.run (calls ++ [r.removing])).free = (t.run [r.removing]).free

theorem absorbed_of_editsWithin (hc : t.Canonical) (h : t.Admits octetCount)
    (he : ∀ c ∈ calls, EditsWithin r c) : Absorbed r t calls := by
  have ⟨ho, h', ha⟩ := run_of_editsWithin hc h he
  have hc' := hc.run calls
  exact {
    performed := ho
    adding    := ⟨(perform_adding h' r).left, run_append.trans (ha.after_adding hc h hc' h')⟩
    removing  := by
      rw [run_append]
      exact ⟨⟨_, (perform_removing h' r).left⟩, ha.free_after_removing hc h hc' h'⟩ }

-- A part of the stretch has become free.
theorem outcome_removing_after_adding (hc : t.Canonical) (h : t.Admits octetCount)
    (hq : q.named.addresses ⊆ r.named.addresses) : (t.after q.adding).outcome r.removing = .ok (.flag true) := by
  have h' := h.adding q
  have hf : (t.after q.adding).free.addresses = t.free.addresses ∪ q.named.addresses := free_adding hc h q
  have hm : q.named.first ∈ (t.after q.adding).free.addresses :=
    hf ▸ Finset.mem_union_right _ q.fits.first_mem
  have ho := FreeList.overlaps_of_mem (h'.canonical (hc.after _) r) r.fits hm (hq q.fits.first_mem)
  rw [(perform_removing h' r).left, ho]

-- Nothing is left of what is added to an empty list and removed again.
theorem free_removing_of_nil (h : t.Admits octetCount) (hf : t.free = []) :
    (t.after r.removing).free = [] := by
  rw [(perform_removing h r).right, without, hf]
  rfl

-- Whatever edits within a stretch come first, adding the whole stretch leaves what it leaves without them,
-- and so does removing it. In particular a second edit of the same stretch changes nothing, and what is
-- added to an empty list and removed again leaves it empty.
theorem later_edit_absorbs (t : Allocator) (ht : t.Reachable) (octetCount : Nat) (h : t.Admits octetCount)
    (r : Bounds octetCount) :
    (t.run [r.adding]).addressSet.free = t.addressSet.free ∪ r.named.addresses
    ∧ (t.run [r.removing]).addressSet.free = t.addressSet.free \ r.named.addresses
    ∧ (∀ calls, (∀ c ∈ calls, EditsWithin r c) → Absorbed r t calls)
    ∧ (∀ q : Bounds octetCount, q.named.addresses ⊆ r.named.addresses →
      (t.run [q.adding, r.adding]).free = (t.run [r.adding]).free
      ∧ (t.run [q.removing, r.adding]).free = (t.run [r.adding]).free
      ∧ (t.run [q.removing, r.removing]).free = (t.run [r.removing]).free
      ∧ (t.run [q.adding, r.removing]).free = (t.run [r.removing]).free
      ∧ (t.after q.adding).outcome r.removing = .ok (.flag true))
    ∧ t.run [r.adding, r.adding] = t.run [r.adding]
    ∧ t.run [r.removing, r.removing] = t.run [r.removing]
    ∧ (t.free = [] → (t.run [r.adding, r.removing]).free = []) := by
  have hc := ht.canonical
  have absorbed {c : Call} (he : EditsWithin r c) : Absorbed r t [c] :=
    absorbed_of_editsWithin hc h (List.forall_mem_singleton.mpr he)
  have hr := absorbed (.removing Finset.Subset.rfl)
  refine ⟨free_adding hc h r, free_removing hc h r, fun _ => absorbed_of_editsWithin hc h, fun q hq => ?_,
    (absorbed (.adding Finset.Subset.rfl)).adding.right, ?_, fun hf => ?_⟩
  · have ha := absorbed (.adding hq)
    have hr := absorbed (.removing hq)
    exact ⟨congrArg free ha.adding.right, congrArg free hr.adding.right, hr.removing.right,
      ha.removing.right, outcome_removing_after_adding hc h hq⟩
  · refine Allocator.ext ?_ hr.removing.right
    exact octetCount_removing (h.removing r) r
  · exact (absorbed (.adding Finset.Subset.rfl)).removing.right.trans (free_removing_of_nil h hf)

-- A stretch between two free ones, within a larger stretch that takes in both.
theorem later_edit_absorbs_of_between :
    let bounds (first last : UInt8) (h : first.toNat ≤ last.toNat) : Bounds 1 :=
      { first := .octets ⟨[first]⟩, last := .octets ⟨[last]⟩, named := ⟨⟨[first]⟩, ⟨[last]⟩⟩
        names := rfl
        fits  := ⟨rfl, rfl, by simpa [Address.value, Octets.value, Octets.space] using h⟩ }
    let q := bounds 4 6 (by decide)
    let r := bounds 2 8 (by decide)
    let t := run {} [.add (.octets ⟨[1]⟩) (.octets ⟨[3]⟩), .add (.octets ⟨[7]⟩) (.octets ⟨[9]⟩)]
    t.Reachable ∧ t.Admits 1 ∧ q.named.addresses ⊆ r.named.addresses
    ∧ (t.run [q.adding]).free = [⟨⟨[1]⟩, ⟨[9]⟩⟩]
    ∧ (t.run [r.removing]).free = [⟨⟨[1]⟩, ⟨[1]⟩⟩, ⟨⟨[9]⟩, ⟨[9]⟩⟩]
    ∧ (t.run [q.adding, r.removing]).free = (t.run [r.removing]).free
    ∧ (t.run [q.removing, r.adding]).free = (t.run [r.adding]).free
    ∧ (t.after q.adding).outcome r.removing = .ok (.flag true)
    ∧ (run {} [r.adding, r.removing]).free = [] := by
  intro bounds q r t
  have ht : t.Reachable := ⟨none, _, rfl⟩
  have h : t.Admits 1 := .inr rfl
  have hq : q.named.addresses ⊆ r.named.addresses :=
    (q.fits.addresses_subset_iff r.fits).mpr (by decide)
  have ⟨_, _, _, hw, _⟩ := later_edit_absorbs t ht 1 h r
  have ⟨_, hra, _, har, ho⟩ := hw q hq
  have ⟨_, _, _, _, _, _, he⟩ := later_edit_absorbs {} ⟨none, [], rfl⟩ 1 (.inl rfl) r
  exact ⟨ht, h, hq, by decide, by decide, har, hra, ho, he rfl⟩

end AddressSpace.Allocator
