import AddressSpace.Proofs.Allocator.Effect

/-!
The invariant of allocators: the free list is canonical, for the length that the allocator is fixed to.
It holds of an empty allocator, every call keeps it, and so it holds after every run.
-/

namespace AddressSpace.Allocator

variable {t : Allocator} {is : List Interval} {i : Interval} {x : Address} {octetCount : Nat}

-- All free stretches have bounds of the one length that the allocator is fixed to and in order, and
-- the stretches are in order too, with at least one address between neighbours.
structure Canonical (t : Allocator) : Prop where
  fixed : ∀ i ∈ t.free, t.length? = some (i.first.length : Int)
  even  : ∀ i ∈ t.free, i.first.length = i.last.length
  le    : ∀ i ∈ t.free, i.first.value ≤ i.last.value
  apart : t.free.Pairwise fun i j => i.last.value + 1 < j.first.value

theorem canonical_iff : t.Canonical ↔ ∃ octetCount : Nat,
    t.free.Canonical octetCount ∧ (t.free ≠ [] → t.length? = some (octetCount : Int)) := by
  constructor
  · intro c
    cases hf : t.free
    case nil => exact ⟨0, .nil, absurd rfl⟩
    case cons i l =>
      have hl := c.fixed i (hf ▸ .head l)
      refine ⟨i.first.length, hf ▸ .of_fits (fun j hj => ?_) c.apart, fun _ => hl⟩
      have hj' : j.first.length = i.first.length := by
        have hj := (c.fixed j hj).symm.trans hl
        exact Int.ofNat.inj (Option.some.inj hj)
      exact ⟨hj', (c.even j hj) ▸ hj', c.le j hj⟩
  · intro ⟨k, c, hl⟩
    exact {
      fixed := fun i hi => (c.fits hi).first ▸ hl (List.ne_nil_of_mem hi)
      even  := fun i hi => (c.fits hi).length_eq
      le    := fun i hi => (c.fits hi).le
      apart := c.apart }

namespace Canonical

theorem empty (octetCount : Option Number) : Canonical { octetCount } :=
  canonical_iff.mpr ⟨0, .nil, absurd rfl⟩

-- Where an address is accepted, the free list is canonical for its length.
theorem of_accept (c : t.Canonical) (h : t.accept x = .ok ()) : t.free.Canonical x.length := by
  have ⟨k, ck, hl⟩ := canonical_iff.mp c
  by_cases hf : t.free = []
  case pos => exact hf ▸ .nil
  case neg =>
    have hk := hl hf
    cases accept_eq_ok_iff.mp h
    case inl h => simp [length?, h] at hk
    case inr h => exact Int.ofNat.inj (Option.some.inj (hk.symm.trans h)) ▸ ck

theorem supplied (c : t.Canonical) (hi : i.Fits i.first.length) (h : t.accept i.first = .ok ()) :
    (t.supplied i).Canonical :=
  canonical_iff.mpr
    ⟨i.first.length, FreeList.canonical_add (c.of_accept h) hi, fun _ => length?_supplied h⟩

theorem without (c : t.Canonical) (ck : t.free.Canonical octetCount)
    (h : ∀ i ∈ is, i.Fits octetCount) : (t.without is).Canonical := by
  have hc := FreeList.canonical_foldl_remove ck h
  have ha := FreeList.addresses_foldl_remove ck h
  refine canonical_iff.mpr ⟨octetCount, hc, fun hne => ?_⟩
  -- A stretch is left, and its first address was free before.
  have ⟨j, hj⟩ := List.exists_mem_of_ne_nil _ hne
  have hm := FreeList.mem_addresses.mpr ⟨j, hj, (hc.fits hj).first_mem⟩
  have ⟨i, hi, _⟩ := FreeList.mem_addresses.mp (Finset.mem_sdiff.mp (ha ▸ hm)).left
  exact (ck.fits hi).first ▸ c.fixed i hi

end Canonical

-- Every call keeps the invariant, whether it is refused or not.
theorem Canonical.of_effect {c : Call} {answer : Except Fault Answer} {t' : Allocator}
    (h : t.Canonical) (e : Effect t c answer t') : t'.Canonical := by
  cases e
  case add hs hle ha => exact h.supplied (fits_of_stretch hs hle) ha
  case remove i hs hle ha =>
    exact h.without (h.of_accept ha) (by simpa using fits_of_stretch hs hle)
  case release ha => exact h.supplied (FreeList.fits_single rfl) ha
  case take hx _ =>
    have ⟨k, ck, _⟩ := canonical_iff.mp h
    exact h.without ck (by simpa using FreeList.fits_single (ck.length_of_mem hx))
  case takeBlock ck ct _ _ => exact h.without ck fun i hi => ct.fits hi
  all_goals exact h

theorem Canonical.after (h : t.Canonical) (c : Call) : (t.after c).Canonical :=
  have ⟨_, ck, _⟩ := canonical_iff.mp h
  h.of_effect (effect ck c)

theorem Canonical.run (h : t.Canonical) (calls : List Call) : (t.run calls).Canonical := by
  induction calls generalizing t
  case nil              => exact h
  case cons c calls hi  => exact hi (h.after c)

theorem Canonical.octetCount_run {n : Number} (h : t.Canonical) (hn : t.octetCount = some n)
    (calls : List Call) : (t.run calls).octetCount = some n := by
  induction calls generalizing t
  case nil => exact hn
  case cons c calls hi =>
    have ⟨_, ck, _⟩ := canonical_iff.mp h
    exact hi (h.after c) (octetCount_after ck hn c)

-- Where a length is fixed, the free list is canonical for it.
theorem Canonical.free_canonical (h : t.Canonical) (hn : t.octetCount = some (.int octetCount)) :
    t.free.Canonical octetCount := by
  have ⟨_, ck, hl⟩ := canonical_iff.mp h
  by_cases hf : t.free = []
  case pos => exact hf ▸ .nil
  case neg =>
    have hl := hl hf
    simp only [length?, hn, Option.bind_some, Number.toInt?, Option.some.injEq, Int.ofNat_inj] at hl
    exact hl ▸ ck

-- What a run can make of an empty allocator.
def Reachable (t : Allocator) : Prop :=
  ∃ octetCount calls, run { octetCount } calls = t

theorem Reachable.canonical (h : t.Reachable) : t.Canonical :=
  have ⟨n, calls, e⟩ := h
  e ▸ (Canonical.empty n).run calls

-- The free list is determined by the addresses in it.
theorem Canonical.free_eq {t' : Allocator} (h : t.Canonical) (h' : t'.Canonical)
    (he : t.free.addresses = t'.free.addresses) : t.free = t'.free := by
  have ⟨k, ck, _⟩ := canonical_iff.mp h
  have ⟨k', ck', _⟩ := canonical_iff.mp h'
  cases hf : t.free
  case nil => exact (ck'.addresses_eq_empty_iff.mp (he ▸ hf ▸ FreeList.addresses_nil)).symm
  case cons i l =>
    have hi : i ∈ t.free := hf ▸ .head l
    have hm := FreeList.mem_addresses.mpr ⟨i, hi, (ck.fits hi).first_mem⟩
    have hk : k = k' := (ck.length_of_mem hm).symm.trans (ck'.length_of_mem (he ▸ hm))
    exact hf ▸ ck.ext (hk ▸ ck') he

-- After every run, whatever its calls and whichever of them are refused, the free stretches are sorted,
-- apart and of the one length that the allocator is fixed to.
theorem free_canonical_of_run (octetCount : Option Number) (calls : List Call) :
    let t := run { octetCount } calls
    (∀ i ∈ t.free, i.first.length = i.last.length
      ∧ (∃ n, t.octetCount = some n ∧ n.toInt? = some (i.first.length : Int))
      ∧ i.first.value ≤ i.last.value)
    ∧ t.free.Pairwise fun i j => i.last.value + 1 < j.first.value := by
  have h := (Canonical.empty octetCount).run calls
  exact ⟨fun i hi => ⟨h.even i hi, Option.bind_eq_some_iff.mp (h.fixed i hi), h.le i hi⟩, h.apart⟩

end AddressSpace.Allocator
