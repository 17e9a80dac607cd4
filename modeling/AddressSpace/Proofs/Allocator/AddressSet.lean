import AddressSpace.Proofs.Allocator.Canonical

/-!
Allocators as plain sets of addresses. A call to an allocator does to the set of its free addresses
what the same call does to a set, with the same answer; so a run of an allocator is a run of a set.
-/

namespace AddressSpace

-- Free addresses, and the length that they have once it is fixed.
structure AddressSet where
  octetCount : Option Number
  free : Finset Address

namespace Allocator

-- A call, and its answer or the fault with which it was refused.
structure Event where
  call : Call
  outcome : Except Fault Answer

def history (t : Allocator) : List Call → List Event
  | []         => []
  | c :: calls => { call := c, outcome := t.outcome c } :: (t.after c).history calls

-- The addresses that lie in a free stretch, and have the length of its bounds.
def addressSet (t : Allocator) : AddressSet :=
  { octetCount := t.octetCount, free := t.free.addresses }

end Allocator

namespace AddressSet

open Allocator (Call Answer Event Refuses stretch accept)

-- The set with addresses of a length added, which fixes the length if nothing did before.
def supplied (s : AddressSet) (length : Nat) (new : Finset Address) : AddressSet :=
  { octetCount := some (s.octetCount.getD (.int length)), free := s.free ∪ new }

def without (s : AddressSet) (old : Finset Address) : AddressSet :=
  { s with free := s.free \ old }

-- What a call does to a set of addresses. A block is any set of addresses below all others that is
-- large enough, in stretches that are in order and apart.
inductive Step (s : AddressSet) : Event → AddressSet → Prop
  | refused {c f} : Refuses s.octetCount s.free.card c f → Step s ⟨c, .error f⟩ s
  | add {first last i} : stretch first last = .ok i → i.first ≤ i.last →
    accept { octetCount := s.octetCount } i.first = .ok () →
    Step s ⟨.add first last, .ok .done⟩ (s.supplied i.first.length i.addresses)
  | removeReversed {first last i} : stretch first last = .ok i → i.last < i.first →
    Step s ⟨.remove first last, .ok (.flag false)⟩ s
  | remove {first last i b} : stretch first last = .ok i → i.first ≤ i.last →
    accept { octetCount := s.octetCount } i.first = .ok () →
    (b = true ↔ ¬ Disjoint s.free i.addresses) →
    Step s ⟨.remove first last, .ok (.flag b)⟩ (s.without i.addresses)
  | release {a x} : a.resolve = .ok x → accept { octetCount := s.octetCount } x = .ok () →
    Step s ⟨.release a, .ok .done⟩ (s.supplied x.length {x})
  | take {x} : x ∈ s.free → (∀ y ∈ s.free, x ≤ y) →
    Step s ⟨.take, .ok (.address x)⟩ (s.without {x})
  | takeBlock {octetCount is} : FreeList.Canonical octetCount is →
    FreeList.addresses is ⊆ s.free → FreeList.blockSize ≤ (FreeList.addresses is).card →
    (∀ x ∈ FreeList.addresses is, ∀ y ∈ s.free \ FreeList.addresses is, x < y) →
    Step s ⟨.takeBlock, .ok (.stretches is)⟩ (s.without (FreeList.addresses is))
  | freeList {octetCount is} : FreeList.Canonical octetCount is → FreeList.addresses is = s.free →
    Step s ⟨.freeList, .ok (.stretches is)⟩ s
  | freeCount : Step s ⟨.freeCount, .ok (.count s.free.card)⟩ s
  | contains {a x b} : a.resolve = .ok x → accept { octetCount := s.octetCount } x = .ok () →
    (b = true ↔ x ∈ s.free) → Step s ⟨.contains a, .ok (.flag b)⟩ s

inductive Run : AddressSet → List Event → AddressSet → Prop
  | refl {s} : Run s [] s
  | step {s₁ s₂ s₃ e es} : Step s₁ e s₂ → Run s₂ es s₃ → Run s₁ (e :: es) s₃

end AddressSet

namespace Allocator

open AddressSet (Step Run)

variable {t t' : Allocator} {c : Call} {i : Interval} {octetCount : Nat}

theorem addressSet_supplied (h : t.Canonical) (hi : i.Fits i.first.length)
    (ha : t.accept i.first = .ok ()) :
    (t.supplied i).addressSet = t.addressSet.supplied i.first.length i.addresses := by
  simp [addressSet, supplied, AddressSet.supplied, FreeList.addresses_add (h.of_accept ha) hi]

theorem addressSet_without (is : List Interval) (h : t.free.Canonical octetCount)
    (hi : ∀ i ∈ is, i.Fits octetCount) :
    (t.without is).addressSet = t.addressSet.without (FreeList.addresses is) := by
  simp [addressSet, without, AddressSet.without, FreeList.addresses_foldl_remove h hi]

theorem step_of_effect {answer : Except Fault Answer} (h : t.Canonical) (e : Effect t c answer t') :
    Step t.addressSet ⟨c, answer⟩ t'.addressSet := by
  have ⟨k, ck, _⟩ := canonical_iff.mp h
  have hcard : t.free.size = t.addressSet.free.card := ck.size_eq_card
  cases e
  case refused hr => exact .refused (hcard ▸ hr)
  case add hs hle ha =>
    rw [addressSet_supplied h (fits_of_stretch hs hle) ha]
    exact .add hs hle ha
  case removeReversed hs hr => exact .removeReversed hs hr
  case remove i hs hle ha =>
    have hi := fits_of_stretch hs hle
    have hw := addressSet_without [i] (h.of_accept ha) (by simpa using hi)
    rw [hw, FreeList.addresses_singleton]
    exact .remove hs hle ha (FreeList.overlaps_iff_not_disjoint (h.of_accept ha) hi)
  case release x hr ha =>
    have hs := addressSet_supplied h (FreeList.fits_single (a := x) rfl) ha
    rw [hs, Interval.addresses_single]
    exact .release hr ha
  case take x hx hle =>
    have hi := FreeList.fits_single (ck.length_of_mem hx)
    rw [addressSet_without _ ck (by simpa using hi), FreeList.addresses_singleton,
      Interval.addresses_single]
    exact .take hx hle
  case takeBlock taken stop ck ct hs hm =>
    rw [addressSet_without _ ck fun i hi => ct.fits hi]
    refine .takeBlock ct (fun x hx => ((hm x).mp hx).left) (ct.size_eq_card ▸ hs) fun x hx y hy => ?_
    have ⟨hx, hxs⟩ := (hm x).mp hx
    have ⟨hy, hyt⟩ := Finset.mem_sdiff.mp hy
    have hys : ¬ y.value ≤ stop.value := fun hle => hyt ((hm y).mpr ⟨hy, hle⟩)
    rw [Address.lt_iff_value_lt ((ck.length_of_mem hx).trans (ck.length_of_mem hy).symm)]
    omega
  case freeList  => exact .freeList ck rfl
  case freeCount => exact hcard ▸ .freeCount
  case contains hr ha => exact .contains hr ha ((h.of_accept ha).covers_iff rfl)

theorem step_after (h : t.Canonical) (c : Call) :
    Step t.addressSet ⟨c, t.outcome c⟩ (t.after c).addressSet :=
  have ⟨_, ck, _⟩ := canonical_iff.mp h
  step_of_effect h (effect ck c)

theorem run_history (h : t.Canonical) (calls : List Call) :
    Run t.addressSet (t.history calls) (t.run calls).addressSet := by
  induction calls generalizing t
  case nil             => exact .refl
  case cons c calls hi => exact .step (step_after h c) (hi (h.after c))

-- The flag that a removal answers tells whether it changed the list.
theorem flag_iff_free_ne {first last : Address.Source} {b : Bool} (h : t.Canonical)
    (hb : t.outcome (.remove first last) = .ok (.flag b)) :
    b = true ↔ (t.after (.remove first last)).free ≠ t.free := by
  have ⟨_, ck, _⟩ := canonical_iff.mp h
  have e := effect ck (.remove first last)
  rw [hb] at e
  generalize t.after (.remove first last) = t' at e ⊢
  cases e
  case removeReversed => simp
  case remove i hle ha hs =>
    exact FreeList.overlaps_iff_remove_ne (h.of_accept ha) (fits_of_stretch hs hle)

theorem Canonical.size_free (h : t.Canonical) : t.free.size = t.addressSet.free.card :=
  have ⟨_, ck, _⟩ := canonical_iff.mp h
  ck.size_eq_card

theorem length_of_mem_addressSet {x : Address} (h : t.Canonical) (hx : x ∈ t.addressSet.free) :
    t.length? = some (x.length : Int) := by
  have ⟨i, hi, hx⟩ := FreeList.mem_addresses.mp hx
  exact (Interval.mem_addresses.mp hx).left ▸ h.fixed i hi

-- Every call after every run is a step of the set, and the run itself is one of the set.
theorem simulates_addressSet (octetCount : Option Number) (calls : List Call) (c : Call) :
    let t := run { octetCount } calls
    Step t.addressSet ⟨c, t.outcome c⟩ (t.after c).addressSet
    ∧ (∀ first last b, t.outcome (.remove first last) = .ok (.flag b) →
      (b = true ↔ (t.after (.remove first last)).free ≠ t.free))
    ∧ (∀ x ∈ t.addressSet.free, t.length? = some (x.length : Int))
    ∧ Run { octetCount, free := ∅ } (history { octetCount } calls) t.addressSet := by
  have h₀ := Canonical.empty octetCount
  have h := h₀.run calls
  exact ⟨step_after h c, fun _ _ _ => flag_iff_free_ne h, fun _ => length_of_mem_addressSet h,
    run_history h₀ calls⟩

end Allocator

end AddressSpace
