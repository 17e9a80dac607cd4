import AddressSpace.Proofs.FreeList.Count

/-!
A stretch that is put into a free list in one sweep over the list. Each stretch of the list is compared with
the bounds that the new one came with; what overlaps or meets it is taken in, all else is kept, and the
place for the new one is found on the way. On a canonical list this is the same as putting the stretch at its
place and going on with what it has become.
-/

namespace AddressSpace.FreeList

-- Where a sweep stands: what the new stretch has become, what is kept beside it, and how much of that comes in
-- front of it, once this is known.
structure Sweep where
  widened : Interval
  kept    : FreeList := []
  place   : Option Nat := none

namespace Sweep

def step (new : Interval) (s : Sweep) (i : Interval) : Sweep :=
  if i.last.isShortOf new.first || new.last.isShortOf i.first then
    { s with
      kept  := s.kept ++ [i]
      place := if s.place.isNone && decide (new.first < i.first) then some s.kept.length else s.place }
  else
    { s with
      widened := s.widened.hull i
      place   := if s.place.isNone then some s.kept.length else s.place }

-- Where no place was found, the new stretch comes last.
def close (s : Sweep) : FreeList :=
  s.kept.insertIdx (s.place.getD s.kept.length) s.widened

end Sweep

def sweep (new : Interval) (l : FreeList) : FreeList :=
  (l.foldl (Sweep.step new) { widened := new }).close

variable {octetCount : Nat} {l lower old upper kept : FreeList} {new wide i : Interval} {s : Sweep}

-- At the place behind so many stretches, a new one comes between these and the others.
theorem insertIdx_length_append (l l' : FreeList) (i : Interval) :
    (l ++ l').insertIdx l.length i = l ++ i :: l' := by
  induction l
  case nil         => rfl
  case cons j l hl => exact congrArg (j :: ·) hl

namespace Sweep

-- The sweep has come past some stretches, and what it keeps from there on comes behind the new one.
structure Past (lower kept : FreeList) (wide : Interval) (s : Sweep) : Prop where
  widened : s.widened = wide
  kept    : s.kept = lower ++ kept
  place   : s.place.getD s.kept.length = lower.length

-- Before the first stretch is taken in or lies above, no place is found.
theorem foldl_lower (hs : ∀ i ∈ lower, i.last.isShortOf new.first) (hl : ∀ i ∈ lower, ¬ new.first < i.first)
    (kept : FreeList) :
    lower.foldl (step new) { widened := new, kept } = { widened := new, kept := kept ++ lower } := by
  induction lower generalizing kept
  case nil => simp
  case cons i lower hi =>
    obtain ⟨his, hs⟩ := List.forall_mem_cons.mp hs
    obtain ⟨hil, hl⟩ := List.forall_mem_cons.mp hl
    have hstep : step new { widened := new, kept } i = { widened := new, kept := kept ++ [i] } := by
      simp [step, his, hil]
    rw [List.foldl_cons, hstep, hi hs hl, List.append_assoc, List.singleton_append]

namespace Past

theorem takeIn (h : Past lower kept wide s) (h₁ : ¬ i.last.isShortOf new.first)
    (h₂ : ¬ new.last.isShortOf i.first) : Past lower kept (wide.hull i) (s.step new i) := by
  have hp := h.place
  cases hs : s.place <;> simp only [hs, Option.getD_none, Option.getD_some] at hp
  all_goals exact ⟨by simp [step, h₁, h₂, h.widened], by simp [step, h₁, h₂, h.kept], by simp [step, h₁, h₂, hs, hp]⟩

theorem keep (h : Past lower kept wide s) (h₁ : new.last.isShortOf i.first) (h₂ : new.first < i.first) :
    Past lower (kept ++ [i]) wide (s.step new i) := by
  have hp := h.place
  cases hs : s.place <;> simp only [hs, Option.getD_none, Option.getD_some] at hp
  all_goals exact ⟨by simp [step, h₁, h.widened], by simp [step, h₁, h.kept], by simp [step, h₁, h₂, hs, hp]⟩

theorem foldl_takeIn (h : Past lower kept wide s) (h₁ : ∀ i ∈ old, ¬ i.last.isShortOf new.first)
    (h₂ : ∀ i ∈ old, ¬ new.last.isShortOf i.first) :
    Past lower kept (old.foldl Interval.hull wide) (old.foldl (step new) s) := by
  induction old generalizing wide s
  case nil => exact h
  case cons i old hi =>
    obtain ⟨hi₁, h₁⟩ := List.forall_mem_cons.mp h₁
    obtain ⟨hi₂, h₂⟩ := List.forall_mem_cons.mp h₂
    exact hi (h.takeIn hi₁ hi₂) h₁ h₂

theorem foldl_keep (h : Past lower kept wide s) (h₁ : ∀ i ∈ upper, new.last.isShortOf i.first)
    (h₂ : ∀ i ∈ upper, new.first < i.first) : Past lower (kept ++ upper) wide (upper.foldl (step new) s) := by
  induction upper generalizing kept s
  case nil => simpa using h
  case cons i upper hi =>
    obtain ⟨hi₁, h₁⟩ := List.forall_mem_cons.mp h₁
    obtain ⟨hi₂, h₂⟩ := List.forall_mem_cons.mp h₂
    simpa using hi (h.keep hi₁ hi₂) h₁ h₂

theorem close_eq (h : Past lower kept wide s) : s.close = lower ++ wide :: kept := by
  rw [close, h.place, h.kept, h.widened, insertIdx_length_append]

end Past

end Sweep

theorem sweep_eq_add (c : l.Canonical octetCount) (hn : new.Fits octetCount) : sweep new l = add new l := by
  obtain ⟨lower, old, upper, h⟩ := c.exists_touching hn
  rw [(h.add_eq c hn).left, sweep]
  obtain rfl := h.parted.eq
  have hle := hn.le
  have hf : ∀ i ∈ lower ++ old ++ upper, i.Fits octetCount := fun i hi => c.fits hi
  simp only [List.forall_mem_append] at hf
  obtain ⟨⟨hfl, hfo⟩, hfu⟩ := hf
  have hshort : ∀ i ∈ lower, i.last.isShortOf new.first := fun i hi =>
    (Address.isShortOf_iff ((hfl i hi).last.trans hn.first.symm)).mpr (h.lower i hi)
  have hbelow : ∀ i ∈ lower, ¬ new.first < i.first := fun i hi => by
    have := (hfl i hi).le
    have := h.lower i hi
    rw [Address.lt_iff_value_lt (hn.first.trans (hfl i hi).first.symm)]
    omega
  have ho : ∀ i ∈ old, ¬ i.last.isShortOf new.first ∧ ¬ new.last.isShortOf i.first := fun i hi => by
    have ht := (Interval.touches_iff (hfo i hi) hn).mp (h.parted.old i hi)
    rw [Address.isShortOf_iff ((hfo i hi).last.trans hn.first.symm),
      Address.isShortOf_iff (hn.last.trans (hfo i hi).first.symm)]
    omega
  have hu : ∀ i ∈ upper, new.last.isShortOf i.first ∧ new.first < i.first := fun i hi => by
    have := h.upper i hi
    rw [Address.isShortOf_iff (hn.last.trans (hfu i hi).first.symm),
      Address.lt_iff_value_lt (hn.first.trans (hfu i hi).first.symm)]
    omega
  have hp : Sweep.Past lower [] new { widened := new, kept := lower } := ⟨rfl, by simp, rfl⟩
  rw [List.foldl_append, List.foldl_append, Sweep.foldl_lower hshort hbelow, List.nil_append]
  have hp := hp.foldl_takeIn (fun i hi => (ho i hi).left) fun i hi => (ho i hi).right
  have hp := hp.foldl_keep (fun i hi => (hu i hi).left) fun i hi => (hu i hi).right
  exact hp.close_eq

-- Stretches that meet each other are told apart by a sweep, as only one of them meets the new one.
example :
    let l : FreeList := [⟨⟨[1]⟩, ⟨[5]⟩⟩, ⟨⟨[6]⟩, ⟨[9]⟩⟩]
    sweep ⟨⟨[0]⟩, ⟨[2]⟩⟩ l = [⟨⟨[0]⟩, ⟨[5]⟩⟩, ⟨⟨[6]⟩, ⟨[9]⟩⟩] ∧ add ⟨⟨[0]⟩, ⟨[2]⟩⟩ l = [⟨⟨[0]⟩, ⟨[9]⟩⟩] := by
  decide

end AddressSpace.FreeList
