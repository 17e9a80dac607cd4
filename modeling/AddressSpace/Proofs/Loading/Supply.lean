import AddressSpace.Proofs.Loading.Reachable

/-!
Stretches that loading puts in. A stretch of a family, with its bounds in order, is never refused by a
sound pool; so steps that put such stretches in all succeed, and what they add to each allocator does
not depend on their order.
-/

namespace AddressSpace

-- Stretches, each with the pool that it is meant for.
abbrev Supply := List (PoolName × Interval)

namespace Supply

-- The address lies in a stretch that is meant for a pool, and belongs to a family.
def Covers (l : Supply) (n : PoolName) (f : Family) (x : Address) : Prop :=
  ∃ i, (n, i) ∈ l ∧ x ∈ i.addresses ∧ x.length = f.octetCount

variable {l l' : Supply} {n m : PoolName} {f g : Family} {x : Address} {i : Interval}

@[simp]
theorem not_covers_nil : ¬ Covers [] n f x :=
  nofun

@[simp]
theorem covers_append_iff : Covers (l ++ l') n f x ↔ l.Covers n f x ∨ l'.Covers n f x := by
  simp [Covers, or_and_right, exists_or]

@[simp]
theorem covers_flatMap_iff {α : Type} {as : List α} {l : α → Supply} :
    Covers (as.flatMap l) n f x ↔ ∃ a ∈ as, (l a).Covers n f x := by
  simp only [Covers, List.mem_flatMap]
  constructor
  · rintro ⟨i, ⟨a, ha, hi⟩, hx⟩
    exact ⟨a, ha, i, hi, hx⟩
  · rintro ⟨a, ha, i, hi, hx⟩
    exact ⟨i, ⟨a, ha, hi⟩, hx⟩

theorem covers_single_iff (hi : i.Fits f.octetCount) :
    Covers [(n, i)] m g x ↔ m = n ∧ g = f ∧ x ∈ i.addresses := by
  simp only [Covers, List.mem_singleton, Prod.mk.injEq]
  constructor
  · rintro ⟨_, ⟨rfl, rfl⟩, hx, hl⟩
    exact ⟨rfl, Family.octetCount_inj (hl.symm.trans (hi.mem_iff.mp hx).left), hx⟩
  · rintro ⟨rfl, rfl, hx⟩
    exact ⟨i, ⟨rfl, rfl⟩, hx, (hi.mem_iff.mp hx).left⟩

-- The calls that add the stretches to their pools, in order.
def calls (l : Supply) : List PoolSet.Operation :=
  l.map fun (n, i) => .call n.text (.add (.octets i.first) (.octets i.last))

-- Every stretch belongs to a family, with its bounds in order.
def Fits (l : Supply) : Prop :=
  ∀ p ∈ l, ∃ f : Family, p.2.Fits f.octetCount

end Supply

namespace PoolSet

-- The second pools are the first ones with the addresses of some stretches made free.
structure Supplied (s : PoolSet) (l : Supply) (t : PoolSet) : Prop where
  sound    : t.Sound
  mem_free : ∀ n f x, x ∈ (t.allocator n f).free.addresses ↔
    x ∈ (s.allocator n f).free.addresses ∨ l.Covers n f x

namespace Supplied

variable {s t u : PoolSet} {l l' : Supply}

theorem refl (hs : s.Sound) : Supplied s [] s where
  sound    := hs
  mem_free := by simp

theorem trans (h : Supplied s l t) (h' : Supplied t l' u) : Supplied s (l ++ l') u where
  sound          := h'.sound
  mem_free n f x := by rw [h'.mem_free, h.mem_free, Supply.covers_append_iff, or_assoc]

-- Sound pools are told apart by their free addresses alone.
theorem ext (h : Supplied s l t) (h' : Supplied s l' u)
    (hl : ∀ n f x, l.Covers n f x ↔ l'.Covers n f x) : t = u := by
  refine PoolSet.ext fun n f => Allocator.ext ?_ ?_
  · rw [h.sound.octetCount, h'.sound.octetCount]
  · refine (h.sound.free_canonical n f).ext (h'.sound.free_canonical n f) (Finset.ext fun x => ?_)
    rw [h.mem_free, h'.mem_free, hl]

end Supplied

end PoolSet

namespace Loading

open PoolSet (Supplied)

variable {s : PoolSet} {n : PoolName} {f : Family} {i : Interval} {o : Outcome} {step : Step}
variable {steps : List Step} {l l' : Supply}

theorem add_eq_supplied (hs : s.Sound) (hi : i.Fits f.octetCount) :
    (s.allocator n f).add (.octets i.first) (.octets i.last) = .ok ((s.allocator n f).supplied i) := by
  have hp : 0 < i.first.length := hi.first ▸ Pool.octetCount_pos f
  have hr : ¬ i.last < i.first := by
    rw [Address.lt_iff_value_lt hi.length_eq.symm]
    exact not_lt.mpr hi.le
  have ha : (s.allocator n f).accept i.first = .ok () := by
    simp [Allocator.accept_eq_ok_iff, Allocator.length?, hs.octetCount n f, Number.toInt?, hi.first]
  simp only [Allocator.add, Allocator.stretch_octets hi.length_eq hp, Outcome.ok_bind, hr, ha, if_false]
  rfl

-- A sound pool takes every stretch of a family.
theorem pool_add_of_fits (hs : s.Sound) (hi : i.Fits f.octetCount) :
    (s.get n).add (.octets i.first) (.octets i.last)
      = .ok ((s.get n).setAllocator f ((s.allocator n f).supplied i)) := by
  have hp : 0 < i.first.length := hi.first ▸ Pool.octetCount_pos f
  have hf : (Pool.Call.add (.octets i.first) (.octets i.last)).family? = some f :=
    Pool.family?_add_eq_some_iff.mpr ⟨i.first, i.last, Address.Source.resolve_octets hp,
      Address.Source.resolve_octets (hi.length_eq ▸ hp), hi.first, hi.last⟩
  rw [Pool.add_eq_of_family? hf]
  exact congrArg _ (add_eq_supplied hs hi)

theorem seed_of_fits (hs : s.Sound) (hi : i.Fits f.octetCount) : (seed n i s).fault = none
    ∧ (seed n i s).pools = s.put n f ((s.allocator n f).supplied i) :=
  (PoolSet.seed_of_add_ok (pool_add_of_fits hs hi)).symm

-- On sound pools the step succeeds, and makes the addresses of some stretches free.
def Step.Supplies (step : Step) (l : Supply) : Prop :=
  ∀ s : PoolSet, s.Sound → (step s).fault = none ∧ Supplied s l (step s).pools

namespace Step.Supplies

theorem seed (hi : i.Fits f.octetCount) : (seed n i).Supplies [(n, i)] := by
  intro s hs
  have ⟨hf, hp⟩ := seed_of_fits (n := n) hs hi
  refine ⟨hf, Safe.seed s hs, fun m g x => ?_⟩
  rw [hp, PoolSet.allocator_put, Supply.covers_single_iff hi, ← and_assoc]
  split
  case isTrue h =>
    have ⟨hm, hg⟩ := h
    rw [Allocator.supplied, FreeList.addresses_add (hs.free_canonical n f) hi, Finset.mem_union]
    simp [hm, hg]
  case isFalse h => simp [h]

theorem andThen (ho : o.fault = none) (hs : Supplied s l o.pools) (h : step.Supplies l') :
    (o.andThen step).fault = none ∧ Supplied s (l ++ l') (o.andThen step).pools := by
  have ⟨hf, hp⟩ := h o.pools hs.sound
  rw [fault_andThen ho, pools_andThen ho]
  exact ⟨hf, hs.trans hp⟩

theorem report {source : String} : (report source).Supplies [] :=
  fun _ hs => ⟨rfl, .refl hs⟩

theorem cons (h : step.Supplies l) (ht : (inOrder steps).Supplies l') :
    (inOrder (step :: steps)).Supplies (l ++ l') := fun s hs =>
  have ⟨hf, hp⟩ := h s hs
  andThen hf hp ht

-- Steps in order make free what each of them makes free.
theorem inOrder_map {α : Type} {as : List α} {step : α → Step} {l : α → Supply}
    (h : ∀ a ∈ as, (step a).Supplies (l a)) : (inOrder (as.map step)).Supplies (as.flatMap l) := by
  induction as
  case nil => exact fun s hs => ⟨rfl, .refl hs⟩
  case cons a as hi =>
    have ⟨h₁, h₂⟩ := List.forall_mem_cons.mp h
    exact cons h₁ (hi h₂)

end Step.Supplies

-- Putting a stretch in is what the call that adds it does.
theorem pools_seed_eq_after_add (s : PoolSet) (n : PoolName) (i : Interval) :
    (seed n i s).pools = s.after (.call n.text (.add (.octets i.first) (.octets i.last))) := by
  simp only [seed, PoolSet.after, PoolSet.perform, PoolSet.named_text, Outcome.ok_bind, Pool.perform]
  cases (s.get n).add (.octets i.first) (.octets i.last) <;> rfl

theorem supplied_calls (hs : s.Sound) (hl : l.Fits) : Supplied s l (s.run l.calls) := by
  induction l generalizing s
  case nil => exact .refl hs
  case cons p l hi =>
    have ⟨⟨f, hp⟩, hl⟩ := List.forall_mem_cons.mp hl
    have h : Supplied s [p] (s.after (.call p.1.text (.add (.octets p.2.first) (.octets p.2.last)))) :=
      pools_seed_eq_after_add s p.1 p.2 ▸ (Step.Supplies.seed hp s hs).right
    exact h.trans (hi h.sound hl)

-- What a step supplies, it leaves as the calls do that add it.
theorem Step.Supplies.pools_eq (h : step.Supplies l) (hl : l.Fits) (hs : s.Sound) :
    (step s).pools = s.run l.calls :=
  (h s hs).right.ext (supplied_calls hs hl) fun _ _ _ => Iff.rfl

end Loading

end AddressSpace
