import AddressSpace.Proofs.Pool.Operation

/-!
A set of pools as eight allocators that know nothing of each other, one for each pool and family. Each of
them is what it would be if it had stood alone and had received just the operations that reach it.
-/

namespace AddressSpace

namespace Allocator

-- The addresses that an answer names.
def Answer.named : Answer → List Address
  | .address x    => [x]
  | .stretches is => is.flatMap fun i => [i.first, i.last]
  | _             => []

variable {t t' : Allocator} {c : Call} {answer : Answer} {octetCount : Nat}

-- Whatever an allocator hands out or lists has the length of its free addresses.
theorem length_of_mem_named (h : t.free.Canonical octetCount) (e : Effect t c (.ok answer) t') :
    ∀ x ∈ answer.named, x.length = octetCount := by
  cases e
  case take x hx _ => simpa [Answer.named] using h.length_of_mem hx
  case takeBlock taken stop _ ct _ hm =>
    simp only [Answer.named, List.mem_flatMap, List.mem_cons, List.not_mem_nil, or_false]
    rintro x ⟨i, hi, hx⟩
    have hfree {a : Address} (ha : a ∈ i.addresses) : a ∈ t.free.addresses :=
      ((hm a).mp (FreeList.mem_addresses.mpr ⟨i, hi, ha⟩)).left
    cases hx
    case inl hx => exact hx ▸ h.length_of_mem (hfree (ct.fits hi).first_mem)
    case inr hx => exact hx ▸ h.length_of_mem (hfree (ct.fits hi).last_mem)
  case freeList =>
    simp only [Answer.named, List.mem_flatMap, List.mem_cons, List.not_mem_nil, or_false]
    rintro x ⟨i, hi, rfl | rfl⟩
    · exact (h.fits hi).first
    · exact (h.fits hi).last
  all_goals simp [Answer.named]

end Allocator

namespace PoolSet

-- An allocator of a family's addresses that belongs to no pool.
def alone (f : Family) : Allocator :=
  { octetCount := some (.int f.octetCount) }

-- The calls of a run that reach an allocator, in order.
def received (n : PoolName) (f : Family) (os : List Operation) : List Allocator.Call :=
  (os.filter (Operation.Reaches n f)).map Operation.bare

variable {s : PoolSet} {o : Operation} {n : PoolName} {f : Family}

theorem allocator_empty (n : PoolName) (f : Family) : allocator .empty n f = alone f := by
  cases n <;> cases f <;> rfl

@[simp]
theorem addresses_allocator_empty (n : PoolName) (f : Family) : (allocator .empty n f).free.addresses = ∅ := by
  rw [allocator_empty]
  rfl

-- Of a run, each allocator sees only what reaches it.
theorem allocator_run (s : PoolSet) (os : List Operation) (n : PoolName) (f : Family) :
    allocator (s.run os) n f = (s.allocator n f).run (received n f os) := by
  induction os generalizing s
  case nil => rfl
  case cons o os hi =>
    have ha := allocator_after (s := s) o n f
    by_cases h : o.Reaches n f
    case pos =>
      rw [if_pos h] at ha
      have hr : received n f (o :: os) = o.bare :: received n f os := by simp [received, h]
      rw [hr]
      exact (hi (s.after o)).trans (by rw [ha]; rfl)
    case neg =>
      rw [if_neg h] at ha
      have hr : received n f (o :: os) = received n f os := by simp [received, h]
      rw [hr]
      exact (hi (s.after o)).trans (by rw [ha])

/-! ### The invariant of pools -/

-- Every allocator is canonical, and fixed to the length of its family.
structure Sound (s : PoolSet) : Prop where
  canonical  : ∀ n f, (s.allocator n f).Canonical
  octetCount : ∀ n f, (s.allocator n f).octetCount = some (.int f.octetCount)

theorem Sound.empty : Sound .empty where
  canonical n f  := allocator_empty n f ▸ Allocator.Canonical.empty _
  octetCount n f := allocator_empty n f ▸ rfl

theorem Sound.run (h : s.Sound) (os : List Operation) : Sound (s.run os) where
  canonical n f  := allocator_run s os n f ▸ (h.canonical n f).run _
  octetCount n f := allocator_run s os n f ▸ (h.canonical n f).octetCount_run (h.octetCount n f) _

theorem Sound.free_canonical (h : s.Sound) (n : PoolName) (f : Family) :
    (s.allocator n f).free.Canonical f.octetCount :=
  (h.canonical n f).free_canonical (h.octetCount n f)

/-! ### Runs -/

-- A fault on loading names the pool and the stretch.
theorem outcome_seed_eq_error {name : Text} {i : Interval} {r : Refusal}
    (h : PoolName.ofText? name = some n) (hr : s.outcome (.seed name i) = .error r) :
    ∃ e, r = .seed (.seed n i e) := by
  simp only [outcome, h] at hr
  cases ha : (s.get n).add (.octets i.first) (.octets i.last)
  case error e =>
    rw [(seed_of_add_error ha).right] at hr
    exact ⟨e, (Except.error.inj hr).symm⟩
  case ok p => simp [(seed_of_add_ok ha).right] at hr

-- After any run, each allocator is the one that stood alone and received only what was meant for it, and
-- answers as that one does. It holds addresses of its family alone, and nothing that is meant for another
-- one, or that is refused, changes it.
theorem allocators_independent (os : List Operation) (o : Operation) (n : PoolName) (f : Family) :
    let s := run .empty os
    let t := (alone f).run (received n f os)
    s.allocator n f = t
    ∧ (∀ i ∈ (s.get n).free f, i.first.length = f.octetCount ∧ i.last.length = f.octetCount)
    ∧ (o.Reaches n f → s.outcome o = (t.outcome o.bare).mapError (o.refusal n)
      ∧ ∀ answer, s.outcome o = .ok answer → ∀ x ∈ answer.named, x.length = f.octetCount)
    ∧ (¬ o.Reaches n f → allocator (s.after o) n f = s.allocator n f)
    ∧ ((∀ m g, ¬ o.Reaches m g) → ∃ r, s.outcome o = .error r)
    ∧ (∀ r, s.outcome o = .error r → ∀ m g, allocator (s.after o) m g = s.allocator m g)
    ∧ ∀ name i r, PoolName.ofText? name = some n → s.outcome (.seed name i) = .error r →
      ∃ e, r = .seed (.seed n i e) := by
  intro s t
  have ht : s.allocator n f = t := (allocator_run .empty os n f).trans (by rw [allocator_empty])
  have hs : s.Sound := Sound.empty.run os
  have hc := hs.free_canonical n f
  refine ⟨ht, fun i hi => ⟨(hc.fits hi).first, (hc.fits hi).last⟩, fun h => ?_, fun h => ?_,
    fun h => (step_of_not_reaches h).left, fun r hr m g => by rw [after_eq_self hr],
    fun name i r => outcome_seed_eq_error⟩
  · have ho := (step_of_reaches h (s := s)).left
    refine ⟨ht ▸ ho, fun answer ha => ?_⟩
    have e := Allocator.effect hc o.bare
    cases hb : (s.allocator n f).outcome o.bare
    case error => simp [ho, hb] at ha
    case ok a =>
      rw [ho, hb] at ha
      cases ha
      exact Allocator.length_of_mem_named hc (hb ▸ e)
  · rw [allocator_after, if_neg h]

end PoolSet

end AddressSpace
