import AddressSpace.Proofs.Allocator.Provenance
import Mathlib.Logic.Function.Basic
import Mathlib.Logic.Relation

/-!
Clients that share an allocator. Each keeps what is handed out to it and gives back only what it holds,
so addresses move between the allocator and its clients, but none is lost and none has two holders.
-/

namespace AddressSpace.Allocator

-- An allocator, and the addresses that each of its clients holds.
structure Tenancy (ι : Type*) where
  allocator : Allocator
  held : ι → Finset Address

-- The calls of a client: it takes addresses, and gives back only what it holds.
inductive Allowed (held : Finset Address) : Call → Prop
  | take : Allowed held .take
  | takeBlock : Allowed held .takeBlock
  | release {a x} : a.resolve = .ok x → x ∈ held → Allowed held (.release a)
  | add {first last i} : stretch first last = .ok i → i.addresses ⊆ held →
    Allowed held (.add first last)

namespace Tenancy

variable {ι : Type*} [DecidableEq ι]

-- No client holds anything yet.
def start (ι : Type*) (t : Allocator) : Tenancy ι :=
  { allocator := t, held := fun _ => ∅ }

-- The tenancy after a call of a client.
def after (s : Tenancy ι) (k : ι) (c : Call) : Tenancy ι :=
  let e : Event := { call := c, outcome := s.allocator.outcome c }
  { allocator := s.allocator.after c
    held      := Function.update s.held k ((s.held k ∪ e.handedOut) \ e.supplied) }

inductive Step (s : Tenancy ι) : Tenancy ι → Prop
  | call (k : ι) {c : Call} : Allowed (s.held k) c → Step s (s.after k c)

end Tenancy

/-! ### Moving addresses -/

section

variable {ι : Type*} {all free new old : Finset Address} {held : ι → Finset Address}
variable {x : Address} {k l : ι}

-- Every address of a set is free or held, and none is in two places or comes from elsewhere.
structure Balanced (all free : Finset Address) (held : ι → Finset Address) : Prop where
  apart : ∀ {x k l}, x ∈ held k → x ∈ held l → k = l
  kept  : ∀ {x k}, x ∈ held k → x ∉ free
  total : ∀ x, x ∈ all ↔ x ∈ free ∨ ∃ k, x ∈ held k

namespace Balanced

theorem start (all : Finset Address) : Balanced all all fun _ : ι => ∅ where
  apart h := absurd h (Finset.notMem_empty _)
  kept h  := absurd h (Finset.notMem_empty _)
  total   := by simp

variable [DecidableEq ι]

theorem mem_update_union :
    x ∈ Function.update held k (held k ∪ new) l ↔ x ∈ held l ∨ (l = k ∧ x ∈ new) := by
  by_cases h : l = k
  case pos => simp [h]
  case neg => simp [h]

theorem mem_update_sdiff :
    x ∈ Function.update held k (held k \ old) l ↔ x ∈ held l ∧ ¬ (l = k ∧ x ∈ old) := by
  by_cases h : l = k
  case pos => simp [h]
  case neg => simp [h]

-- Free addresses go to a client.
theorem handOut (b : Balanced all free held) (k : ι) (h : new ⊆ free) :
    Balanced all (free \ new) (Function.update held k (held k ∪ new)) where
  apart {x l₁ l₂} h₁ h₂ := by
    cases mem_update_union.mp h₁ <;> cases mem_update_union.mp h₂
    case inl.inl h₁ h₂ => exact b.apart h₁ h₂
    case inl.inr h₁ h₂ => exact absurd (h h₂.right) (b.kept h₁)
    case inr.inl h₁ h₂ => exact absurd (h h₁.right) (b.kept h₂)
    case inr.inr h₁ h₂ => exact h₁.left.trans h₂.left.symm
  kept {x l} hl hf := by
    have ⟨hf, hn⟩ := Finset.mem_sdiff.mp hf
    cases mem_update_union.mp hl
    case inl hl => exact b.kept hl hf
    case inr hx => exact hn hx.right
  total x := by
    rw [b.total x]
    constructor
    · rintro (hf | ⟨l, hl⟩)
      · by_cases hn : x ∈ new
        case pos => exact .inr ⟨k, mem_update_union.mpr (.inr ⟨rfl, hn⟩)⟩
        case neg => exact .inl (Finset.mem_sdiff.mpr ⟨hf, hn⟩)
      · exact .inr ⟨l, mem_update_union.mpr (.inl hl)⟩
    · rintro (hf | ⟨l, hl⟩)
      · exact .inl (Finset.mem_sdiff.mp hf).left
      · cases mem_update_union.mp hl
        case inl hl => exact .inr ⟨l, hl⟩
        case inr hn => exact .inl (h hn.right)

-- Addresses that a client holds become free.
theorem giveBack (b : Balanced all free held) (h : old ⊆ held k) :
    Balanced all (free ∪ old) (Function.update held k (held k \ old)) where
  apart h₁ h₂ := b.apart (mem_update_sdiff.mp h₁).left (mem_update_sdiff.mp h₂).left
  kept {x l} hl hf := by
    have ⟨hl, hn⟩ := mem_update_sdiff.mp hl
    cases Finset.mem_union.mp hf
    case inl hf => exact b.kept hl hf
    case inr ho => exact hn ⟨b.apart hl (h ho), ho⟩
  total x := by
    rw [b.total x]
    constructor
    · rintro (hf | ⟨l, hl⟩)
      · exact .inl (Finset.mem_union_left _ hf)
      · by_cases ho : x ∈ old
        case pos => exact .inl (Finset.mem_union_right _ ho)
        case neg => exact .inr ⟨l, mem_update_sdiff.mpr ⟨hl, fun h => ho h.right⟩⟩
    · rintro (hf | ⟨l, hl⟩)
      · cases Finset.mem_union.mp hf
        case inl hf => exact .inl hf
        case inr ho => exact .inr ⟨k, h ho⟩
      · exact .inr ⟨l, (mem_update_sdiff.mp hl).left⟩

theorem exchange (b : Balanced all free held) (hn : new ⊆ free) (ho : old ⊆ held k) :
    Balanced all (free \ new ∪ old) (Function.update held k ((held k ∪ new) \ old)) := by
  have ho : old ⊆ Function.update held k (held k ∪ new) k := by
    simpa using ho.trans Finset.subset_union_left
  simpa using (b.handOut k hn).giveBack ho

end Balanced

end

/-! ### A call of a client, and any run of them -/

section

variable {held : Finset Address} {c : Call} {outcome : Except Fault Answer}

theorem Allowed.supplied_subset (h : Allowed held c) :
    Event.supplied { call := c, outcome } ⊆ held := by
  cases outcome
  case error => cases h <;> exact Finset.empty_subset _
  case ok =>
    cases h
    case take | takeBlock => exact Finset.empty_subset _
    case release hr hx    => simpa [Event.supplied, spanned_self hr] using hx
    case add hs hi        => simpa [Event.supplied, spanned_eq hs] using hi

theorem Allowed.withdrawn_eq (h : Allowed held c) :
    Event.withdrawn { call := c, outcome } = ∅ := by
  cases h <;> rfl

end

variable {ι : Type*} {t : Allocator} {s s' : Tenancy ι} {all : Finset Address}

namespace Tenancy

-- The invariant of tenancies: what was free at the start is free or held by just one client.
structure Sound (all : Finset Address) (s : Tenancy ι) : Prop where
  canonical : s.allocator.Canonical
  balanced  : Balanced all s.allocator.addressSet.free s.held

theorem Sound.start (h : t.Canonical) : Sound t.addressSet.free (Tenancy.start ι t) :=
  ⟨h, .start _⟩

-- When all is given back, the free list is the one of the start.
theorem Sound.free_eq (h : s.Sound t.addressSet.free) (ht : t.Canonical) (he : ∀ k, s.held k = ∅) :
    s.allocator.free = t.free := by
  have ha : s.allocator.addressSet.free = t.addressSet.free :=
    Finset.ext fun x => by simpa [he] using (h.balanced.total x).symm
  exact h.canonical.free_eq ht ha

variable [DecidableEq ι]

theorem Sound.step (h : s.Sound all) (st : Step s s') : s'.Sound all := by
  cases st
  case call k c ha =>
    have hs := step_after h.canonical c
    refine ⟨h.canonical.after c, ?_⟩
    have hf := free_eq_of_step hs
    rw [ha.withdrawn_eq, Finset.union_empty] at hf
    exact hf ▸ h.balanced.exchange (handedOut_subset_of_step hs) ha.supplied_subset

theorem Sound.run (h : s.Sound all) (st : Relation.ReflTransGen Step s s') : s'.Sound all := by
  induction st
  case refl       => exact h
  case tail st hi => exact hi.step st

end Tenancy

variable [DecidableEq ι]

-- In whatever order clients call, every address that was free at the start has one place, with the
-- allocator or with a client; and what is given back in pieces is the same list again.
theorem conserved_among_clients (t : Allocator) (ht : t.Reachable) (s : Tenancy ι)
    (h : Relation.ReflTransGen Tenancy.Step (.start ι t) s) :
    (Pairwise fun k l => Disjoint (s.held k) (s.held l))
    ∧ (∀ k, Disjoint (s.held k) s.allocator.addressSet.free)
    ∧ (∀ x, x ∈ t.addressSet.free ↔ x ∈ s.allocator.addressSet.free ∨ ∃ k, x ∈ s.held k)
    ∧ ((∀ k, s.held k = ∅) → s.allocator.outcome .freeList = .ok (.stretches t.free)) := by
  have hs := (Tenancy.Sound.start (ι := ι) ht.canonical).run h
  refine ⟨fun k l hkl => ?_, fun k => ?_, hs.balanced.total, fun he => ?_⟩
  · exact Finset.disjoint_left.mpr fun x hk hl => hkl (hs.balanced.apart hk hl)
  · exact Finset.disjoint_left.mpr fun x hk => hs.balanced.kept hk
  · exact hs.free_eq ht.canonical he ▸ rfl

-- Two clients take an address each, and one of them gives its own back.
theorem conserved_among_clients_of_two :
    let t := run {} [.add (.octets ⟨[1]⟩) (.octets ⟨[3]⟩)]
    let s := (((Tenancy.start Bool t).after true .take).after false .take).after true
      (.release (.octets ⟨[1]⟩))
    t.Reachable
    ∧ Relation.ReflTransGen Tenancy.Step (.start Bool t) s
    ∧ s.held false = {⟨[2]⟩} ∧ s.allocator.free = [⟨⟨[1]⟩, ⟨[1]⟩⟩, ⟨⟨[3]⟩, ⟨[3]⟩⟩]
    ∧ (Pairwise fun k l => Disjoint (s.held k) (s.held l))
    ∧ (∀ k, Disjoint (s.held k) s.allocator.addressSet.free)
    ∧ (∀ x, x ∈ t.addressSet.free ↔ x ∈ s.allocator.addressSet.free ∨ ∃ k, x ∈ s.held k)
    ∧ ((∀ k, s.held k = ∅) → s.allocator.outcome .freeList = .ok (.stretches t.free)) := by
  intro t s
  have ht : t.Reachable := ⟨none, _, rfl⟩
  have h₁ := Relation.ReflTransGen.single (Tenancy.Step.call (s := .start Bool t) true .take)
  have h₂ := h₁.tail (.call false .take)
  have h₃ := h₂.tail (.call true (.release (a := .octets ⟨[1]⟩) rfl (by decide)))
  exact ⟨ht, h₃, rfl, rfl, conserved_among_clients t ht s h₃⟩

end AddressSpace.Allocator
