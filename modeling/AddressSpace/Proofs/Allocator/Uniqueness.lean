import AddressSpace.Proofs.Allocator.AddressSet
import AddressSpace.Proofs.FreeList.Minimal

/-!
Nothing of the past of an allocator shows but the addresses that are free and the length that is fixed.
Its free list is the shortest list of stretches that there is of those addresses.
-/

namespace AddressSpace.Allocator

-- Two allocators with the same free addresses have the same list of them, and if they are fixed to the
-- same length, no calls tell them apart. No other list of stretches of the free addresses is shorter.
theorem free_unique_and_minimal (t t' : Allocator) (ht : t.Reachable) (ht' : t'.Reachable) :
    (t.addressSet.free = t'.addressSet.free → t.free = t'.free
      ∧ (t.octetCount = t'.octetCount → ∀ calls : List Call,
        t.history calls = t'.history calls ∧ t.run calls = t'.run calls))
    ∧ ∀ is : List Interval, FreeList.addresses is = t.addressSet.free → t.free.length ≤ is.length := by
  have ⟨_, ck, _⟩ := canonical_iff.mp ht.canonical
  refine ⟨fun hf => ⟨ht.canonical.free_eq ht'.canonical hf, fun hl calls => ?_⟩, ck.length_le⟩
  have he : t = t' := Allocator.ext hl (ht.canonical.free_eq ht'.canonical hf)
  exact he ▸ ⟨rfl, rfl⟩

-- Addresses that came one by one, and addresses that came at once and of which one was taken and came
-- back.
theorem free_unique_and_minimal_of_two :
    let t := run {} [.release (.octets ⟨[3]⟩), .release (.octets ⟨[1]⟩), .release (.octets ⟨[2]⟩)]
    let t' := run {} [.add (.octets ⟨[1]⟩) (.octets ⟨[3]⟩), .take, .release (.octets ⟨[1]⟩)]
    t.Reachable ∧ t'.Reachable ∧ t.addressSet.free = t'.addressSet.free
    ∧ t.free = t'.free ∧ (∀ calls, t.history calls = t'.history calls ∧ t.run calls = t'.run calls)
    ∧ ∀ is : List Interval, FreeList.addresses is = t.addressSet.free → t.free.length ≤ is.length := by
  intro t t'
  have ht : t.Reachable := ⟨none, _, rfl⟩
  have ht' : t'.Reachable := ⟨none, _, rfl⟩
  have hf : t.addressSet.free = t'.addressSet.free := rfl
  have ⟨hu, hm⟩ := free_unique_and_minimal t t' ht ht'
  exact ⟨ht, ht', hf, (hu hf).left, (hu hf).right rfl, hm⟩

end AddressSpace.Allocator
