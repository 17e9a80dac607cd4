import AddressSpace.Proofs.Allocator.Blocks
import AddressSpace.Proofs.Allocator.Refusals

/-!
Free lists that are made of blocks of 256 addresses, but for what is left over at the end of the last
stretch. Every block that is handed out is one of these, and what it leaves is made of blocks again; so as
many blocks are handed out as there are, one after the other from the lowest upward.
-/

namespace AddressSpace

-- The 256 addresses that share all octets but the last one.
def Interval.IsBlock (i : Interval) : Prop :=
  ∃ xs, i.first.octets = xs ++ [0] ∧ i.last.octets = xs ++ [255]

namespace FreeList

-- Every stretch begins with a block of 256, and every one but the last ends with one.
structure Aligned (l : FreeList) : Prop where
  opens  : ∀ i ∈ l, i.first.octets.getLast? = some 0
  closes : ∀ i ∈ l.dropLast, i.last.octets.getLast? = some 255

variable {octetCount : Nat} {l rest whole : FreeList} {i : Interval} {stop : Address}

theorem aligned_cons_iff : Aligned (i :: rest) ↔ i.first.octets.getLast? = some 0
    ∧ (rest ≠ [] → i.last.octets.getLast? = some 255) ∧ rest.Aligned := by
  constructor
  · intro ⟨ho, hc⟩
    have ⟨hi, hr⟩ := List.forall_mem_cons.mp ho
    refine ⟨hi, fun hn => hc i ?_, hr, fun j hj => hc j ?_⟩
    · rw [List.dropLast_cons_of_ne_nil hn]
      exact .head _
    · have hn : rest ≠ [] := fun hn => by simp [hn] at hj
      rw [List.dropLast_cons_of_ne_nil hn]
      exact .tail _ hj
  · intro ⟨hi, hl, hr⟩
    refine ⟨List.forall_mem_cons.mpr ⟨hi, hr.opens⟩, fun j hj => ?_⟩
    cases rest
    case nil => simp at hj
    case cons k rest =>
      rw [List.dropLast_cons_of_ne_nil (List.cons_ne_nil k rest)] at hj
      cases hj
      case head    => exact hl (List.cons_ne_nil k rest)
      case tail hj => exact hr.closes j hj

-- Where enough addresses are free, the first stretch has a whole block of them.
theorem Aligned.le_size (c : Canonical octetCount (i :: rest)) (ha : Aligned (i :: rest))
    (h : 256 ≤ size (i :: rest)) : 256 ≤ i.size := by
  have ⟨hi, _, _⟩ := Canonical.cons_iff.mp c
  have ⟨hf, hl, _⟩ := aligned_cons_iff.mp ha
  by_cases hr : rest = []
  case pos => simpa [hr, size] using h
  case neg =>
    have hf := Address.value_mod_of_getLast? hf
    have hl := Address.value_mod_of_getLast? (hl hr)
    have := hi.le
    simp only [UInt8.reduceToNat] at hf hl
    rw [hi.size_eq]
    omega

-- The block that is found is the first one of the first stretch.
theorem blockAt_of_aligned (c : Canonical octetCount (i :: rest)) (ha : Aligned (i :: rest))
    (h : 256 ≤ size (i :: rest)) : ∃ stop, BlockAt octetCount (i :: rest) (256 : Nat) [] i rest stop
      ∧ lowestBlock blockSize (i :: rest) = .ok [{ first := i.first, last := stop }]
      ∧ stop.value = i.first.value + 255 := by
  have ⟨hi, _, _⟩ := Canonical.cons_iff.mp c
  have hs := ha.le_size c h
  have hf := Address.value_mod_of_getLast? (aligned_cons_iff.mp ha).left
  have h₀ : (0 : Int) < blockSize := by decide
  obtain ⟨stop, hcut, cut⟩ := cutPoint_eq_ok hi h₀ hs
  refine ⟨stop, ⟨rfl, c, by decide, by simpa [size, blockSize] using cut⟩, ?_, ?_⟩
  · simp [lowestBlock, show ¬ i.size < blockSize from Int.not_lt.mpr hs, hcut, bind, Except.bind, pure,
      Except.pure]
  -- The address that completes the block ends a block of 256, and so it is the place of the cut.
  · have hle := cut.least (i.first.value + 255)
    have hen := cut.enough
    simp only [UInt8.reduceToNat, blockSize] at hf hle hen
    omega

end FreeList

namespace Allocator

variable {t : Allocator} {octetCount : Nat} {i : Interval} {rest : FreeList} {stop : Address} {n : Nat}

open FreeList (Aligned BlockAt behind upTo)

-- What lies behind a block is made of blocks again.
theorem aligned_behind (b : BlockAt octetCount (i :: rest) 256 [] i rest stop) (ha : Aligned (i :: rest)) :
    Aligned (behind i stop ++ rest) := by
  have ⟨_, hl, hr⟩ := FreeList.aligned_cons_iff.mp ha
  cases behind_cut b
  case inl h =>
    rw [h.right]
    exact hr
  case inr h =>
    obtain ⟨_, next, _, hn, he⟩ := h
    rw [he]
    exact FreeList.aligned_cons_iff.mpr ⟨hn, hl, hr⟩

theorem isBlock_of_aligned (b : BlockAt octetCount (i :: rest) 256 [] i rest stop) (ha : Aligned (i :: rest))
    (hv : stop.value = i.first.value + 255) : Interval.IsBlock { first := i.first, last := stop } := by
  have hf := (FreeList.aligned_cons_iff.mp ha).left
  have hm := Address.value_mod_of_getLast? hf
  have hp : 0 < i.first.length := List.length_pos_iff.mpr fun hn => by simp [hn] at hf
  have he : stop = i.first.blockEnd := by
    refine Address.eq_of_value_eq ?_ ?_
    · rw [Address.length_blockEnd hp, b.cut.length, b.fits.first]
    · simp only [UInt8.reduceToNat] at hm
      rw [Address.value_blockEnd hp]
      omega
  exact ⟨i.first.octets.dropLast, (List.dropLast_append_getLast? 0 hf).symm, congrArg Address.octets he⟩

theorem card_behind (b : BlockAt octetCount (i :: rest) 256 [] i rest stop)
    (hv : stop.value = i.first.value + 255) :
    (FreeList.addresses (behind i stop ++ rest)).card + 256 = (FreeList.addresses (i :: rest)).card := by
  have hl := b.canonical.length_ascending.trans b.canonical.size_eq_card
  have hr := b.canonical_left.length_ascending.trans b.canonical_left.size_eq_card
  rw [b.ascending_eq, List.length_append, BlockAt.length_upTo, FreeList.ascending, List.flatMap_nil,
    List.length_nil] at hl
  omega

-- A block is requested, and the answer is one stretch of 256 addresses, the lowest that are free.
structure GrantsBlock (t : Allocator) (i : Interval) : Prop where
  outcome : t.outcome .takeBlock = .ok (.stretches [i])
  isBlock : i.IsBlock
  card    : i.addresses.card = 256
  mem     : i.first ∈ t.addressSet.free
  le      : ∀ a ∈ t.addressSet.free, i.first ≤ a

-- One block of an aligned list is handed out, and what is left is aligned again.
theorem block_of_aligned (hc : t.Canonical) (ha : t.free.Aligned) (h : 256 ≤ t.addressSet.free.card) :
    (∃ i, GrantsBlock t i) ∧ (t.after .takeBlock).free.Aligned
    ∧ (t.after .takeBlock).addressSet.free.card + 256 = t.addressSet.free.card := by
  have ⟨k, ck, _⟩ := canonical_iff.mp hc
  have hs : FreeList.blockSize ≤ t.free.size := by
    rw [hc.size_free, FreeList.blockSize]
    omega
  simp only [addressSet]
  cases hf : t.free
  case nil => simp [hf, FreeList.size, FreeList.blockSize] at hs
  case cons i rest =>
    rw [hf] at ck ha
    obtain ⟨stop, b, hb, hv⟩ := FreeList.blockAt_of_aligned ck ha (hf ▸ hs)
    have hp := perform_takeBlock hs (hf ▸ hb)
    have hleft : (t.after .takeBlock).free = behind i stop ++ rest := by
      simp only [after, hp, without, hf]
      exact b.foldl_remove_upTo
    have hi : Interval.Fits k { first := i.first, last := stop } := b.canonical_upTo.fits (.head _)
    have hg : GrantsBlock t { first := i.first, last := stop } := {
      outcome := by simp [outcome, hp]
      isBlock := isBlock_of_aligned b ha hv
      card    := by
        have hcard := hi.card_addresses
        rw [hi.size_eq] at hcard
        simp only [hv] at hcard
        omega
      mem     := by
        rw [addressSet, hf]
        exact ck.first_lowest.left
      le      := by
        rw [addressSet, hf]
        exact ck.first_lowest.right }
    rw [hleft]
    exact ⟨⟨_, hg⟩, aligned_behind b ha, card_behind b hv⟩

-- Block after block, an aligned list stays aligned.
theorem run_blocks_of_aligned (hc : t.Canonical) (ha : t.free.Aligned)
    (h : 256 * n ≤ t.addressSet.free.card) : (t.run (List.replicate n .takeBlock)).free.Aligned
    ∧ (t.run (List.replicate n .takeBlock)).addressSet.free.card + 256 * n = t.addressSet.free.card := by
  induction n generalizing t
  case zero => exact ⟨ha, rfl⟩
  case succ n hi =>
    have ⟨_, ha', hl⟩ := block_of_aligned hc ha (by omega)
    have ⟨hr, hn⟩ := hi (hc.after .takeBlock) ha' (by omega)
    rw [List.replicate_succ]
    exact ⟨hr, by rw [Nat.mul_succ, ← Nat.add_assoc]; exact hl ▸ congrArg (· + 256) hn⟩

-- As many blocks are handed out of an aligned list as it has, each of them one stretch, and the lowest
-- that there is; all lists on the way are aligned. The next block is refused.
theorem aligned_blocks (t : Allocator) (ht : t.Reachable) (ha : t.free.Aligned) :
    let total := t.addressSet.free.card
    let left (n : Nat) := t.run (List.replicate n .takeBlock)
    (∀ n ≤ total / 256, (left n).free.Aligned ∧ (left n).addressSet.free.card + 256 * n = total)
    ∧ (∀ n < total / 256, ∃ i, GrantsBlock (left n) i)
    ∧ (left (total / 256)).outcome .takeBlock = .error (.short (total % 256 : Nat)) := by
  intro total left
  have hc := ht.canonical
  have hl (n : Nat) (hn : n ≤ total / 256) :
      (left n).free.Aligned ∧ (left n).addressSet.free.card + 256 * n = total :=
    run_blocks_of_aligned hc ha (by omega)
  refine ⟨hl, fun n hn => ?_, ?_⟩
  · have ⟨ha, hk⟩ := hl n hn.le
    have h : 256 ≤ (left n).addressSet.free.card := by omega
    exact (block_of_aligned (hc.run _) ha h).left
  · have ⟨_, hk⟩ := hl (total / 256) le_rfl
    have he : (left (total / 256)).addressSet.free.card = total % 256 := by omega
    refine (takeBlock_eq_error_iff_card (hc.run _)).mpr ⟨?_, ?_⟩
    · exact he ▸ Nat.mod_lt total (by decide)
    · exact congrArg Fault.short (congrArg Int.ofNat he.symm)

-- Two blocks in one stretch, a block in another one, and seven addresses behind it.
theorem aligned_blocks_of_two :
    let t := run {} [.add (.octets ⟨[1, 0]⟩) (.octets ⟨[2, 255]⟩), .add (.octets ⟨[9, 0]⟩) (.octets ⟨[10, 6]⟩)]
    let left (n : Nat) := t.run (List.replicate n .takeBlock)
    t.Reachable ∧ t.free.Aligned ∧ t.addressSet.free.card = 775
    ∧ (∀ n ≤ 3, (left n).free.Aligned ∧ (left n).addressSet.free.card + 256 * n = 775)
    ∧ (∀ n < 3, ∃ i, GrantsBlock (left n) i)
    ∧ (left 3).free = [⟨⟨[10, 0]⟩, ⟨[10, 6]⟩⟩] ∧ (left 3).outcome .takeBlock = .error (.short 7) := by
  intro t left
  have ht : t.Reachable := ⟨none, _, rfl⟩
  have ha : t.free.Aligned := ⟨by decide, by decide⟩
  have hs : t.free.size = 775 := by decide +kernel
  have h : t.addressSet.free.card = 775 := by
    have hc := ht.canonical.size_free
    omega
  have ⟨hl, hg, he⟩ := aligned_blocks t ht ha
  rw [h] at hl hg he
  exact ⟨ht, ha, h, hl, hg, by decide +kernel, he⟩

end Allocator

end AddressSpace
