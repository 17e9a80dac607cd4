import AddressSpace.Proofs.Allocator.Removal
import AddressSpace.Proofs.Allocator.Requests

/-!
Requests of one kind, one after the other, until as many have been made as are wanted or one is refused.
What they are granted comes off the free addresses from the lowest upward, so nothing is granted twice and
what is granted and what is left make up what was free.
-/

namespace AddressSpace.Allocator

-- The answers of up to `count` requests, in front of the first refusal.
inductive Served (r : Request) : Allocator → Nat → List Answer → Prop
  | done {t} : Served r t 0 []
  | refused {t count f} : t.outcome r.call = .error f → Served r t (count + 1) []
  | granted {t count x xs} : t.outcome r.call = .ok x → Served r (t.after r.call) count xs →
    Served r t (count + 1) (x :: xs)

-- The addresses that the answers to requests grant.
def Request.given (r : Request) (xs : List Answer) : List Address :=
  xs.flatMap fun x => Event.granted ⟨r.call, .ok x⟩

variable {r : Request} {t : Allocator} {count octetCount : Nat} {xs : List Answer} {x : Answer}

@[simp]
theorem Request.given_nil : r.given [] = [] :=
  rfl

theorem Request.given_cons : r.given (x :: xs) = Event.granted ⟨r.call, .ok x⟩ ++ r.given xs :=
  rfl

theorem Request.given_singles (as : List Address) : single.given (as.map .address) = as := by
  induction as
  case nil          => rfl
  case cons a as hi => exact congrArg (a :: ·) hi

theorem Request.given_blocks (blocks : List FreeList) :
    block.given (blocks.map .stretches) = blocks.flatMap FreeList.ascending :=
  List.flatMap_map ..

namespace Served

theorem length_le (h : Served r t count xs) : xs.length ≤ count := by
  induction h
  case done            => exact Nat.le_refl 0
  case refused         => exact Nat.zero_le _
  case granted _ _ hi  => exact Nat.succ_le_succ hi

-- All the requests that are answered are answered in a row.
theorem history (h : Served r t count xs) :
    t.history (List.replicate xs.length r.call) = xs.map fun x => ⟨r.call, .ok x⟩ := by
  induction h
  case done                => rfl
  case refused             => rfl
  case granted x xs hx _ hi => rw [List.length_cons, List.replicate_succ, Allocator.history, hx, hi, List.map_cons]

-- There are fewer of them than wanted only if the next one is refused.
theorem stopped (h : Served r t count xs) (hl : xs.length < count) :
    ∃ f, (t.run (List.replicate xs.length r.call)).outcome r.call = .error f := by
  induction h
  case done               => exact absurd hl (Nat.lt_irrefl 0)
  case refused f hf       => exact ⟨f, hf⟩
  case granted x xs _ _ hi => exact hi (Nat.lt_of_succ_lt_succ hl)

theorem ascending (h : Served r t count xs) (c : t.Canonical) : t.free.ascending
    = r.given xs ++ (t.run (List.replicate xs.length r.call)).free.ascending := by
  have ha := ascending_run c (List.replicate xs.length r)
  rwa [List.map_replicate, h.history, List.flatMap_map] at ha

theorem nodup (h : Served r t count xs) (c : t.Canonical) : (r.given xs).Nodup := by
  have ⟨_, ck, _⟩ := canonical_iff.mp c
  have hn := Address.nodup_of_pairwise_value_lt ck.pairwise_ascending
  rw [h.ascending c] at hn
  exact (List.nodup_append.mp hn).left

theorem mem_free (h : Served r t count xs) (c : t.Canonical) : ∀ a ∈ r.given xs, a ∈ t.free.addresses := by
  have ⟨_, ck, _⟩ := canonical_iff.mp c
  intro a ha
  rw [← ck.mem_ascending, h.ascending c]
  exact List.mem_append_left _ ha

theorem free_left (h : Served r t count xs) (c : t.Canonical) :
    (t.run (List.replicate xs.length r.call)).free.addresses = t.free.addresses \ (r.given xs).toFinset := by
  have ⟨_, ck, _⟩ := canonical_iff.mp c
  have ⟨_, ck', _⟩ := canonical_iff.mp (c.run (List.replicate xs.length r.call))
  have hn := Address.nodup_of_pairwise_value_lt ck.pairwise_ascending
  rw [h.ascending c] at hn
  have hd := (List.nodup_append'.mp hn).right.right
  ext a
  rw [Finset.mem_sdiff, List.mem_toFinset, ← ck.mem_ascending, ← ck'.mem_ascending, h.ascending c, List.mem_append]
  constructor
  · exact fun ha => ⟨.inr ha, fun hg => hd hg ha⟩
  · exact fun ⟨ha, hg⟩ => ha.resolve_left hg

-- The books are balanced.
theorem length_given_add (h : Served r t count xs) (c : t.Canonical) : (r.given xs).length
    + (t.run (List.replicate xs.length r.call)).free.addresses.card = t.free.addresses.card := by
  have ⟨_, ck, _⟩ := canonical_iff.mp c
  have ⟨_, ck', _⟩ := canonical_iff.mp (c.run (List.replicate xs.length r.call))
  have hl := congrArg List.length (h.ascending c)
  have hk := ck.length_ascending.trans ck.size_eq_card
  have hk' := ck'.length_ascending.trans ck'.size_eq_card
  rw [List.length_append] at hl
  omega

end Served

-- Single requests are served with the lowest free addresses, and with all of them if too few are free.
theorem served_singles (c : t.Canonical) (count : Nat) :
    Served .single t count ((t.free.ascending.take count).map .address) := by
  induction count generalizing t
  case zero => exact .done
  case succ count hi =>
    cases ha : t.free.ascending
    case nil => exact .refused (f := .empty) ((take_eq_error_iff c).mpr ⟨rfl, ha⟩)
    case cons a rest =>
      have ha : t.free.ascending = [a] ++ rest := ha
      obtain ⟨hh, hr, -⟩ := history_replicate_take c ha
      have ho : t.outcome .take = .ok (.address a) := by simpa [history] using hh
      have hr : (t.after .take).free.ascending = rest := hr
      exact .granted ho (hr ▸ hi (c.after .take))

theorem exists_canonical_of_takeBlock {is : List Interval} (c : t.Canonical)
    (h : t.outcome .takeBlock = .ok (.stretches is)) : ∃ octetCount, FreeList.Canonical octetCount is := by
  have ⟨_, ck, _⟩ := canonical_iff.mp c
  have e := effect ck .takeBlock
  rw [h] at e
  generalize t.after .takeBlock = t' at e
  cases e
  case takeBlock ct _ _ => exact ⟨_, ct⟩

-- Blocks are granted in stretches of the length of the free addresses.
theorem exists_served_blocks (c : t.Canonical) (hn : t.octetCount = some (.int octetCount)) (count : Nat) :
    ∃ blocks : List FreeList, Served .block t count (blocks.map .stretches)
      ∧ ∀ is ∈ blocks, is ≠ [] ∧ is.Canonical octetCount := by
  induction count generalizing t
  case zero => exact ⟨[], .done, nofun⟩
  case succ count hi =>
    have ck := c.free_canonical hn
    by_cases hs : FreeList.blockSize ≤ t.free.size
    case neg =>
      rw [← ck.length_ascending] at hs
      exact ⟨[], .refused ((takeBlock_eq_error_iff c).mpr ⟨rfl, Int.not_le.mp hs⟩), nofun⟩
    case pos =>
      obtain ⟨taken, ho, -, ct, hle, -⟩ := takeBlock_of_size ck hs
      obtain ⟨blocks, hb, hc⟩ := hi (c.after .takeBlock) (octetCount_after ck hn .takeBlock)
      have hne : taken ≠ [] := fun he => by simp [he, FreeList.size, FreeList.blockSize] at hle
      exact ⟨taken :: blocks, .granted ho hb, List.forall_mem_cons.mpr ⟨⟨hne, ct⟩, hc⟩⟩

end AddressSpace.Allocator
