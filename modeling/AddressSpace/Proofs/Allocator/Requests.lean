import AddressSpace.Proofs.Allocator.AddressSet
import AddressSpace.Proofs.FreeList.Ascending

/-!
Requests for free addresses, single ones and blocks in any order. Together they hand out the free
addresses from the lowest upward, each request beginning where the one before it ended; so a block is
what as many single requests would have given.
-/

namespace AddressSpace.Allocator

inductive Request where
  | single
  | block

def Request.call : Request → Call
  | .single => .take
  | .block  => .takeBlock

-- The addresses that a call handed out, in the order of its answer.
def Event.granted : Event → List Address
  | ⟨.take, .ok (.address x)⟩         => [x]
  | ⟨.takeBlock, .ok (.stretches is)⟩ => FreeList.ascending is
  | _                                 => []

variable {t : Allocator} {is : FreeList} {x : Address} {f : Fault} {octetCount : Nat}

/-! ### One request -/

-- Taking the lowest free addresses away leaves the rest of their order.
theorem ascending_without (c : t.free.Canonical octetCount) (ci : is.Canonical octetCount)
    (hs : is.addresses ⊆ t.free.addresses)
    (hlt : ∀ a ∈ is.addresses, ∀ b ∈ t.free.addresses \ is.addresses, a.value < b.value) :
    t.free.ascending = is.ascending ++ (t.without is).free.ascending := by
  have hi : ∀ i ∈ is, i.Fits octetCount := fun i hi => ci.fits hi
  have ha : (t.without is).free.addresses = t.free.addresses \ is.addresses :=
    FreeList.addresses_foldl_remove c hi
  refine c.ascending_eq_append ci (FreeList.canonical_foldl_remove c hi) ?_ (ha ▸ hlt)
  rw [ha, Finset.union_sdiff_of_subset hs]

theorem ascending_eq_of_effect {r : Request} {answer : Except Fault Answer} {t' : Allocator}
    (c : t.free.Canonical octetCount) (e : Effect t r.call answer t') :
    t.free.ascending = Event.granted ⟨r.call, answer⟩ ++ t'.free.ascending := by
  cases r <;> cases e
  case single.refused | block.refused => rfl
  case single.take x hx hle =>
    have hl := c.length_of_mem hx
    have ci : FreeList.Canonical octetCount [{ first := x, last := x }] :=
      FreeList.Canonical.cons_iff.mpr ⟨FreeList.fits_single hl, nofun, .nil⟩
    have h := ascending_without c ci (by simpa [Interval.addresses_single] using hx) ?_
    · rw [h, FreeList.ascending_singleton, Interval.ascending_single]
      rfl
    · intro a ha b hb
      simp only [FreeList.addresses_singleton, Interval.addresses_single, Finset.mem_singleton,
        Finset.mem_sdiff] at ha hb
      have hv := (Address.le_iff_value_le (hl.trans (c.length_of_mem hb.left).symm)).mp (hle b hb.left)
      subst ha
      exact lt_of_le_of_ne hv fun hv =>
        hb.right (Address.eq_of_value_eq ((c.length_of_mem hb.left).trans hl.symm) hv.symm)
  case block.takeBlock taken stop ck ct _ hm =>
    refine ascending_without ck ct (fun a ha => ((hm a).mp ha).left) fun a ha b hb => ?_
    -- What is left lies behind the address at which the block is cut.
    have ⟨_, hle⟩ := (hm a).mp ha
    have ⟨hf, hn⟩ := Finset.mem_sdiff.mp hb
    have hgt : ¬ b.value ≤ stop.value := fun hle => hn ((hm b).mpr ⟨hf, hle⟩)
    omega

theorem ascending_after (h : t.Canonical) (r : Request) : t.free.ascending
    = Event.granted ⟨r.call, t.outcome r.call⟩ ++ (t.after r.call).free.ascending :=
  have ⟨_, ck, _⟩ := canonical_iff.mp h
  ascending_eq_of_effect ck (effect ck r.call)

theorem octetCount_after_request (h : t.Canonical) (r : Request) :
    (t.after r.call).octetCount = t.octetCount := by
  have ⟨_, ck, _⟩ := canonical_iff.mp h
  have e := effect ck r.call
  generalize t.outcome r.call = answer, t.after r.call = t' at e ⊢
  cases r <;> cases e
  all_goals rfl

-- A single address is refused just when none is left.
theorem take_eq_error_iff (h : t.Canonical) :
    t.outcome .take = .error f ↔ f = .empty ∧ t.free.ascending = [] := by
  have ⟨_, ck, _⟩ := canonical_iff.mp h
  have hl := ck.length_ascending
  have e := effect ck .take
  generalize t.outcome .take = answer, t.after .take = t' at e ⊢
  cases e
  case refused f' hr =>
    cases hr
    case take h₀ =>
      have he : t.free.ascending = [] := List.eq_nil_of_length_eq_zero (by omega)
      simp [he, eq_comm]
  case take hx _ =>
    have hne := List.ne_nil_of_mem (ck.mem_ascending.mpr hx)
    simp [hne]

-- A block is refused just when fewer addresses are left than it has at least.
theorem takeBlock_eq_error_iff (h : t.Canonical) :
    t.outcome .takeBlock = .error f ↔ f = .short t.free.ascending.length
      ∧ (t.free.ascending.length : Int) < FreeList.blockSize := by
  have ⟨_, ck, _⟩ := canonical_iff.mp h
  rw [ck.length_ascending]
  have e := effect ck .takeBlock
  generalize t.outcome .takeBlock = answer, t.after .takeBlock = t' at e ⊢
  cases e
  case refused f' hr =>
    cases hr
    case takeBlock h₀ => simp [h₀, eq_comm]
  case takeBlock taken stop ck ct hs hm =>
    have hle : taken.size ≤ t.free.size := by
      rw [ck.size_eq_card, ct.size_eq_card, Int.ofNat_le]
      exact Finset.card_le_card fun a ha => ((hm a).mp ha).left
    simp only [reduceCtorEq, false_iff, not_and]
    omega

/-! ### A whole run -/

-- What the requests of a run were granted is the beginning of what was free, and the rest is left.
theorem ascending_run (h : t.Canonical) (requests : List Request) : t.free.ascending
    = (t.history (requests.map Request.call)).flatMap Event.granted
      ++ (t.run (requests.map Request.call)).free.ascending := by
  induction requests generalizing t
  case nil => rfl
  case cons r requests hi =>
    have hr := hi (h.after r.call)
    rw [ascending_after h r, hr, ← List.append_assoc]
    rfl

-- Single requests are granted one free address after the other.
theorem history_replicate_take {xs rest : List Address} (h : t.Canonical)
    (hx : t.free.ascending = xs ++ rest) :
    t.history (List.replicate xs.length .take)
      = xs.map (fun x => { call := .take, outcome := .ok (.address x) })
    ∧ (t.run (List.replicate xs.length .take)).free.ascending = rest
    ∧ (t.run (List.replicate xs.length .take)).octetCount = t.octetCount := by
  induction xs generalizing t
  case nil => exact ⟨rfl, hx, rfl⟩
  case cons x xs hi =>
    have ha := ascending_after h .single
    have hc := octetCount_after_request h .single
    have ht : t.outcome .take = .ok (.address x)
        ∧ (t.after .take).free.ascending = xs ++ rest := by
      have ⟨_, ck, _⟩ := canonical_iff.mp h
      have e := effect ck .take
      simp only [Request.call] at ha
      generalize t.outcome .take = answer, t.after .take = t' at e ha ⊢
      cases e
      case refused hr =>
        cases hr
        case take h₀ =>
          have := ck.length_ascending
          simp only [hx, List.cons_append, List.length_cons] at this
          omega
      case take y _ _ =>
        rw [hx] at ha
        simp only [Event.granted, List.cons_append, List.nil_append, List.cons.injEq] at ha
        exact ⟨ha.left ▸ rfl, ha.right.symm⟩
    have ⟨hh, hr, ho⟩ := hi (h.after .take) ht.right
    refine ⟨?_, hr, ho.trans hc⟩
    rw [List.length_cons, List.replicate_succ, history, hh, ht.left, List.map_cons]

theorem Canonical.free_eq_of_ascending {t' : Allocator} (h : t.Canonical) (h' : t'.Canonical)
    (he : t.free.ascending = t'.free.ascending) : t.free = t'.free := by
  have ⟨_, ck, _⟩ := canonical_iff.mp h
  have ⟨_, ck', _⟩ := canonical_iff.mp h'
  refine h.free_eq h' <| Finset.ext fun x => ?_
  rw [← ck.mem_ascending, he, ck'.mem_ascending]

-- A block is what as many single requests are granted, and leaves what they leave.
theorem history_eq_of_takeBlock (h : t.Canonical)
    (hb : t.outcome .takeBlock = .ok (.stretches is)) :
    t.history (List.replicate is.ascending.length .take)
      = is.ascending.map (fun x => { call := .take, outcome := .ok (.address x) })
    ∧ t.run (List.replicate is.ascending.length .take) = t.after .takeBlock := by
  have ha := ascending_after h .block
  rw [Request.call, hb] at ha
  have ⟨hh, hr, ho⟩ := history_replicate_take h ha
  refine ⟨hh, Allocator.ext ?_ ?_⟩
  · exact ho.trans (octetCount_after_request h .block).symm
  · exact (h.run _).free_eq_of_ascending (h.after .takeBlock) hr

-- In whatever order single addresses and blocks are requested, the free addresses are handed out from
-- the lowest upward. A request is refused only when too few of them are left, and then changes
-- nothing.
theorem granted_in_order (t : Allocator) (ht : t.Reachable) :
    ∃ order : List Address, order.Pairwise (· < ·) ∧ (∀ x, x ∈ order ↔ x ∈ t.addressSet.free)
    ∧ ∀ requests : List Request,
      let s := t.run (requests.map Request.call)
      let given := (t.history (requests.map Request.call)).flatMap Event.granted
      given <+: order
      ∧ (∀ f, s.outcome .take = .error f ↔ f = .empty ∧ given = order)
      ∧ (∀ f, s.outcome .takeBlock = .error f ↔
        f = .short (order.length - given.length) ∧ order.length - given.length < 256)
      ∧ (∀ (r : Request) (f : Fault), s.outcome r.call = .error f →
        Event.granted ⟨r.call, s.outcome r.call⟩ = [] ∧ s.after r.call = s)
      ∧ ∀ is, s.outcome .takeBlock = .ok (.stretches is) →
        let xs := FreeList.ascending is
        s.history (List.replicate xs.length .take)
          = xs.map (fun x => { call := .take, outcome := .ok (.address x) })
        ∧ s.run (List.replicate xs.length .take) = s.after .takeBlock := by
  have h := ht.canonical
  have ⟨_, ck, _⟩ := canonical_iff.mp h
  refine ⟨t.free.ascending, ck.pairwise_lt_ascending, fun x => ck.mem_ascending, fun requests => ?_⟩
  intro s given
  have hs : s.Canonical := h.run _
  have hr : t.free.ascending = given ++ s.free.ascending := ascending_run h requests
  have hl : t.free.ascending.length = given.length + s.free.ascending.length :=
    hr ▸ List.length_append
  refine ⟨⟨_, hr.symm⟩, fun f => ?_, fun f => ?_, fun r f hf => ?_, fun is => history_eq_of_takeBlock hs⟩
  · rw [take_eq_error_iff hs, hr, List.self_eq_append_right]
  · have hi : (t.free.ascending.length : Int) - given.length = s.free.ascending.length := by omega
    rw [takeBlock_eq_error_iff hs, hi, FreeList.blockSize]
    refine and_congr_right fun _ => ?_
    omega
  · rw [hf]
    exact ⟨by cases r <;> rfl, after_eq_self hf⟩

-- A single address and a block out of two stretches: the block begins behind the single address, and
-- the second stretch is cut where a block of 256 ends.
theorem granted_in_order_of_single_and_block :
    let t := run {} [.add (.octets ⟨[0, 250]⟩) (.octets ⟨[0, 253]⟩),
      .add (.octets ⟨[3, 9]⟩) (.octets ⟨[5, 20]⟩)]
    let s := t.run [.take, .takeBlock]
    let given := (t.history [.take, .takeBlock]).flatMap Event.granted
    t.Reachable
    ∧ given.length = 507 ∧ s.free = [⟨⟨[5, 0]⟩, ⟨[5, 20]⟩⟩]
    ∧ ∃ order : List Address, order.Pairwise (· < ·) ∧ (∀ x, x ∈ order ↔ x ∈ t.addressSet.free)
      ∧ given <+: order
      ∧ (∀ f, s.outcome .take = .error f ↔ f = .empty ∧ given = order)
      ∧ (∀ f, s.outcome .takeBlock = .error f ↔
        f = .short (order.length - given.length) ∧ order.length - given.length < 256) := by
  intro t s given
  have ht : t.Reachable := ⟨none, _, rfl⟩
  have ⟨order, ho, hm, h⟩ := granted_in_order t ht
  have ⟨hp, ht', hb, _⟩ := h [.single, .block]
  exact ⟨ht, by decide +kernel, by decide +kernel, order, ho, hm, hp, ht', hb⟩

end AddressSpace.Allocator
