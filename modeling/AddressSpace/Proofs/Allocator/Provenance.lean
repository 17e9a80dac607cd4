import AddressSpace.Proofs.Allocator.AddressSet

/-!
Where the addresses come from that an allocator hands out. An address is free just when it was supplied
and nothing has happened to it since, so no address is handed out that was not supplied, and none twice.
-/

namespace AddressSpace.Allocator

-- The addresses from a first to a last one, if both sources stand for addresses of one length.
def spanned (first last : Address.Source) : Finset Address :=
  match stretch first last with
  | .ok i    => i.addresses
  | .error _ => ∅

theorem spanned_eq {first last : Address.Source} {i : Interval} (h : stretch first last = .ok i) :
    spanned first last = i.addresses := by
  simp [spanned, h]

theorem spanned_self {a : Address.Source} {x : Address} (h : a.resolve = .ok x) :
    spanned a a = {x} := by
  rw [spanned_eq (i := { first := x, last := x }) (by simp [stretch_self, h]),
    Interval.addresses_single]

namespace Event

-- The addresses that a call made free, if it was not refused.
def supplied : Event → Finset Address
  | ⟨.add first last, .ok _⟩ => spanned first last
  | ⟨.release a, .ok _⟩      => spanned a a
  | _                        => ∅

-- The addresses that a call handed out, if it was not refused.
def handedOut : Event → Finset Address
  | ⟨.take, .ok (.address x)⟩         => {x}
  | ⟨.takeBlock, .ok (.stretches is)⟩ => FreeList.addresses is
  | _                                 => ∅

-- The addresses that a call removed, if it was not refused.
def withdrawn : Event → Finset Address
  | ⟨.remove first last, .ok _⟩ => spanned first last
  | _                           => ∅

def touched (e : Event) : Finset Address :=
  e.supplied ∪ e.handedOut ∪ e.withdrawn

end Event

/-! ### One step -/

variable {x : Address} {e : Event} {es : List Event} {s s' : AddressSet}

-- What a call does to the free addresses can be read off the call and its answer.
theorem free_eq_of_step (h : AddressSet.Step s e s') :
    s'.free = s.free \ (e.handedOut ∪ e.withdrawn) ∪ e.supplied := by
  cases h
  case refused c f _ => cases c <;> simp [Event.handedOut, Event.withdrawn, Event.supplied]
  case add hs _ _ =>
    simp [Event.handedOut, Event.withdrawn, Event.supplied, spanned_eq hs, AddressSet.supplied]
  case removeReversed hs hr =>
    have he := Interval.addresses_eq_empty (length_eq_of_stretch hs) hr
    simp [Event.handedOut, Event.withdrawn, Event.supplied, spanned_eq hs, he]
  case remove hs _ _ _ =>
    simp [Event.handedOut, Event.withdrawn, Event.supplied, spanned_eq hs, AddressSet.without]
  case release hr _ =>
    simp [Event.handedOut, Event.withdrawn, Event.supplied, spanned_self hr, AddressSet.supplied]
  case take | takeBlock =>
    simp [Event.handedOut, Event.withdrawn, Event.supplied, AddressSet.without]
  case freeList | freeCount | contains =>
    simp [Event.handedOut, Event.withdrawn, Event.supplied]

-- Only what is free can be handed out.
theorem handedOut_subset_of_step (h : AddressSet.Step s e s') : e.handedOut ⊆ s.free := by
  cases h
  case refused c f _       => cases c <;> simp [Event.handedOut]
  case take hx _           => exact Finset.singleton_subset_iff.mpr hx
  case takeBlock hs _ _    => exact hs
  all_goals exact Finset.empty_subset _

-- No address lies in two stretches of an answer.
theorem pairwise_disjoint_of_step {is : List Interval} (h : AddressSet.Step s e s')
    (ha : e.outcome = .ok (.stretches is)) :
    is.Pairwise fun i j => Disjoint i.addresses j.addresses := by
  cases h
  case takeBlock c _ _ _ =>
    cases ha
    exact c.pairwise_disjoint
  case freeList c _ =>
    cases ha
    exact c.pairwise_disjoint
  all_goals simp at ha

/-! ### A whole run -/

-- The address was supplied, and no call has touched it since.
def Supplied (x : Address) (es : List Event) : Prop :=
  ∃ before e since, es = before ++ e :: since ∧ x ∈ e.supplied ∧ ∀ e' ∈ since, x ∉ e'.touched

theorem supplied_cons_iff : Supplied x (e :: es) ↔
    Supplied x es ∨ (x ∈ e.supplied ∧ ∀ e' ∈ es, x ∉ e'.touched) := by
  constructor
  · intro ⟨before, e', since, he, hs, ht⟩
    cases before
    case nil =>
      cases he
      exact .inr ⟨hs, ht⟩
    case cons b before =>
      cases he
      exact .inl ⟨before, e', since, rfl, hs, ht⟩
  · rintro (⟨before, e', since, rfl, hs, ht⟩ | ⟨hs, ht⟩)
    · exact ⟨e :: before, e', since, rfl, hs, ht⟩
    · exact ⟨[], e, es, rfl, hs, ht⟩

-- Free is what was supplied last in the run, or was free before and not touched by the run.
theorem mem_free_iff_of_run (h : AddressSet.Run s es s') :
    x ∈ s'.free ↔ Supplied x es ∨ (x ∈ s.free ∧ ∀ e ∈ es, x ∉ e.touched) := by
  induction h
  case refl => simp [Supplied]
  case step e es hs _ hi =>
    have hf := free_eq_of_step hs
    rw [hi, supplied_cons_iff, hf]
    simp only [List.forall_mem_cons, Event.touched, Finset.mem_union, Finset.mem_sdiff]
    -- An address that this step supplied is free after it, whatever it was before.
    by_cases hx : x ∈ e.supplied
    case pos => simp [hx]
    case neg => simp [hx, and_assoc]

theorem exists_step_of_run {later : List Event} (h : AddressSet.Run s (es ++ e :: later) s') :
    ∃ s₁ s₂, AddressSet.Run s es s₁ ∧ AddressSet.Step s₁ e s₂ := by
  induction es generalizing s
  case nil =>
    cases h
    case step h _ => exact ⟨s, _, .refl, h⟩
  case cons e' es hi =>
    cases h
    case step h ht =>
      have ⟨s₁, s₂, hr, hs⟩ := hi ht
      exact ⟨s₁, s₂, .step h hr, hs⟩

-- What is handed out was supplied before, and has been free ever since it was supplied last; and a block
-- holds no address twice.
theorem handedOut_once (octetCount : Option Number) (calls : List Call)
    (earlier later : List Event) (e : Event) (x : Address)
    (h : history { octetCount } calls = earlier ++ e :: later) (hx : x ∈ e.handedOut) :
    (∃ before supply since, earlier = before ++ supply :: since ∧ x ∈ supply.supplied
      ∧ ∀ e' ∈ since, x ∉ e'.supplied ∧ x ∉ e'.handedOut ∧ x ∉ e'.withdrawn)
    ∧ ∀ is, e.outcome = .ok (.stretches is) →
      is.Pairwise fun i j => Disjoint i.addresses j.addresses := by
  have hr := run_history (Canonical.empty octetCount) calls
  have ⟨s₁, s₂, hr, hs⟩ := exists_step_of_run (h ▸ hr)
  refine ⟨?_, fun is => pairwise_disjoint_of_step hs⟩
  -- The address was free when it was handed out, and nothing is free at the start.
  have hf := (mem_free_iff_of_run hr).mp (handedOut_subset_of_step hs hx)
  cases hf
  case inl hs =>
    have ⟨before, supply, since, he, hs, ht⟩ := hs
    refine ⟨before, supply, since, he, hs, fun e' he' => ?_⟩
    simpa [Event.touched, and_assoc] using ht e' he'
  case inr hf => exact absurd hf.left (Finset.notMem_empty x)

-- An address that comes back is handed out again, and the supply behind that is its release.
theorem handedOut_once_after_release :
    let x : Address := ⟨[1]⟩
    let added : Event := { call := .add (.octets x) (.octets ⟨[2]⟩), outcome := .ok .done }
    let taken : Event := { call := .take, outcome := .ok (.address x) }
    let released : Event := { call := .release (.octets x), outcome := .ok .done }
    history {} [added.call, .take, released.call, .take] = [added, taken, released] ++ taken :: []
    ∧ x ∈ taken.handedOut
    ∧ ∃ before supply since, [added, taken, released] = before ++ supply :: since
      ∧ x ∈ supply.supplied
      ∧ ∀ e' ∈ since, x ∉ e'.supplied ∧ x ∉ e'.handedOut ∧ x ∉ e'.withdrawn := by
  intro x added taken released
  have h : history {} [added.call, .take, released.call, .take]
    = [added, taken, released] ++ taken :: [] := rfl
  have hx : x ∈ taken.handedOut := Finset.mem_singleton_self x
  exact ⟨h, hx, (handedOut_once none _ _ [] taken x h hx).left⟩

end AddressSpace.Allocator
