import AddressSpace.Proofs.Allocator.Refusals
import AddressSpace.Proofs.FreeList.BlockEnd
import AddressSpace.Proofs.FreeList.Count

/-!
How many free stretches an allocator has. Each addition and each removal leaves an exact number of them, and
what is handed out never makes them more; so a run leaves no more stretches than it has added addresses and
removed some.
-/

namespace AddressSpace.Allocator

-- The call added addresses, and was not refused.
def Event.adds : Event → Bool
  | ⟨.add _ _, .ok _⟩ | ⟨.release _, .ok _⟩ => true
  | _                                       => false

-- The call told that it removed addresses.
def Event.removes : Event → Bool
  | ⟨.remove _ _, .ok (.flag true)⟩ => true
  | _                               => false

-- What each call leaves of the free stretches. Those that a new stretch overlaps or touches become one with
-- it. Of those that are removed in part, what is left takes their place. A call that is refused leaves all of
-- them as they are.
structure Counted (t : Allocator) : Prop where
  add       : ∀ first last answer, t.outcome (.add first last) = .ok answer →
    ∃ i hull, Between first last i
      ∧ FreeList.Replaced (·.touches i) t.free [hull] (t.after (.add first last)).free
      ∧ hull.addresses = i.addresses ∪ FreeList.addresses (t.free.filter (·.touches i))
      ∧ (t.after (.add first last)).free.length + t.free.countP (·.touches i) = t.free.length + 1
  remove    : ∀ first last i answer, Between first last i → i.first ≤ i.last →
    t.outcome (.remove first last) = .ok answer →
    ∃ pieces, FreeList.Replaced (·.overlaps i) t.free pieces (t.after (.remove first last)).free
      ∧ (t.after (.remove first last)).free.length + t.free.countP (·.within i)
        = t.free.length + if t.free.any (·.encloses i) then 1 else 0
  take      : (t.after .take).free.length ≤ t.free.length
  takeBlock : (t.after .takeBlock).free.length ≤ t.free.length
  refused   : ∀ c fault, t.outcome c = .error fault → (t.after c).free = t.free

variable {t : Allocator} {first last : Address.Source} {i : Interval} {answer : Answer}
variable {x : Address}

/-! ### One call -/

theorem supplied_of_add (h : t.outcome (.add first last) = .ok answer) : ∃ i, stretch first last = .ok i
    ∧ i.first ≤ i.last ∧ t.accept i.first = .ok () ∧ t.after (.add first last) = t.supplied i := by
  have e := effect_add t first last
  rw [h] at e
  generalize t.after (.add first last) = t' at e ⊢
  cases e
  case add i hle ha hs => exact ⟨i, hs, hle, ha, rfl⟩

theorem without_of_remove (hs : stretch first last = .ok i) (hle : i.first ≤ i.last)
    (h : t.outcome (.remove first last) = .ok answer) :
    t.accept i.first = .ok () ∧ t.after (.remove first last) = t.without [i] := by
  have e := effect_remove t first last
  rw [h] at e
  generalize t.after (.remove first last) = t' at e ⊢
  cases e
  case removeReversed hr hs' =>
    cases hs.symm.trans hs'
    exact absurd hr ((not_reversed_iff_le hs).mpr hle)
  case remove ha hs' =>
    cases hs.symm.trans hs'
    exact ⟨ha, rfl⟩

theorem length_supplied (h : t.Canonical) (hi : i.Fits i.first.length) (ha : t.accept i.first = .ok ()) :
    (t.supplied i).free.length + t.free.countP (·.touches i) = t.free.length + 1 :=
  FreeList.length_add (h.of_accept ha) hi

theorem length_without (h : t.Canonical) (hi : i.Fits i.first.length) (ha : t.accept i.first = .ok ()) :
    (t.without [i]).free.length + t.free.countP (·.within i)
      = t.free.length + if t.free.any (·.encloses i) then 1 else 0 := by
  have c := h.of_accept ha
  rw [← FreeList.countP_encloses c hi]
  exact FreeList.length_remove c hi

-- The lowest free address begins its stretch, so that the stretch does not fall into two without it.
theorem length_without_lowest (h : t.Canonical) (hx : x ∈ t.free.addresses)
    (hle : ∀ y ∈ t.free.addresses, x ≤ y) :
    (t.without [{ first := x, last := x }]).free.length ≤ t.free.length := by
  have ⟨_, c, _⟩ := canonical_iff.mp h
  have hf := FreeList.fits_single (c.length_of_mem hx)
  have hn : ∀ i ∈ t.free, ¬ i.encloses { first := x, last := x } := fun i hi => by
    have hi' := c.fits hi
    have hm := FreeList.mem_addresses.mpr ⟨i, hi, hi'.first_mem⟩
    have := (Address.le_iff_value_le (hf.first.trans hi'.first.symm)).mp (hle i.first hm)
    rw [Interval.encloses_iff hi' hf]
    omega
  have hl := FreeList.length_remove c hf
  rw [List.countP_eq_zero.mpr hn] at hl
  exact (Nat.le_add_right ..).trans_eq hl

theorem length_takeBlock_le (h : t.Canonical) : (t.after .takeBlock).free.length ≤ t.free.length := by
  have ⟨_, c, _⟩ := canonical_iff.mp h
  by_cases hs : t.free.size < FreeList.blockSize
  case pos => simp [after, perform, takeBlock, hs]
  case neg =>
    have hs : ((256 : Nat) : Int) ≤ t.free.size := Int.not_lt.mp hs
    obtain ⟨whole, i, rest, stop, b, hb⟩ := FreeList.exists_blockAt c (by decide) hs
    have hp := perform_takeBlock hs hb
    have hl : (FreeList.behind i stop).length ≤ 1 := by
      rw [FreeList.behind]
      split <;> simp
    simp only [after, hp, without, b.foldl_remove_upTo]
    simp only [b.eq, List.length_append, List.length_cons]
    omega

-- A call leaves one more stretch at most, and that only if it adds addresses or removes some.
theorem length_after_le (h : t.Canonical) (c : Call) : (t.after c).free.length ≤ t.free.length
    + ((if Event.adds ⟨c, t.outcome c⟩ then 1 else 0) + if Event.removes ⟨c, t.outcome c⟩ then 1 else 0) := by
  by_cases hb : c = .takeBlock
  case pos => exact hb ▸ (length_takeBlock_le h).trans (Nat.le_add_right ..)
  case neg =>
    have ⟨_, ck, _⟩ := canonical_iff.mp h
    have e := effect ck c
    generalize t.outcome c = answer, t.after c = t' at e ⊢
    cases e
    case add hs hle ha =>
      have hl := length_supplied h (fits_of_stretch hs hle) ha
      exact (Nat.le_add_right ..).trans_eq hl
    case release x hr ha =>
      have hl := length_supplied h (FreeList.fits_single (a := x) rfl) ha
      exact (Nat.le_add_right ..).trans_eq hl
    case remove i hs hle ha =>
      have hi := fits_of_stretch hs hle
      by_cases ho : t.free.overlaps i
      case pos =>
        have hl := length_without h hi ha
        simp only [Event.adds, Event.removes, ho]
        split at hl <;> simp <;> omega
      case neg =>
        have hl : (t.without [i]).free = t.free := FreeList.remove_of_not_overlaps ho
        exact hl ▸ Nat.le_add_right ..
    case take hx hle => exact (length_without_lowest h hx hle).trans (Nat.le_add_right ..)
    case takeBlock => exact absurd rfl hb
    all_goals exact Nat.le_add_right ..

theorem counted (h : t.Canonical) : t.Counted where
  add first last answer ho := by
    obtain ⟨i, hs, hle, ha, he⟩ := supplied_of_add ho
    have hi := fits_of_stretch hs hle
    obtain ⟨hull, hr, hu⟩ := FreeList.replaced_add (h.of_accept ha) hi
    rw [he]
    exact ⟨i, hull, stretch_eq_ok_iff_between.mp hs, hr, hu, length_supplied h hi ha⟩
  remove first last i answer hb hle ho := by
    have hs := stretch_eq_ok_iff_between.mpr hb
    obtain ⟨ha, he⟩ := without_of_remove hs hle ho
    have hi := fits_of_stretch hs hle
    obtain ⟨pieces, hr⟩ := FreeList.replaced_remove (h.of_accept ha) hi
    rw [he]
    exact ⟨pieces, hr, length_without h hi ha⟩
  take      := length_after_le h .take
  takeBlock := length_takeBlock_le h
  refused _ _ ho := congrArg free (after_eq_self ho)

/-! ### Runs -/

theorem length_run_le (h : t.Canonical) (calls : List Call) : (t.run calls).free.length
    ≤ t.free.length + ((t.history calls).countP Event.adds + (t.history calls).countP Event.removes) := by
  induction calls generalizing t
  case nil => exact Nat.le_add_right ..
  case cons c calls hi =>
    have hc := length_after_le h c
    have hr := hi (h.after c)
    simp only [run, List.foldl_cons, history, List.countP_cons] at hr ⊢
    omega

-- After every run, an addition makes one stretch of all that it overlaps or touches, a removal takes away the
-- stretches that lie in it and makes two of one that goes on at both ends, and what is handed out leaves no
-- more stretches than before. So there are no more of them than calls that added addresses or removed some.
theorem stretches_counted (octetCount : Option Number) (calls : List Call) :
    let t := run { octetCount } calls
    let events := history { octetCount } calls
    t.Counted ∧ t.free.length ≤ events.countP Event.adds + events.countP Event.removes := by
  intro t events
  have h₀ := Canonical.empty octetCount
  have hl := length_run_le h₀ calls
  exact ⟨counted (h₀.run calls), by simpa using hl⟩

-- At the top of the space, an address touches the one above it and not the stretch that ends four below. A
-- removal up to the top leaves what lies below it.
example :
    let t := run {} [.add (.octets ⟨[240]⟩) (.octets ⟨[250]⟩), .release (.octets ⟨[255]⟩)]
    (t.after (.release (.octets ⟨[254]⟩))).free = [⟨⟨[240]⟩, ⟨[250]⟩⟩, ⟨⟨[254]⟩, ⟨[255]⟩⟩]
    ∧ (t.after (.remove (.octets ⟨[245]⟩) (.octets ⟨[255]⟩))).free = [⟨⟨[240]⟩, ⟨[244]⟩⟩] := by
  decide

end AddressSpace.Allocator
