import AddressSpace.Proofs.Allocator.Refusals

/-!
Where the length comes from that an allocator is fixed to. It is given at the start, or else it is the
length of the addresses that are added first; nothing else fixes it, and nothing changes it any more. As
long as no length is fixed, nothing is free, and nothing is found.
-/

namespace AddressSpace.Allocator

-- The length of the addresses that two sources stand for, if both stand for addresses of one length.
def commonLength? (first last : Address.Source) : Option Number :=
  (stretch first last).toOption.map fun i => .int i.first.length

-- The length of the addresses that a call added, if it was not refused.
def Event.added? : Event → Option Number
  | ⟨.add first last, .ok _⟩ => commonLength? first last
  | ⟨.release a, .ok _⟩      => commonLength? a a
  | _                        => none

-- Once a length is fixed it stays, whatever is called and however little is free. What does not add
-- addresses does not fix one either, and neither does a call that is refused, wherever it breaks off.
structure KeepsLength (t : Allocator) : Prop where
  fixed    : ∀ n more, t.octetCount = some n → (t.run more).octetCount = some n
  refused  : ∀ c f t', (Script.ofCall c).run t = .error f t' → t'.octetCount = t.octetCount
  remove   : ∀ first last, (t.after (.remove first last)).octetCount = t.octetCount
  contains : ∀ a, (t.after (.contains a)).octetCount = t.octetCount

-- Nothing is free, and no address is too short or too long to be asked for.
structure FindsNothing (t : Allocator) : Prop where
  free     : t.free = []
  remove   : ∀ first last i, Between first last i → t.outcome (.remove first last) = .ok (.flag false)
  contains : ∀ a x, a.resolve = .ok x → t.outcome (.contains a) = .ok (.flag false)

variable {t t' : Allocator} {c : Call} {first last a : Address.Source} {i : Interval} {x : Address}

theorem commonLength?_eq (h : stretch first last = .ok i) :
    commonLength? first last = some (.int i.first.length) := by
  simp [commonLength?, h, Except.toOption]

theorem commonLength?_self (h : a.resolve = .ok x) : commonLength? a a = some (.int x.length) :=
  commonLength?_eq (i := { first := x, last := x }) (by simp [stretch_self, h])

/-! ### One call -/

-- A call that adds addresses fixes their length if nothing did before. No other call fixes any.
theorem octetCount_of_effect {answer : Except Fault Answer} (e : Effect t c answer t') :
    t'.octetCount = t.octetCount.or (Event.added? ⟨c, answer⟩) := by
  cases e
  case refused => cases c <;> exact Option.or_none.symm
  case add i hs _ _ =>
    simp only [Event.added?, commonLength?_eq hs, supplied]
    cases t.octetCount <;> rfl
  case release x hr _ =>
    simp only [Event.added?, commonLength?_self hr, supplied]
    cases t.octetCount <;> rfl
  all_goals exact Option.or_none.symm

theorem octetCount_after_eq (h : t.Canonical) (c : Call) :
    (t.after c).octetCount = t.octetCount.or (Event.added? ⟨c, t.outcome c⟩) :=
  have ⟨_, ck, _⟩ := canonical_iff.mp h
  octetCount_of_effect (effect ck c)

theorem octetCount_after_of_added?_eq_none (h : t.Canonical) (ha : Event.added? ⟨c, t.outcome c⟩ = none) :
    (t.after c).octetCount = t.octetCount := by
  rw [octetCount_after_eq h, ha, Option.or_none]

/-! ### Runs -/

theorem octetCount_run_eq (h : t.Canonical) (calls : List Call) :
    (t.run calls).octetCount = t.octetCount.or ((t.history calls).findSome? Event.added?) := by
  induction calls generalizing t
  case nil => exact Option.or_none.symm
  case cons c calls hi =>
    have hf : (t.history (c :: calls)).findSome? Event.added?
        = (Event.added? ⟨c, t.outcome c⟩).or (((t.after c).history calls).findSome? Event.added?) := by
      rw [history, List.findSome?_cons]
      cases Event.added? ⟨c, t.outcome c⟩ <;> rfl
    rw [hf, ← Option.or_assoc, ← octetCount_after_eq h]
    exact hi (h.after c)

theorem keepsLength (h : t.Canonical) : t.KeepsLength where
  fixed _ more hn := h.octetCount_run hn more
  refused _ _ _ hr := congrArg octetCount ((Script.run_eq_error_iff h).mp hr).right
  remove _ _ := octetCount_after_of_added?_eq_none h rfl
  contains _ := octetCount_after_of_added?_eq_none h rfl

/-! ### No length -/

theorem free_eq_nil_of_octetCount_eq_none (h : t.Canonical) (hn : t.octetCount = none) : t.free = [] := by
  have ⟨_, _, hl⟩ := canonical_iff.mp h
  by_contra hf
  simpa [length?, hn] using hl hf

theorem outcome_remove_of_free_eq_nil (hn : t.octetCount = none) (hf : t.free = [])
    (hb : Between first last i) : t.outcome (.remove first last) = .ok (.flag false) := by
  have hs := stretch_eq_ok_iff_between.mpr hb
  by_cases hr : i.last < i.first
  case pos => exact (remove_reversed hs hr).left
  case neg =>
    have ha : t.accept i.first = .ok () := accept_eq_ok_iff.mpr (.inl hn)
    simp [outcome, perform, remove, hs, hr, ha, hf, FreeList.overlaps]

theorem outcome_contains_of_free_eq_nil (hn : t.octetCount = none) (hf : t.free = [])
    (hx : a.resolve = .ok x) : t.outcome (.contains a) = .ok (.flag false) := by
  have ha : t.accept x = .ok () := accept_eq_ok_iff.mpr (.inl hn)
  simp [outcome, perform, contains, hx, ha, hf, FreeList.covers]

theorem findsNothing (h : t.Canonical) (hn : t.octetCount = none) : t.FindsNothing :=
  have hf := free_eq_nil_of_octetCount_eq_none h hn
  { free := hf
    remove _ _ _ hb := outcome_remove_of_free_eq_nil hn hf hb
    contains _ _ hx := outcome_contains_of_free_eq_nil hn hf hx }

-- The length after a run is the one that was given, or else that of the first addresses that came to be
-- added, if any did. From then on it is kept, and before that nothing is found. So it is too where the
-- calls are carried out step by step.
theorem length_given_or_first_added (octetCount : Option Number) (calls : List Call) :
    let t := run { octetCount } calls
    t.octetCount = octetCount.or ((history { octetCount } calls).findSome? Event.added?)
    ∧ calls.foldl Script.left { octetCount } = t
    ∧ t.KeepsLength
    ∧ (t.octetCount = none → t.FindsNothing) := by
  have h₀ := Canonical.empty octetCount
  have h := h₀.run calls
  exact ⟨octetCount_run_eq h₀ calls, Script.foldl_left h₀ calls, keepsLength h, findsNothing h⟩

-- Neither a stretch in reverse fixes a length, nor does asking. An address does, and leaves it behind when it
-- is taken.
example :
    let t := run {} [.add (.octets ⟨[2]⟩) (.octets ⟨[1]⟩), .contains (.octets ⟨[0, 0, 0, 7]⟩)]
    let t' := t.run [.release (.octets ⟨[3]⟩), .take, .release (.octets ⟨[0, 0, 0, 7]⟩)]
    t.octetCount = none ∧ t' = { octetCount := some (.int 1), free := [] } := by
  decide +kernel

end AddressSpace.Allocator
