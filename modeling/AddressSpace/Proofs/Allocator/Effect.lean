import AddressSpace.Allocator
import AddressSpace.Proofs.FreeList.Block
import AddressSpace.Proofs.FreeList.Edits
import AddressSpace.Proofs.Outcome

/-!
What a call to an allocator can do: why it is refused, and what it answers and leaves behind when it is
not. All that holds of runs is derived from this one case analysis.
-/

namespace AddressSpace.Allocator

-- The count of octets that addresses must have, once it is fixed to a whole number.
def length? (t : Allocator) : Option Int :=
  t.octetCount.bind Number.toInt?

-- The allocator with a stretch added, which fixes the length of addresses if nothing did before.
def supplied (t : Allocator) (i : Interval) : Allocator :=
  { octetCount := some (t.octetCount.getD (.int i.first.length)), free := t.free.add i }

-- The allocator without some stretches.
def without (t : Allocator) (is : List Interval) : Allocator :=
  { t with free := is.foldl (fun free i => free.remove i) t.free }

-- Why a call is refused. All that matters of the free addresses is how many they are.
inductive Refuses (octetCount : Option Number) (count : Int) : Call → Fault → Prop
  | addSource {first last f} : stretch first last = .error f →
    Refuses octetCount count (.add first last) f
  | addReversed {first last i} : stretch first last = .ok i → i.last < i.first →
    Refuses octetCount count (.add first last) (.reversed i)
  | addLength {first last i f} : stretch first last = .ok i → i.first ≤ i.last →
    accept { octetCount } i.first = .error f → Refuses octetCount count (.add first last) f
  | removeSource {first last f} : stretch first last = .error f →
    Refuses octetCount count (.remove first last) f
  | removeLength {first last i f} : stretch first last = .ok i → i.first ≤ i.last →
    accept { octetCount } i.first = .error f → Refuses octetCount count (.remove first last) f
  | releaseSource {a e} : a.resolve = .error e → Refuses octetCount count (.release a) (.ofAddress e)
  | releaseLength {a x f} : a.resolve = .ok x → accept { octetCount } x = .error f →
    Refuses octetCount count (.release a) f
  | take : count = 0 → Refuses octetCount count .take .empty
  | takeBlock : count < FreeList.blockSize → Refuses octetCount count .takeBlock (.short count)
  | containsSource {a e} : a.resolve = .error e →
    Refuses octetCount count (.contains a) (.ofAddress e)
  | containsLength {a x f} : a.resolve = .ok x → accept { octetCount } x = .error f →
    Refuses octetCount count (.contains a) f

-- What a call answers, and which allocator it leaves.
inductive Effect (t : Allocator) : Call → Except Fault Answer → Allocator → Prop
  | refused {c f} : Refuses t.octetCount t.free.size c f → Effect t c (.error f) t
  | add {first last i} : stretch first last = .ok i → i.first ≤ i.last →
    t.accept i.first = .ok () → Effect t (.add first last) (.ok .done) (t.supplied i)
  | removeReversed {first last i} : stretch first last = .ok i → i.last < i.first →
    Effect t (.remove first last) (.ok (.flag false)) t
  | remove {first last i} : stretch first last = .ok i → i.first ≤ i.last →
    t.accept i.first = .ok () →
    Effect t (.remove first last) (.ok (.flag (t.free.overlaps i))) (t.without [i])
  | release {a x} : a.resolve = .ok x → t.accept x = .ok () →
    Effect t (.release a) (.ok .done) (t.supplied { first := x, last := x })
  | take {x} : x ∈ t.free.addresses → (∀ y ∈ t.free.addresses, x ≤ y) →
    Effect t .take (.ok (.address x)) (t.without [{ first := x, last := x }])
  | takeBlock {octetCount} {taken : FreeList} {stop : Address} : t.free.Canonical octetCount →
    taken.Canonical octetCount → FreeList.blockSize ≤ taken.size →
    (∀ y, y ∈ taken.addresses ↔ y ∈ t.free.addresses ∧ y.value ≤ stop.value) →
    Effect t .takeBlock (.ok (.stretches taken)) (t.without taken)
  | freeList : Effect t .freeList (.ok (.stretches t.free)) t
  | freeCount : Effect t .freeCount (.ok (.count t.free.size)) t
  | contains {a x} : a.resolve = .ok x → t.accept x = .ok () →
    Effect t (.contains a) (.ok (.flag (t.free.covers x))) t

-- The answer of a call, or the fault with which it is refused.
def outcome (t : Allocator) (c : Call) : Except Fault Answer :=
  (t.perform c).map Prod.fst

variable {t t' : Allocator} {c : Call} {first last a : Address.Source} {i : Interval} {x : Address}
variable {f : Fault} {answer : Answer} {octetCount : Nat}

theorem accept_eq_ok_iff :
    t.accept x = .ok () ↔ t.octetCount = none ∨ t.length? = some (x.length : Int) := by
  simp only [accept, length?]
  cases t.octetCount
  case none => simp
  case some n =>
    simp only [Option.bind_some, reduceCtorEq, false_or, Option.bind_eq_bind, Option.pure_def]
    split
    case isTrue h  => simp [h]
    case isFalse h => simpa using h

-- A stretch that is accepted and added leaves its own length as the fixed one.
theorem length?_supplied (h : t.accept i.first = .ok ()) :
    (t.supplied i).length? = some (i.first.length : Int) := by
  cases accept_eq_ok_iff.mp h
  case inl h => simp [supplied, length?, h, Number.toInt?]
  case inr h => cases hn : t.octetCount <;> simp_all [supplied, length?]

-- A stretch is found between two sources that stand for addresses of one length.
theorem stretch_eq_ok_iff : stretch first last = .ok i ↔
    first.resolve = .ok i.first ∧ last.resolve = .ok i.last ∧ i.first.length = i.last.length := by
  simp only [stretch]
  constructor
  · intro h
    cases hf : first.resolve <;> cases hl : last.resolve
    all_goals simp only [hf, hl, Outcome.mapError_ok, Outcome.mapError_error, Outcome.ok_bind,
      Outcome.error_bind, reduceCtorEq] at h
    case ok.ok x y =>
      split at h <;> cases h
      case isFalse hn => exact ⟨rfl, rfl, not_not.mp hn⟩
  · intro ⟨hf, hl, h⟩
    simp [hf, hl, h]

theorem length_eq_of_stretch (h : stretch first last = .ok i) : i.first.length = i.last.length :=
  (stretch_eq_ok_iff.mp h).right.right

theorem not_reversed_iff_le (h : stretch first last = .ok i) : ¬ i.last < i.first ↔ i.first ≤ i.last :=
  Address.not_lt_iff_le (length_eq_of_stretch h)

theorem fits_of_stretch (h : stretch first last = .ok i) (hle : i.first ≤ i.last) :
    i.Fits i.first.length :=
  have hl := length_eq_of_stretch h
  ⟨rfl, hl.symm, (Address.le_iff_value_le hl).mp hle⟩

theorem stretch_self (a : Address.Source) :
    stretch a a = (a.resolve.mapError .ofAddress).map fun x => { first := x, last := x } := by
  simp only [stretch]
  cases a.resolve <;> simp [Except.mapError, Except.map, bind, Except.bind, pure, Except.pure]

/-! ### Every call has its effect -/

theorem Effect.of_error (h : t.perform c = .error f) (hr : Refuses t.octetCount t.free.size c f) :
    Effect t c (t.outcome c) (t.after c) := by
  simpa [outcome, after, h] using Effect.refused hr

theorem Effect.of_ok (h : t.perform c = .ok (answer, t')) (he : Effect t c (.ok answer) t') :
    Effect t c (t.outcome c) (t.after c) := by
  simpa [outcome, after, h] using he

theorem outcome_after_of_perform (h : t.perform c = .ok (answer, t')) :
    t.outcome c = .ok answer ∧ t.after c = t' := by
  simp [outcome, after, h]

-- A call that is refused leaves the allocator as it was.
theorem after_eq_self (h : t.outcome c = .error f) : t.after c = t := by
  simp only [outcome, after] at h ⊢
  cases hp : t.perform c
  case error => rfl
  case ok    => simp [hp] at h

theorem not_lt_self (x : Address) : ¬ x < x := by
  simp [Address.lt_iff_value_lt]

theorem effect_add (t : Allocator) (first last : Address.Source) :
    Effect t (.add first last) (t.outcome (.add first last)) (t.after (.add first last)) := by
  cases hs : stretch first last
  case error f => exact .of_error (f := f) (by simp [perform, add, hs]) (.addSource hs)
  case ok i =>
    by_cases hr : i.last < i.first
    case pos => exact .of_error (f := .reversed i) (by simp [perform, add, hs, hr]) (.addReversed hs hr)
    case neg =>
      have hle := (not_reversed_iff_le hs).mp hr
      cases ha : t.accept i.first
      case error f =>
        exact .of_error (f := f) (by simp [perform, add, hs, hr, ha]) (.addLength hs hle ha)
      case ok =>
        have h : t.perform (.add first last) = .ok (.done, t.supplied i) := by
          simp [perform, add, hs, hr, ha, supplied]
        exact .of_ok h (.add hs hle ha)

theorem effect_remove (t : Allocator) (first last : Address.Source) :
    Effect t (.remove first last) (t.outcome (.remove first last)) (t.after (.remove first last)) := by
  cases hs : stretch first last
  case error f => exact .of_error (f := f) (by simp [perform, remove, hs]) (.removeSource hs)
  case ok i =>
    by_cases hr : i.last < i.first
    case pos =>
      have h : t.perform (.remove first last) = .ok (.flag false, t) := by
        simp [perform, remove, hs, hr]
      exact .of_ok h (.removeReversed hs hr)
    case neg =>
      have hle := (not_reversed_iff_le hs).mp hr
      cases ha : t.accept i.first
      case error f =>
        exact .of_error (f := f) (by simp [perform, remove, hs, hr, ha]) (.removeLength hs hle ha)
      case ok =>
        have h : t.perform (.remove first last)
            = .ok (.flag (t.free.overlaps i), t.without [i]) := by
          simp [perform, remove, hs, hr, ha, without]
        exact .of_ok h (.remove hs hle ha)

theorem effect_release (t : Allocator) (a : Address.Source) :
    Effect t (.release a) (t.outcome (.release a)) (t.after (.release a)) := by
  cases hr : a.resolve
  case error e =>
    have h : t.perform (.release a) = .error (.ofAddress e) := by
      simp [perform, release, add, stretch_self, hr]
    exact .of_error h (.releaseSource hr)
  case ok x =>
    have hn := not_lt_self x
    cases ha : t.accept x
    case error f =>
      have h : t.perform (.release a) = .error f := by
        simp [perform, release, add, stretch_self, hr, hn, ha]
      exact .of_error h (.releaseLength hr ha)
    case ok =>
      have h : t.perform (.release a) = .ok (.done, t.supplied { first := x, last := x }) := by
        simp [perform, release, add, stretch_self, hr, hn, ha, supplied]
      exact .of_ok h (.release hr ha)

theorem effect_take (h : t.free.Canonical octetCount) :
    Effect t .take (t.outcome .take) (t.after .take) := by
  cases hl : t.free.takeLowest?
  case none =>
    have hp : t.perform .take = .error .empty := by simp [perform, take, hl]
    refine .of_error hp (.take ?_)
    rw [FreeList.takeLowest?_eq_none_iff.mp hl, FreeList.size]
  case some p =>
    cases p
    case mk x free =>
      obtain ⟨hm, hle, he⟩ := FreeList.takeLowest?_eq_some h hl
      have hp : t.perform .take = .ok (.address x, t.without [{ first := x, last := x }]) := by
        simp [perform, take, hl, without, he]
      exact .of_ok hp (.take hm hle)

-- Where enough addresses are free, a block that is found is handed out.
theorem perform_takeBlock {taken : List Interval} (h : FreeList.blockSize ≤ t.free.size)
    (hb : t.free.lowestBlock FreeList.blockSize = .ok taken) :
    t.perform .takeBlock = .ok (.stretches taken, t.without taken) := by
  simp [perform, takeBlock, Int.not_lt.mpr h, hb, without]

theorem effect_takeBlock (h : t.free.Canonical octetCount) :
    Effect t .takeBlock (t.outcome .takeBlock) (t.after .takeBlock) := by
  by_cases hs : t.free.size < FreeList.blockSize
  case pos =>
    have hp : t.perform .takeBlock = .error (.short t.free.size) := by
      simp [perform, takeBlock, hs]
    exact .of_error hp (.takeBlock hs)
  case neg =>
    have hs := Int.not_lt.mp hs
    have ⟨taken, stop, hb, hc, he, hm⟩ := FreeList.exists_lowestBlock h (by decide) hs
    exact .of_ok (perform_takeBlock hs hb) (.takeBlock h hc he hm)

theorem effect_contains (t : Allocator) (a : Address.Source) :
    Effect t (.contains a) (t.outcome (.contains a)) (t.after (.contains a)) := by
  cases hr : a.resolve
  case error e =>
    exact .of_error (f := .ofAddress e) (by simp [perform, contains, hr]) (.containsSource hr)
  case ok x =>
    cases ha : t.accept x
    case error f =>
      exact .of_error (f := f) (by simp [perform, contains, hr, ha]) (.containsLength hr ha)
    case ok =>
      have h : t.perform (.contains a) = .ok (.flag (t.free.covers x), t) := by
        simp [perform, contains, hr, ha]
      exact .of_ok h (.contains hr ha)

theorem effect (h : t.free.Canonical octetCount) (c : Call) :
    Effect t c (t.outcome c) (t.after c) := by
  cases c
  case add first last    => exact effect_add t first last
  case remove first last => exact effect_remove t first last
  case release a         => exact effect_release t a
  case take              => exact effect_take h
  case takeBlock         => exact effect_takeBlock h
  case freeList          => exact .of_ok rfl .freeList
  case freeCount         => exact .of_ok rfl .freeCount
  case contains a        => exact effect_contains t a

-- A length that is fixed stays fixed.
theorem octetCount_after {n : Number} (h : t.free.Canonical octetCount) (hn : t.octetCount = some n)
    (c : Call) : (t.after c).octetCount = some n := by
  have e := effect h c
  generalize t.outcome c = answer, t.after c = t' at e ⊢
  cases e
  case add | release => simp [supplied, hn]
  all_goals exact hn

end AddressSpace.Allocator
