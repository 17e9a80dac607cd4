import AddressSpace.Proofs.Allocator.Requests
import AddressSpace.Proofs.Allocator.Script
import AddressSpace.Proofs.Text.Digits

/-!
Why a call to an allocator is refused, by what the caller hands over and what the allocator holds. The
checks come in a fixed order, the first one that fails gives the fault, and nothing is written before the
last one has passed. A fault names a source that stands for no address, or the length that an allocator is
fixed to, as far as these can be written out.
-/

namespace AddressSpace.Allocator

-- The source stands for no address. Whole numbers with too many digits can only be in a source that is neither
-- octets nor text nor an address already.
inductive NoAddress (a : Address.Source) : Fault → Prop
  | named {e} : a.resolve = .error e → a.isOverlong = false → NoAddress a (.address e)
  | overlong {e} : a.resolve = .error e → a.isOverlong = true → NoAddress a .overlong

-- Two sources name no stretch: the first one stands for no address, or it does and the second one does
-- not, or they stand for addresses of different lengths.
inductive Unnamed (first last : Address.Source) : Fault → Prop
  | first {f} : NoAddress first f → Unnamed first last f
  | last {x f} : first.resolve = .ok x → NoAddress last f → Unnamed first last f
  | lengths {x y} : first.resolve = .ok x → last.resolve = .ok y → x.length ≠ y.length →
    Unnamed first last (.lengths y.length x.length)

-- Two sources stand for the bounds of a stretch, which may be in reverse.
structure Between (first last : Address.Source) (i : Interval) : Prop where
  first : first.resolve = .ok i.first
  last  : last.resolve = .ok i.last
  even  : i.first.length = i.last.length

-- What a fault says of the length that is asked for, beside the one that an address has. It names the whole
-- part, unless that has too many digits, or there is none.
inductive Names (got : Int) : Number → Fault → Prop
  | whole {n k} : n.truncate = .ok k → k.natAbs < 10 ^ Text.maxDigits → Names got n (.lengths got k)
  | overlong {n k} : n.truncate = .ok k → 10 ^ Text.maxDigits ≤ k.natAbs → Names got n .overlong
  | none {n e} : n.truncate = .error e → Names got n (.unnamableLength e)

-- The length is fixed, and an address has another one.
def Foreign (t : Allocator) (x : Address) (f : Fault) : Prop :=
  ∃ n, t.octetCount = some n ∧ n.toInt? ≠ some (x.length : Int) ∧ Names x.length n f

-- Exactly when each call is refused, and with which fault.
structure Refusals (t : Allocator) : Prop where
  add       : ∀ first last f, t.outcome (.add first last) = .error f ↔ Unnamed first last f
    ∨ ∃ i, Between first last i
      ∧ (i.last < i.first ∧ f = .reversed i ∨ i.first ≤ i.last ∧ Foreign t i.first f)
  remove    : ∀ first last f, t.outcome (.remove first last) = .error f ↔ Unnamed first last f
    ∨ ∃ i, Between first last i ∧ i.first ≤ i.last ∧ Foreign t i.first f
  reversed  : ∀ first last i, Between first last i → i.last < i.first →
    t.outcome (.remove first last) = .ok (.flag false) ∧ t.after (.remove first last) = t
  release   : ∀ a f, t.outcome (.release a) = .error f ↔ t.outcome (.add a a) = .error f
  contains  : ∀ a f, t.outcome (.contains a) = .error f ↔
    NoAddress a f ∨ ∃ x, a.resolve = .ok x ∧ Foreign t x f
  take      : ∀ f, t.outcome .take = .error f ↔ t.free = [] ∧ f = .empty
  takeBlock : ∀ f, t.outcome .takeBlock = .error f ↔
    t.addressSet.free.card < 256 ∧ f = .short t.addressSet.free.card
  freeList  : ∀ f, t.outcome .freeList ≠ .error f
  freeCount : ∀ f, t.outcome .freeCount ≠ .error f

variable {t : Allocator} {first last a : Address.Source} {i : Interval} {x : Address} {f : Fault}
variable {got : Int} {n : Number}

-- A fault of a source tells the source itself.
theorem source_of_resolve {e : Address.Fault} (h : a.resolve = .error e) : e.source = a := by
  cases a <;> simp only [Address.Source.resolve] at h
  case octets | buffer =>
    split at h <;> cases h
    rfl
  case host => cases h
  case text =>
    split at h <;> cases h
    rfl
  case other =>
    cases h
    rfl

theorem noAddress_iff : NoAddress a f ↔ ∃ e, a.resolve = .error e ∧ f = .ofAddress e := by
  constructor
  · intro h
    cases h
    case named e h ho    => exact ⟨e, h, by simp [Fault.ofAddress, source_of_resolve h, ho]⟩
    case overlong e h ho => exact ⟨e, h, by simp [Fault.ofAddress, source_of_resolve h, ho]⟩
  · rintro ⟨e, h, rfl⟩
    cases ho : a.isOverlong <;> simp only [Fault.ofAddress, source_of_resolve h, ho]
    case false => exact .named h ho
    case true  => exact .overlong h ho

theorem stretch_eq_error_iff : stretch first last = .error f ↔ Unnamed first last f := by
  constructor
  · intro h
    cases hf : first.resolve
    case error e => exact .first (noAddress_iff.mpr ⟨e, hf, by simpa [stretch, hf, eq_comm] using h⟩)
    case ok x =>
      cases hl : last.resolve
      case error e => exact .last hf (noAddress_iff.mpr ⟨e, hl, by simpa [stretch, hf, hl, eq_comm] using h⟩)
      case ok y =>
        by_cases hn : x.length = y.length
        case pos => simp [stretch, hf, hl, hn] at h
        case neg =>
          obtain rfl : .lengths y.length x.length = f := by simpa [stretch, hf, hl, hn] using h
          exact .lengths hf hl hn
  · intro h
    cases h
    case first h =>
      obtain ⟨e, hf, rfl⟩ := noAddress_iff.mp h
      simp [stretch, hf]
    case last hf h =>
      obtain ⟨e, hl, rfl⟩ := noAddress_iff.mp h
      simp [stretch, hf, hl]
    case lengths hf hl hn => simp [stretch, hf, hl, hn]

theorem stretch_eq_ok_iff_between : stretch first last = .ok i ↔ Between first last i :=
  stretch_eq_ok_iff.trans ⟨fun ⟨hf, hl, h⟩ => ⟨hf, hl, h⟩, fun h => ⟨h.first, h.last, h.even⟩⟩

theorem mismatch_eq_iff : mismatch got n = f ↔ Names got n f := by
  constructor
  · rintro rfl
    rw [mismatch]
    cases hk : n.truncate
    case error e => exact .none hk
    case ok k =>
      by_cases ho : Text.isOverlong k
      case pos => simpa [ho] using .overlong hk (Text.isOverlong_iff.mp ho)
      case neg => simpa [ho] using .whole hk (Nat.not_le.mp (mt Text.isOverlong_iff.mpr ho))
  · intro h
    cases h
    case whole hk hl    => simp [mismatch, hk, mt Text.isOverlong_iff.mp (Nat.not_le.mpr hl)]
    case overlong hk hl => simp [mismatch, hk, Text.isOverlong_iff.mpr hl]
    case none hk        => simp [mismatch, hk]

theorem accept_eq_error_iff : t.accept x = .error f ↔ t.Foreign x f := by
  cases hn : t.octetCount
  case none => simp [accept, Foreign, hn]
  case some n =>
    by_cases hl : n.toInt? = some (x.length : Int)
    case pos => simp [accept, Foreign, hn, hl]
    case neg => simp [accept, Foreign, hn, hl, mismatch_eq_iff]

/-! ### One call -/

theorem add_eq_error_iff (t : Allocator) (first last : Address.Source) (f : Fault) :
    t.outcome (.add first last) = .error f ↔ stretch first last = .error f
    ∨ ∃ i, stretch first last = .ok i
      ∧ (i.last < i.first ∧ f = .reversed i ∨ i.first ≤ i.last ∧ t.accept i.first = .error f) := by
  have e := effect_add t first last
  generalize t.outcome (.add first last) = answer, t.after (.add first last) = t' at e ⊢
  cases e
  case refused hr =>
    cases hr
    case addSource hs => simp [hs]
    case addReversed i hr hs =>
      have hle := (not_reversed_iff_le hs).not_right.mp hr
      simp [hs, hr, hle, eq_comm]
    case addLength i hle hs ha =>
      have hr := (not_reversed_iff_le hs).mpr hle
      have ha : t.accept i.first = _ := ha
      simp [hs, hr, hle, ha]
  case add i hle ha hs =>
    have hr := (not_reversed_iff_le hs).mpr hle
    simp [hs, hr, ha]

theorem remove_eq_error_iff (t : Allocator) (first last : Address.Source) (f : Fault) :
    t.outcome (.remove first last) = .error f ↔ stretch first last = .error f
    ∨ ∃ i, stretch first last = .ok i ∧ i.first ≤ i.last ∧ t.accept i.first = .error f := by
  have e := effect_remove t first last
  generalize t.outcome (.remove first last) = answer, t.after (.remove first last) = t' at e ⊢
  cases e
  case refused hr =>
    cases hr
    case removeSource hs => simp [hs]
    case removeLength i hle hs ha =>
      have ha : t.accept i.first = _ := ha
      simp [hs, hle, ha]
  case removeReversed i hr hs =>
    have hle := (not_reversed_iff_le hs).not_right.mp hr
    simp [hs, hle]
  case remove i hle ha hs => simp [hs, hle, ha]

theorem remove_reversed (hs : stretch first last = .ok i) (hr : i.last < i.first) :
    t.outcome (.remove first last) = .ok (.flag false) ∧ t.after (.remove first last) = t := by
  have hp : t.perform (.remove first last) = .ok (.flag false, t) := by
    simp [perform, remove, hs, hr]
  exact outcome_after_of_perform hp

theorem contains_eq_error_iff (t : Allocator) (a : Address.Source) (f : Fault) :
    t.outcome (.contains a) = .error f ↔ NoAddress a f
    ∨ ∃ x, a.resolve = .ok x ∧ t.accept x = .error f := by
  rw [noAddress_iff]
  have e := effect_contains t a
  generalize t.outcome (.contains a) = answer, t.after (.contains a) = t' at e ⊢
  cases e
  case refused hr =>
    cases hr
    case containsSource h => simp [h, eq_comm]
    case containsLength x h ha =>
      have ha : t.accept x = _ := ha
      simp [h, ha]
  case contains h ha => simp [h, ha]

theorem take_eq_error_iff_free_eq_nil (h : t.Canonical) :
    t.outcome .take = .error f ↔ t.free = [] ∧ f = .empty := by
  have ⟨_, ck, _⟩ := canonical_iff.mp h
  rw [take_eq_error_iff h, and_comm, ← ck.addresses_eq_empty_iff, List.eq_nil_iff_forall_not_mem,
    Finset.eq_empty_iff_forall_notMem]
  simp only [ck.mem_ascending]

theorem takeBlock_eq_error_iff_card (h : t.Canonical) : t.outcome .takeBlock = .error f ↔
    t.addressSet.free.card < 256 ∧ f = .short t.addressSet.free.card := by
  have ⟨_, ck, _⟩ := canonical_iff.mp h
  have hl : (t.free.ascending.length : Int) = t.addressSet.free.card :=
    ck.length_ascending.trans ck.size_eq_card
  rw [takeBlock_eq_error_iff h, hl, and_comm, FreeList.blockSize]
  exact and_congr_left fun _ => Int.ofNat_lt

/-! ### Every run -/

theorem refusals (hc : t.Canonical) : t.Refusals where
  add first last f := by
    simp only [add_eq_error_iff, stretch_eq_error_iff, stretch_eq_ok_iff_between, accept_eq_error_iff]
  remove first last f := by
    simp only [remove_eq_error_iff, stretch_eq_error_iff, stretch_eq_ok_iff_between, accept_eq_error_iff]
  reversed _ _ _ hb := remove_reversed (stretch_eq_ok_iff_between.mpr hb)
  release _ _ := Iff.rfl
  contains a f := by simp only [contains_eq_error_iff, accept_eq_error_iff]
  take _ := take_eq_error_iff_free_eq_nil hc
  takeBlock _ := takeBlock_eq_error_iff_card hc
  freeList _ := nofun
  freeCount _ := nofun

-- After every run, each call is refused exactly for the reasons above. Carried out step by step, a call
-- that is refused has written nothing; all others come through and leave what the call leaves.
theorem refusals_of_run (length : Option Number) (calls : List Call) :
    let t := run { octetCount := length } calls
    t.Refusals
    ∧ (∀ c f, t.outcome c = .error f → (Script.ofCall c).run t = .error f t ∧ t.after c = t)
    ∧ ∀ c answer, t.outcome c = .ok answer → (Script.ofCall c).run t = .ok answer (t.after c) := by
  intro t
  have hc : t.Canonical := (Canonical.empty length).run calls
  refine ⟨refusals hc, fun c f hf => ⟨?_, after_eq_self hf⟩, fun c answer hf => ?_⟩
  · exact (Script.run_eq_error_iff hc).mpr ⟨hf, rfl⟩
  · exact (Script.run_eq_ok_iff hc).mpr ⟨hf, rfl⟩

-- Bounds of another length than the one that is fixed are refused by all calls alike.
theorem outcome_of_foreign (hc : t.Canonical) (hb : Between first last i) (hle : i.first ≤ i.last)
    (hx : t.Foreign i.first f) :
    ∀ call ∈ [Call.add first last, .remove first last, .contains first], t.outcome call = .error f := by
  have r := refusals hc
  have hadd := (r.add first last f).mpr (.inr ⟨i, hb, .inr ⟨hle, hx⟩⟩)
  have hremove := (r.remove first last f).mpr (.inr ⟨i, hb, hle, hx⟩)
  have hcontains := (r.contains first f).mpr (.inr ⟨_, hb.first, hx⟩)
  simp [hadd, hremove, hcontains]

-- A length with one digit more than can be written out.
def overlong : Allocator :=
  { octetCount := some (.int (10 ^ Text.maxDigits : Nat)) }

-- A length that is no number of octets at all.
def endless : Allocator :=
  { octetCount := some (.real (.infinite false)) }

-- Addresses of another length are refused, and the fault does not name the two lengths.
theorem lengths_of_overlong_unnamed :
    let first : Address.Source := .text "10.0.0.1"
    let last : Address.Source := .text "10.0.0.2"
    Between first last ⟨⟨[10, 0, 0, 1]⟩, ⟨[10, 0, 0, 2]⟩⟩
    ∧ ∀ call ∈ [Call.add first last, .remove first last, .contains first],
      overlong.outcome call = .error .overlong
      ∧ endless.outcome call = .error (.unnamableLength .infinite)
      ∧ ∀ got expected, overlong.outcome call ≠ .error (.lengths got expected)
        ∧ endless.outcome call ≠ .error (.lengths got expected) := by
  intro first last
  have hb : Between first last ⟨⟨[10, 0, 0, 1]⟩, ⟨[10, 0, 0, 2]⟩⟩ := ⟨rfl, rfl, rfl⟩
  have hle : (⟨[10, 0, 0, 1]⟩ : Address) ≤ ⟨[10, 0, 0, 2]⟩ := by decide
  have hn : 4 < 10 ^ Text.maxDigits :=
    Nat.lt_of_lt_of_le (by decide : 4 < 10 ^ 1) (Nat.pow_le_pow_right (by decide) (by decide))
  have ho : overlong.Foreign ⟨[10, 0, 0, 1]⟩ .overlong := by
    refine ⟨_, rfl, fun he => ?_, .overlong rfl (Int.natAbs_natCast _).ge⟩
    exact Nat.ne_of_gt hn (Int.ofNat.inj (Option.some.inj he))
  have he : endless.Foreign ⟨[10, 0, 0, 1]⟩ (.unnamableLength .infinite) := ⟨_, rfl, nofun, .none rfl⟩
  have co : overlong.Canonical := .empty _
  have ce : endless.Canonical := .empty _
  refine ⟨hb, fun call hc => ?_⟩
  have ho := outcome_of_foreign co hb hle ho call hc
  have he := outcome_of_foreign ce hb hle he call hc
  simp [ho, he]

end AddressSpace.Allocator
