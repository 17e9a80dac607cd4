import AddressSpace.Proofs.Address.Steps
import AddressSpace.Proofs.Outcome
import AddressSpace.Proofs.Text.Digits

/-!
Jumps on the addresses of a length. A jump leads where as many steps lead, one after another, and is refused
just when one of these steps would wrap around. Both add to the value of the address, as far as the space
reaches. So a jump and the jump back undo each other, and the count of a stretch tells how far it is from its
first address to its last one.
-/

namespace AddressSpace

namespace Address

variable {a b : Address} {places : Int} {n : Nat}

-- So many steps one after another, as long as none of them wraps around.
def walk? (step : Address → Address × Bool) : Nat → Address → Option Address
  | 0, a     => some a
  | n + 1, a => if (step a).2 then none else walk? step n (step a).1

-- The address some places above or below that is reached in single steps.
def stepwise? (a : Address) : Int → Option Address
  | .ofNat n   => walk? next n a
  | .negSucc n => walk? previous (n + 1) a

/-! ### Step by step -/

theorem walk?_next_eq_some_iff :
    walk? next n a = some b ↔ b.length = a.length ∧ b.value = a.value + n := by
  induction n generalizing a
  case zero => simp [walk?, eq_iff_value_eq]
  case succ n hi =>
    rcases a.next_cases with ⟨hw, hv, _⟩ | ⟨hw, _, he⟩
    · rw [walk?, hw, if_neg Bool.false_ne_true, hi, length_next, hv, Nat.add_assoc, Nat.add_comm 1]
    -- The first step leads out of the space, and no address lies where all of them would lead.
    · have hb : ¬ (b.length = a.length ∧ b.value = a.value + (n + 1)) := by
        rintro ⟨hl, hv⟩
        have := hl ▸ b.value_lt
        omega
      simp [walk?, hw, hb]

theorem walk?_previous_eq_some_iff :
    walk? previous n a = some b ↔ b.length = a.length ∧ b.value + n = a.value := by
  induction n generalizing a
  case zero => simp [walk?, eq_iff_value_eq]
  case succ n hi =>
    rcases a.previous_cases with ⟨hw, hv⟩ | ⟨hw, h₀, _⟩
    · rw [walk?, hw, if_neg Bool.false_ne_true, hi, length_previous, ← hv, ← Nat.add_assoc,
        Nat.add_right_cancel_iff]
    · have hb : ¬ b.value + (n + 1) = a.value := by omega
      simp [walk?, hw, hb]

theorem stepwise?_eq_some_iff :
    a.stepwise? places = some b ↔ b.length = a.length ∧ (b.value : Int) = a.value + places := by
  cases places
  case ofNat n =>
    rw [stepwise?, walk?_next_eq_some_iff, Int.ofNat_eq_natCast]
    omega
  case negSucc n =>
    rw [stepwise?, walk?_previous_eq_some_iff, Int.negSucc_eq]
    omega

-- The space of no octets holds one address, and each step from it wraps around.
example : stepwise? ⟨[]⟩ 0 = some ⟨[]⟩ ∧ stepwise? ⟨[]⟩ 1 = none ∧ stepwise? ⟨[2, 1]⟩ (-2) = some ⟨[1, 255]⟩ := by
  decide

/-! ### At once -/

-- As many places as the space holds addresses lead out of it, wherever the jump starts.
theorem shift?_eq_none_of_space_le (h : Octets.space a.length ≤ n) : a.shift? n = none := by
  refine Option.eq_none_iff_forall_ne_some.mpr fun b hb => ?_
  have ⟨hl, hv⟩ := shift?_eq_some_iff.mp hb
  have := hl ▸ b.value_lt
  omega

theorem shift?_eq_stepwise? (a : Address) (places : Int) : a.shift? places = a.stepwise? places :=
  Option.ext fun _ => shift?_eq_some_iff.trans stepwise?_eq_some_iff.symm

theorem jump_of_some (h : a.shift? places = some b) : a.jump places = .ok b := by
  simp [jump, shift, h]

theorem jump_of_none (h : a.shift? places = none) :
    a.jump places = .error
      (if places.natAbs < 10 ^ Text.maxDigits then .fault ⟨.octets a, .outOfSpace places⟩ else .overlong) := by
  simp only [jump, shift, h, Outcome.mapError_error, Text.isOverlong_iff, ← Nat.not_lt, ite_not]

theorem jump_eq_ok_iff : a.jump places = .ok b ↔ a.shift? places = some b := by
  constructor
  · intro h
    cases hs : a.shift? places
    case none   => simp [jump_of_none hs] at h
    case some c => simpa [jump_of_some hs] using h
  · exact jump_of_some

-- A jump succeeds just when none of as many steps wraps around, and leads to the same address. Otherwise it is
-- refused, with the fault that names the places of the jump, as long as their number can be written out. A
-- jump keeps the length; it goes as far as the stretch between both ends counts, and the jump back leads back.
-- Any address of the length is reached by a jump, which is one place shorter than the count up to it.
theorem jump_is_stepwise (a : Address) (places : Int) :
    (∀ b, a.jump places = .ok b ↔ a.stepwise? places = some b)
    ∧ (a.stepwise? places = none → a.jump places = .error
        (if places.natAbs < 10 ^ Text.maxDigits then .fault ⟨.octets a, .outOfSpace places⟩ else .overlong))
    ∧ (∀ b, a.jump places = .ok b →
        b.length = a.length ∧ count a b = places + 1 ∧ b.jump (-places) = .ok a)
    ∧ (∀ b : Address, b.length = a.length → a.jump (count a b - 1) = .ok b) := by
  rw [← shift?_eq_stepwise?]
  refine ⟨fun b => jump_eq_ok_iff, jump_of_none, ?_, ?_⟩
  · intro b h
    have ⟨hl, hv⟩ := shift?_eq_some_iff.mp (jump_eq_ok_iff.mp h)
    have hc : count a b = places + 1 := by
      rw [count, hv]
      omega
    have hb : b.shift? (-places) = some a := shift?_eq_some_iff.mpr ⟨hl.symm, by omega⟩
    exact ⟨hl, hc, jump_of_some hb⟩
  · intro b hl
    have hv : (b.value : Int) = a.value + (count a b - 1) := by
      rw [count]
      omega
    exact jump_of_some <| shift?_eq_some_iff.mpr ⟨hl, hv⟩

-- Places of one digit more than can be written out lead out of the space of one octet, and there is no fault
-- to name them.
theorem jump_overlong_without_fault :
    stepwise? ⟨[0]⟩ (10 ^ Text.maxDigits : Nat) = none
    ∧ jump ⟨[0]⟩ (10 ^ Text.maxDigits : Nat) = .error .overlong
    ∧ ¬ ∃ f, jump ⟨[0]⟩ (10 ^ Text.maxDigits : Nat) = .error (.fault f) := by
  have hs : Octets.space 1 ≤ 10 ^ Text.maxDigits :=
    Nat.le_trans (by decide) (Nat.pow_le_pow_right (by decide) (by decide : 3 ≤ Text.maxDigits))
  have hn : shift? ⟨[0]⟩ (10 ^ Text.maxDigits : Nat) = none := shift?_eq_none_of_space_le hs
  have hj : jump ⟨[0]⟩ (10 ^ Text.maxDigits : Nat) = .error .overlong := by
    rw [jump_of_none hn, Int.natAbs_natCast, if_neg (Nat.lt_irrefl _)]
  refine ⟨(shift?_eq_stepwise? ..).symm.trans hn, hj, ?_⟩
  rintro ⟨f, hf⟩
  cases hj.symm.trans hf

end Address

end AddressSpace
