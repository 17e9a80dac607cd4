import AddressSpace.Address.Source

/-!
Addresses of one length as numbers: an address is its length and its value, its order is the order of
the values, and the steps, the bounds of stretches and the jumps are arithmetic on values.
-/

namespace AddressSpace

namespace Octets

theorem value_inj {xs ys : List UInt8} (hl : xs.length = ys.length) (hv : value xs = value ys) :
    xs = ys := by
  induction xs generalizing ys <;> cases ys <;> simp at hl
  case nil.nil => rfl
  case cons.cons x xs ih y ys =>
    have hx := value_lt xs
    have hy := value_lt ys
    simp only [value, hl] at hx hv
    -- The larger first octet outweighs whatever follows the smaller one.
    have hxy : x.toNat = y.toNat := by
      rcases Nat.lt_trichotomy x.toNat y.toNat with h | h | h
      · have := Nat.mul_le_mul_right (space ys.length) (show x.toNat + 1 ≤ y.toNat from h)
        rw [Nat.add_mul] at this
        omega
      · exact h
      · have := Nat.mul_le_mul_right (space ys.length) (show y.toNat + 1 ≤ x.toNat from h)
        rw [Nat.add_mul] at this
        omega
    rw [hxy] at hv
    rw [UInt8.toNat.inj hxy, ih hl (by omega)]

@[simp]
theorem ofValue_value (xs : List UInt8) : ofValue xs.length (value xs) = xs := by
  apply value_inj <;> simp [Nat.mod_eq_of_lt (value_lt xs)]

theorem order_cons_ne_gt_iff {x y : UInt8} {xs ys : List UInt8} :
    order (x :: xs) (y :: ys) ≠ .gt ↔
      x.toNat < y.toNat ∨ (x.toNat = y.toNat ∧ order xs ys ≠ .gt) := by
  rcases Nat.lt_trichotomy x.toNat y.toNat with h | h | h
  · simp [order, h]
  · simp [order, h]
  · simp [order, h, Nat.lt_asymm h, Nat.ne_of_gt h]

theorem order_trans {xs ys zs : List UInt8} (h₁ : order xs ys ≠ .gt) (h₂ : order ys zs ≠ .gt) :
    order xs zs ≠ .gt := by
  induction xs generalizing ys zs <;> cases ys <;> cases zs
  case cons.cons.cons x xs hi y ys z zs =>
    rw [order_cons_ne_gt_iff] at h₁ h₂ ⊢
    cases h₁ <;> cases h₂
    case inr.inr h₁ h₂ => exact .inr ⟨h₁.left.trans h₂.left, hi h₁.right h₂.right⟩
    all_goals exact .inl (by omega)
  all_goals simp_all [order]

theorem value_concat (xs : List UInt8) (x : UInt8) :
    value (xs ++ [x]) = value xs * 256 + x.toNat := by
  induction xs <;> simp [value, space]
  case cons y ys ih =>
    rw [ih, Nat.mul_comm 256, ← Nat.mul_assoc, Nat.add_mul, Nat.add_assoc]

end Octets

namespace Address

variable {a b : Address} {places : Int} {n : Nat}

theorem value_lt (a : Address) : a.value < Octets.space a.length :=
  Octets.value_lt a.octets

theorem eq_of_value_eq (hl : a.length = b.length) (hv : a.value = b.value) : a = b :=
  Address.ext <| Octets.value_inj hl hv

theorem eq_iff_value_eq : a = b ↔ b.length = a.length ∧ b.value = a.value := by
  constructor
  · rintro rfl
    exact ⟨rfl, rfl⟩
  · rintro ⟨hl, hv⟩
    exact (eq_of_value_eq hl hv).symm

-- The address of a value, which wraps around at the end of the space.
def ofValue (length n : Nat) : Address :=
  ⟨Octets.ofValue length n⟩

@[simp]
theorem length_ofValue (length n : Nat) : (ofValue length n).length = length :=
  Octets.length_ofValue length n

theorem value_ofValue {length n : Nat} (h : n < Octets.space length) :
    (ofValue length n).value = n :=
  (Octets.value_ofValue length n).trans <| Nat.mod_eq_of_lt h

theorem ofValue_value (a : Address) : ofValue a.length a.value = a :=
  Address.ext <| Octets.ofValue_value a.octets

/-! ### Order -/

theorem lt_iff_value_lt (h : a.length = b.length) : a < b ↔ a.value < b.value := by
  show Octets.order a.octets b.octets = .lt ↔ _
  rw [Octets.order_eq_compare h]
  simp only [value]
  split <;> try split
  all_goals simp_all

theorem le_iff_value_le (h : a.length = b.length) : a ≤ b ↔ a.value ≤ b.value := by
  show Octets.order a.octets b.octets ≠ .gt ↔ _
  rw [Octets.order_eq_compare h]
  simp only [value]
  split <;> try split
  all_goals simp_all; try omega

-- The order goes through addresses of any lengths.
theorem le_trans {c : Address} (h₁ : a ≤ b) (h₂ : b ≤ c) : a ≤ c :=
  Octets.order_trans h₁ h₂

theorem not_lt_iff_le (h : a.length = b.length) : ¬ b < a ↔ a ≤ b := by
  rw [lt_iff_value_lt h.symm, le_iff_value_le h, Nat.not_lt]

theorem lower_eq_or (a b : Address) : lower a b = a ∨ lower a b = b := by
  unfold lower
  split <;> simp

theorem upper_eq_or (a b : Address) : upper a b = a ∨ upper a b = b := by
  unfold upper
  split <;> simp

theorem length_lower (h : a.length = b.length) : (lower a b).length = a.length := by
  cases lower_eq_or a b
  all_goals simp [*]

theorem length_upper (h : a.length = b.length) : (upper a b).length = a.length := by
  cases upper_eq_or a b
  all_goals simp [*]

theorem value_lower (h : a.length = b.length) : (lower a b).value = min a.value b.value := by
  simp only [lower, lt_iff_value_lt h.symm]
  split <;> omega

theorem value_upper (h : a.length = b.length) : (upper a b).value = max a.value b.value := by
  simp only [upper, lt_iff_value_lt h]
  split <;> omega

/-! ### Steps -/

@[simp]
theorem length_next (a : Address) : a.next.1.length = a.length :=
  Octets.length_succ a.octets

@[simp]
theorem length_previous (a : Address) : a.previous.1.length = a.length :=
  Octets.length_pred a.octets

theorem value_next (a : Address) :
    a.next.1.value + (if a.next.2 then Octets.space a.length else 0) = a.value + 1 :=
  Octets.value_succ a.octets

theorem value_previous (a : Address) :
    a.previous.1.value + 1 = a.value + (if a.previous.2 then Octets.space a.length else 0) :=
  Octets.value_pred a.octets

-- Below another address, a step up does not wrap around.
theorem value_next_of_lt (hl : a.length = b.length) (h : a.value < b.value) :
    a.next.1.value = a.value + 1 := by
  have hb := hl ▸ b.value_lt
  have hn := a.value_next
  split at hn <;> omega

-- Above another address, a step down does not wrap around.
theorem value_previous_of_lt (h : b.value < a.value) :
    a.previous.1.value + 1 = a.value := by
  have hp := a.previous.1.value_lt
  have hv := a.value_previous
  rw [length_previous] at hp
  split at hv <;> omega

theorem meets_iff : a.meets b ↔ a.length = b.length ∧ b.value = a.value + 1 := by
  have hn := a.value_next
  simp only [meets, Bool.and_eq_true, Bool.not_eq_true', decide_eq_true_eq]
  constructor
  · rintro ⟨hw, rfl⟩
    simp [hw] at hn
    exact ⟨(length_next a).symm, hn⟩
  · rintro ⟨h, hv⟩
    have hb := h ▸ b.value_lt
    -- A step that wraps around would leave no room for the value of the second address.
    have hw : a.next.2 = false := by
      cases hw : a.next.2
      case false => rfl
      case true => simp [hw] at hn; omega
    simp [hw] at hn
    exact ⟨hw, eq_of_value_eq ((length_next a).trans h) (hn.trans hv.symm)⟩

theorem isShortOf_iff (h : a.length = b.length) : a.isShortOf b ↔ a.value + 1 < b.value := by
  have hm : a.meets b = decide (b.value = a.value + 1) := by
    rw [Bool.eq_iff_iff, meets_iff]
    simp [h]
  simp only [isShortOf, hm, lt_iff_value_lt h, Bool.and_eq_true, decide_eq_true_eq,
    Bool.not_eq_true', decide_eq_false_iff_not]
  omega

/-! ### Jumps and blocks -/

theorem shift?_eq_some_iff :
    a.shift? places = some b ↔ b.length = a.length ∧ (b.value : Int) = a.value + places := by
  by_cases hs : 0 ≤ (a.value : Int) + places ∧ (a.value : Int) + places < Octets.space a.length
  case pos =>
    obtain ⟨n, hn⟩ := Int.eq_ofNat_of_zero_le hs.left
    have hlt : n < Octets.space a.length := by omega
    have hb : ofValue a.length n = b ↔ b.length = a.length ∧ b.value = n := by
      rw [eq_iff_value_eq, length_ofValue, value_ofValue hlt]
    rw [hn, Int.natCast_inj, ← hb]
    simp [shift?, hn, hlt, ofValue]
  case neg =>
    have hb : ¬ (b.length = a.length ∧ (b.value : Int) = a.value + places) := by
      rintro ⟨hl, hv⟩
      have := hl ▸ b.value_lt
      omega
    simp [shift?, hs, hb]

theorem shift_eq_ok (hn : (a.value : Int) + places = n)
    (h : n < Octets.space a.length) : a.shift places = .ok (ofValue a.length n) := by
  have hs : a.shift? places = some (ofValue a.length n) :=
    shift?_eq_some_iff.mpr ⟨length_ofValue .., by rw [value_ofValue h, hn]⟩
  simp [shift, hs]

theorem octets_ne_nil (h : 0 < a.length) : a.octets ≠ [] :=
  List.ne_nil_of_length_pos h

theorem value_eq_concat (h : 0 < a.length) : a.value
    = Octets.value a.octets.dropLast * 256 + (a.octets.getLast (octets_ne_nil h)).toNat := by
  rw [← Octets.value_concat, List.dropLast_concat_getLast, value]

-- The last octet is what the value leaves over when it is divided by 256.
theorem getLast?_eq_some_iff (h : 0 < a.length) {x : UInt8} :
    a.octets.getLast? = some x ↔ a.value % 256 = x.toNat := by
  have hx := (a.octets.getLast (octets_ne_nil h)).toNat_lt
  rw [List.getLast?_eq_some_getLast (octets_ne_nil h), value_eq_concat h]
  simp only [Option.some.injEq, ← UInt8.toNat_inj]
  omega

theorem value_mod_of_getLast? {x : UInt8} (h : a.octets.getLast? = some x) : a.value % 256 = x.toNat :=
  (getLast?_eq_some_iff (List.length_pos_iff.mpr fun hn => by simp [hn] at h)).mp h

theorem opensBlock_iff (h : 0 < a.length) : a.opensBlock ↔ a.value % 256 = 0 := by
  rw [opensBlock, beq_iff_eq, getLast?_eq_some_iff h, UInt8.toNat_zero]

@[simp]
theorem length_blockEnd (h : 0 < a.length) : a.blockEnd.length = a.length := by
  simp [blockEnd, length] at h ⊢
  omega

theorem value_blockEnd (h : 0 < a.length) : a.blockEnd.value = a.value / 256 * 256 + 255 := by
  have hx := (a.octets.getLast (octets_ne_nil h)).toNat_lt
  have hv := value_eq_concat h
  rw [blockEnd, value, Octets.value_concat]
  simp only [UInt8.reduceToNat]
  omega

end Address

end AddressSpace
