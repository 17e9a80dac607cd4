/-!
Numbers of a fixed count of octets, most significant first: the value in base 256, the steps up and
down with carry and borrow, and the order from left to right. Main statements: a step up or down is
addition or subtraction of one modulo the size of the space, and octets of one length are ordered as
their values.
-/

namespace AddressSpace.Octets

-- How many numbers a count of octets can spell.
def space : Nat → Nat
  | 0 => 1
  | length + 1 => 256 * space length

def value : List UInt8 → Nat
  | [] => 0
  | x :: xs => x.toNat * space xs.length + value xs

-- The octets of a number, which wraps around at the end of the space.
def ofValue : Nat → Nat → List UInt8
  | 0, _ => []
  | length + 1, n => UInt8.ofNat (n / space length) :: ofValue length n

-- One step up, and whether it wrapped around to zeros.
def succ : List UInt8 → List UInt8 × Bool
  | [] => ([], true)
  | x :: xs =>
    match succ xs with
    | (ys, false) => (x :: ys, false)
    | (ys, true) => if x = 255 then (0 :: ys, true) else ((x + 1) :: ys, false)

-- One step down, and whether it wrapped around to the largest octets.
def pred : List UInt8 → List UInt8 × Bool
  | [] => ([], true)
  | x :: xs =>
    match pred xs with
    | (ys, false) => (x :: ys, false)
    | (ys, true) => if x = 0 then (255 :: ys, true) else ((x - 1) :: ys, false)

-- The order of the first octets that differ; a proper beginning comes first.
def order : List UInt8 → List UInt8 → Ordering
  | [], [] => .eq
  | [], _ :: _ => .lt
  | _ :: _, [] => .gt
  | x :: xs, y :: ys =>
    if x.toNat < y.toNat then .lt else if y.toNat < x.toNat then .gt else order xs ys

/-! ### Values -/

theorem value_lt (xs : List UInt8) : value xs < space xs.length := by
  induction xs with
  | nil => simp [value, space]
  | cons x xs ih =>
    have hx := x.toNat_lt
    have : (x.toNat + 1) * space xs.length ≤ 256 * space xs.length :=
      Nat.mul_le_mul_right _ (by omega)
    simp only [value, List.length_cons, space]
    rw [Nat.add_mul] at this
    omega

@[simp]
theorem length_ofValue (length n : Nat) : (ofValue length n).length = length := by
  induction length with
  | zero => rfl
  | succ k ih => simp [ofValue, ih]

@[simp]
theorem value_ofValue (length n : Nat) : value (ofValue length n) = n % space length := by
  induction length with
  | zero => simp [ofValue, value, space, Nat.mod_one]
  | succ k ih =>
    simp only [ofValue, value, space, length_ofValue, ih, UInt8.toNat_ofNat', Nat.reducePow]
    rw [Nat.mul_comm 256, Nat.mod_mul, Nat.mul_comm (space k), Nat.add_comm]

/-! ### Steps -/

@[simp]
theorem length_succ (xs : List UInt8) : (succ xs).1.length = xs.length := by
  fun_induction succ xs <;> simp_all

@[simp]
theorem length_pred (xs : List UInt8) : (pred xs).1.length = xs.length := by
  fun_induction pred xs <;> simp_all

-- The carry out of a step up stands for one whole space.
theorem value_succ (xs : List UInt8) :
    value (succ xs).1 + (if (succ xs).2 then space xs.length else 0) = value xs + 1 := by
  induction xs with
  | nil => simp [succ, value, space]
  | cons x xs ih =>
    have hl := length_succ xs
    rcases hs : succ xs with ⟨ys, _ | _⟩
    -- No carry reaches the first octet.
    · simp only [hs] at hl ih
      simp only [succ, hs, value, hl, Bool.false_eq_true, if_false, Nat.add_zero] at ih ⊢
      omega
    · simp only [hs] at hl ih
      by_cases hx : x = 255
      -- The carry goes on, and stands for a space that is larger by one octet.
      · subst hx
        simp only [succ, hs, value, hl, if_true, List.length_cons, space] at ih ⊢
        simp only [UInt8.reduceToNat] at ih ⊢
        omega
      · have hx' : x.toNat + 1 < 256 := by
          have := x.toNat_lt
          have : x.toNat ≠ 255 := fun h => hx (UInt8.toNat.inj (by simpa using h))
          omega
        have hadd : (x + 1).toNat = x.toNat + 1 := by
          rw [UInt8.toNat_add]
          simp only [UInt8.toNat_one, Nat.reducePow]
          exact Nat.mod_eq_of_lt hx'
        simp only [succ, hs, value, hl, hx, if_false, if_true, hadd, Bool.false_eq_true,
          Nat.add_zero, Nat.add_mul, Nat.one_mul] at ih ⊢
        omega

-- The borrow out of a step down stands for one whole space.
theorem value_pred (xs : List UInt8) :
    value (pred xs).1 + 1 = value xs + (if (pred xs).2 then space xs.length else 0) := by
  induction xs with
  | nil => simp [pred, value, space]
  | cons x xs ih =>
    have hl := length_pred xs
    rcases hs : pred xs with ⟨ys, _ | _⟩
    -- No borrow reaches the first octet.
    · simp only [hs] at hl ih
      simp only [pred, hs, value, hl, Bool.false_eq_true, if_false, Nat.add_zero] at ih ⊢
      omega
    · simp only [hs] at hl ih
      by_cases hx : x = 0
      · subst hx
        simp only [pred, hs, value, hl, if_true, List.length_cons, space] at ih ⊢
        simp only [UInt8.reduceToNat] at ih ⊢
        omega
      · have hx' : 0 < x.toNat := by
          have : x.toNat ≠ 0 := fun h => hx (UInt8.toNat.inj (by simpa using h))
          omega
        have hsub : (x - 1).toNat + 1 = x.toNat := by
          rw [UInt8.toNat_sub_of_le x 1 (by simp [UInt8.le_iff_toNat_le]; omega)]
          simp only [UInt8.toNat_one]
          omega
        have hmul : x.toNat * space xs.length
            = (x - 1).toNat * space xs.length + space xs.length := by
          rw [← hsub, Nat.add_mul, Nat.one_mul]
        simp only [pred, hs, value, hl, hx, if_false, if_true, Bool.false_eq_true,
          Nat.add_zero] at ih ⊢
        omega

/-! ### Order -/

-- Octets of one length are ordered as their values.
theorem order_eq_compare {xs ys : List UInt8} (h : xs.length = ys.length) :
    order xs ys
      = if value xs < value ys then .lt else if value ys < value xs then .gt else .eq := by
  induction xs generalizing ys with
  | nil =>
    cases ys with
    | nil => simp [order]
    | cons y ys => simp at h
  | cons x xs ih =>
    cases ys with
    | nil => simp at h
    | cons y ys =>
      simp only [List.length_cons, Nat.add_right_cancel_iff] at h
      have hxs := value_lt xs
      have hys := value_lt ys
      simp only [h] at hxs
      simp only [order, value, h]
      rcases Nat.lt_trichotomy x.toNat y.toNat with hlt | heq | hgt
      · have := Nat.mul_le_mul_right (space ys.length) (show x.toNat + 1 ≤ y.toNat from hlt)
        rw [Nat.add_mul] at this
        rw [if_pos hlt, if_pos (by omega)]
      · rw [heq, ih h]
        simp
      · have := Nat.mul_le_mul_right (space ys.length) (show y.toNat + 1 ≤ x.toNat from hgt)
        rw [Nat.add_mul] at this
        rw [if_neg (by omega), if_pos hgt, if_neg (by omega), if_pos (by omega)]

end AddressSpace.Octets
