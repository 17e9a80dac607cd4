import AddressSpace.Text.Digits
import Mathlib.Algebra.Order.Ring.Nat
import Mathlib.Data.List.Induction

/-!
The digits that a number is written with are read back as that number. None of them is a zero in front
of others, and there are no more of them than the number needs. Other digits without zeros in front spell
another number, and zeros that pad a number do not change it.
-/

namespace AddressSpace.Text

variable {b d m n w w' : Nat} {c : Char} {ds : List Nat} {read? : Char → Option Nat}

-- The digits of a number in a base, without zeros in front.
structure Spells (b n : Nat) (ds : List Nat) : Prop where
  value   : ofDigits b ds = n
  length  : ds.length = (Nat.toDigits b n).length
  leading : ds.head? = some 0 → ds = [0]

theorem Spells.ne_nil (h : Spells b n ds) : ds ≠ [] := by
  have := Nat.length_toDigits_pos (b := b) (n := n)
  exact List.ne_nil_of_length_pos (by rw [h.length]; exact this)

theorem ofDigits_concat (b d : Nat) (ds : List Nat) : ofDigits b (ds ++ [d]) = ofDigits b ds * b + d := by
  simp [ofDigits]

theorem isOverlong_iff {k : Int} : isOverlong k ↔ 10 ^ maxDigits ≤ k.natAbs := by
  have hl : (Nat.toDigits 10 k.natAbs).length ≤ maxDigits ↔ k.natAbs < 10 ^ maxDigits :=
    Nat.length_toDigits_le_iff (by decide) (by decide)
  rw [isOverlong, decide_eq_true_iff, ← Nat.not_le, hl, Nat.not_lt]

-- Any reader of digits that knows those of a base reads what is written in that base.
theorem spells_toDigits (hb : 1 < b) (hd : ∀ d < b, read? d.digitChar = some d) (n : Nat) :
    ∃ ds, (Nat.toDigits b n).mapM read? = some ds ∧ Spells b n ds := by
  induction n using Nat.strongRecOn
  case ind n hi =>
    by_cases hn : n < b
    case pos =>
      have ht := Nat.toDigits_of_lt_base hn
      refine ⟨[n], by simp [ht, hd n hn], ?_, by simp [ht], by simp⟩
      simp [ofDigits]
    case neg =>
      have hn := Nat.not_lt.mp hn
      have ht := Nat.toDigits_of_base_le hb hn
      obtain ⟨ds, hm, hs⟩ := hi (n / b) (Nat.div_lt_self (by omega) hb)
      refine ⟨ds ++ [n % b], ?_, ?_, by simp [ht, hs.length], ?_⟩
      · simp [ht, hm, hd (n % b) (Nat.mod_lt _ (by omega))]
      · rw [ofDigits_concat, hs.value, Nat.div_add_mod']
      · intro hz
        obtain ⟨d, ds, rfl⟩ := List.exists_cons_of_ne_nil hs.ne_nil
        -- A zero in front would be all that is left of the number, which is no less than the base.
        have hv := hs.value
        rw [hs.leading hz] at hv
        have hp := Nat.div_pos hn (by omega)
        simp [ofDigits, ← hv] at hp

theorem digit?_digitChar : ∀ d < 10, digit? d.digitChar = some d := by
  decide

theorem hexDigit?_digitChar : ∀ d < 16, hexDigit? d.digitChar = some d := by
  decide

theorem exists_digit_of_mem (hb : 1 < b) (h : c ∈ Nat.toDigits b n) : ∃ d < b, c = d.digitChar := by
  induction n using Nat.strongRecOn
  case ind n hi =>
    rw [Nat.toDigits_eq_if hb] at h
    split at h
    case isTrue hn => exact ⟨n, hn, List.mem_singleton.mp h⟩
    case isFalse hn =>
      rcases List.mem_append.mp h with h | h
      · exact hi (n / b) (Nat.div_lt_self (by omega) hb) h
      · exact ⟨n % b, Nat.mod_lt _ (by omega), List.mem_singleton.mp h⟩

/-! ### Numerals without zeros in front -/

theorem le_ofDigits_cons (hb : 0 < b) (d : Nat) (ds : List Nat) : d ≤ ofDigits b (d :: ds) := by
  induction ds using List.reverseRecOn
  case nil => simp [ofDigits]
  case append_singleton ds e hi =>
    rw [← List.cons_append, ofDigits_concat]
    exact Nat.le_trans (Nat.le_trans hi (Nat.le_mul_of_pos_right _ hb)) (Nat.le_add_right _ _)

-- A number has but one numeral without zeros in front. The induction takes off the last digit.
theorem toDigits_ofDigits (hb : 1 < b) (hd : ∀ d ∈ ds, d < b) (hn : ds ≠ [])
    (hz : ds.head? = some 0 → ds = [0]) : Nat.toDigits b (ofDigits b ds) = ds.map Nat.digitChar := by
  induction ds using List.reverseRecOn
  case nil => exact absurd rfl hn
  case append_singleton ds e hi =>
    have he : e < b := hd e (by simp)
    cases ds
    case nil => simp [ofDigits, Nat.toDigits_of_lt_base he]
    case cons d ds =>
      -- A numeral of several digits starts with another digit than zero.
      have h₀ : d ≠ 0 := fun h => by simp [h] at hz
      have hp : 0 < ofDigits b (d :: ds) :=
        Nat.lt_of_lt_of_le (Nat.pos_of_ne_zero h₀) (le_ofDigits_cons (by omega) d ds)
      have hi := hi (fun d h => hd d (List.mem_append_left _ h)) (by simp) (by simp [h₀])
      rw [ofDigits_concat, Nat.mul_comm, ← Nat.toDigits_append_toDigits hb hp he, hi,
        Nat.toDigits_of_lt_base he, List.map_append]
      rfl

theorem digitChar_of_digit? (h : digit? c = some d) : d < 10 ∧ c = d.digitChar := by
  simp only [digit?] at h
  split at h <;> cases h
  case isTrue hc =>
    have h₀ : '0'.toNat = 48 := rfl
    have h₉ : '9'.toNat = 57 := rfl
    refine ⟨by omega, Char.toNat_inj.mp ?_⟩
    rw [Nat.toNat_digitChar_of_lt_ten (by omega)]
    omega

/-! ### Padded numbers -/

theorem ofDigits_zeros_append (b k : Nat) (ds : List Nat) :
    ofDigits b (List.replicate k 0 ++ ds) = ofDigits b ds := by
  induction k
  case zero => rfl
  case succ k hi =>
    rw [← hi, List.replicate_succ, List.cons_append, ofDigits, ofDigits, List.foldl_cons, Nat.zero_mul]

theorem exists_digits_padded (hb : 1 < b) (hd : ∀ d < b, read? d.digitChar = some d) (w n : Nat) :
    ∃ ds, (padded b w n).mapM read? = some ds ∧ ofDigits b ds = n := by
  obtain ⟨ds, hm, hs⟩ := spells_toDigits hb hd n
  have hz (k : Nat) : (List.replicate k '0').mapM read? = some (List.replicate k 0) := by
    induction k
    case zero => rfl
    case succ k hi =>
      have h₀ : read? '0' = some 0 := hd 0 (by omega)
      simp [List.replicate_succ, h₀, hi]
  let k := w - (Nat.toDigits b n).length
  exact ⟨List.replicate k 0 ++ ds, by simp [padded, hz, hm, k], (ofDigits_zeros_append b k ds).trans hs.value⟩

-- Padded numbers are told apart, also where they are padded to different widths.
theorem padded_inj (h : padded 16 w m = padded 16 w' n) : m = n := by
  obtain ⟨ds, hm, rfl⟩ := exists_digits_padded (by decide) hexDigit?_digitChar w m
  obtain ⟨es, hn, rfl⟩ := exists_digits_padded (by decide) hexDigit?_digitChar w' n
  rw [h, hn] at hm
  rw [Option.some.inj hm]

theorem length_padded_octet (x : UInt8) : (padded 16 2 x.toNat).length = 2 := by
  have hx := x.toNat_lt
  have hl : (Nat.toDigits 16 x.toNat).length ≤ 2 :=
    (Nat.length_toDigits_le_iff (by decide) (by decide)).mpr (by omega)
  simp only [padded, List.length_append, List.length_replicate]
  omega

end AddressSpace.Text
