import AddressSpace.Text.Utf8
import Mathlib.Tactic.IntervalCases

/-!
Characters written as UTF-8 are read back. A first octet opens its character with the bounds that rule
out longer spellings and surrogates, and each further octet adds six bits.
-/

namespace AddressSpace.Text.Utf8

-- The octets of characters in UTF-8.
def encode (cs : List Char) : List UInt8 :=
  cs.flatMap String.utf8EncodeChar

variable {n place : Nat} {c : Char} {cs : List Char} {x : UInt8} {xs : List UInt8} {p q : Pending}

/-! ### One octet -/

theorem opened_ascii (h : n ≤ 0x7f) : opened (.ofNat n) = some (.inl (.ofNat n)) := by
  have hn : n % 256 = n := Nat.mod_eq_of_lt (by omega)
  simp [opened, hn, h]

theorem opened_two (h : 2 ≤ n) (h' : n < 0x20) :
    opened (.ofNat (n + 0xc0)) = some (.inr ⟨.ofNat (n + 0xc0), 1, 1, 0x80, 0xbf, n⟩) := by
  interval_cases n <;> rfl

theorem opened_three (h : n < 0x10) : opened (.ofNat (n + 0xe0)) = some (.inr ⟨.ofNat (n + 0xe0), 1, 2,
    if n = 0 then 0xa0 else 0x80, if n = 0xd then 0x9f else 0xbf, n⟩) := by
  interval_cases n <;> rfl

theorem opened_four (h : n ≤ 4) : opened (.ofNat (n + 0xf0)) = some (.inr ⟨.ofNat (n + 0xf0), 1, 3,
    if n = 0 then 0x90 else 0x80, if n = 4 then 0x8f else 0xbf, n⟩) := by
  interval_cases n <;> rfl

-- A further octet within the bounds.
theorem next_ofNat (h : n < 0x40) (hl : p.low ≤ n + 0x80) (hh : n + 0x80 ≤ p.high) :
    p.next (.ofNat (n + 0x80)) =
      if p.owed ≤ 1 then some (.inl (.ofNat (p.bits * 64 + n)))
      else some (.inr ⟨p.octet, p.width + 1, p.owed - 1, 0x80, 0xbf, p.bits * 64 + n⟩) := by
  have hn : (n + 128) % 256 = n + 128 := Nat.mod_eq_of_lt (by omega)
  simp [Pending.next, hn, hl, hh]

/-! ### Characters -/

-- What is read behind a character, with the character in front.
def ahead (c : Char) (r : List Char × Except Fault (Option Pending)) :
    List Char × Except Fault (Option Pending) :=
  (c :: r.1, r.2)

theorem scan_single (h : opened x = some (.inl c)) :
    scan place none (x :: xs) = ahead c (scan (place + 1) none xs) := by
  simp [scan, h, ahead]

theorem scan_first (h : opened x = some (.inr p)) :
    scan place none (x :: xs) = scan (place + 1) (some p) xs := by
  simp [scan, h]

theorem scan_further (h : n < 0x40) (hl : p.low ≤ n + 0x80) (hh : n + 0x80 ≤ p.high) (ho : 1 < p.owed) :
    scan place (some p) (.ofNat (n + 0x80) :: xs) =
      scan (place + 1) (some ⟨p.octet, p.width + 1, p.owed - 1, 0x80, 0xbf, p.bits * 64 + n⟩) xs := by
  simp only [scan, next_ofNat h hl hh, Nat.not_le.mpr ho, if_false]

theorem scan_last (h : n < 0x40) (hl : p.low ≤ n + 0x80) (hh : n + 0x80 ≤ p.high) (ho : p.owed ≤ 1) :
    scan place (some p) (.ofNat (n + 0x80) :: xs) =
      ahead (.ofNat (p.bits * 64 + n)) (scan (place + 1) none xs) := by
  simp only [scan, next_ofNat h hl hh, ho, if_true, ahead]

variable {m k l : Nat}

theorem scan_two (h : 2 ≤ n) (hn : n < 0x20) (hm : m < 0x40) :
    scan place none (.ofNat (n + 0xc0) :: .ofNat (m + 0x80) :: xs) =
      ahead (.ofNat (n * 64 + m)) (scan (place + 2) none xs) := by
  rw [scan_first (opened_two h hn), scan_last hm]
  all_goals simp
  omega

-- Nothing below `0x800`, and no surrogate.
theorem scan_three (hn : n < 0x10) (hm : m < 0x40) (hk : k < 0x40) (h : n = 0 → 0x20 ≤ m)
    (hs : n = 0xd → m < 0x20) :
    scan place none (.ofNat (n + 0xe0) :: .ofNat (m + 0x80) :: .ofNat (k + 0x80) :: xs) =
      ahead (.ofNat ((n * 64 + m) * 64 + k)) (scan (place + 3) none xs) := by
  rw [scan_first (opened_three hn), scan_further hm, scan_last hk]
  all_goals simp
  all_goals grind

-- Nothing below `0x10000`, and nothing above `0x10ffff`.
theorem scan_four (hn : n ≤ 4) (hm : m < 0x40) (hk : k < 0x40) (hl : l < 0x40) (h : n = 0 → 0x10 ≤ m)
    (hs : n = 4 → m < 0x10) :
    scan place none (.ofNat (n + 0xf0) :: .ofNat (m + 0x80) :: .ofNat (k + 0x80) :: .ofNat (l + 0x80) :: xs) =
      ahead (.ofNat (((n * 64 + m) * 64 + k) * 64 + l)) (scan (place + 4) none xs) := by
  rw [scan_first (opened_four hn), scan_further hm, scan_further hk, scan_last hl]
  all_goals simp
  all_goals grind

-- Numbers of characters leave out the surrogates.
theorem valid_char (c : Char) : c.toNat < 0xd800 ∨ 0xdfff < c.toNat ∧ c.toNat < 0x110000 :=
  c.valid

-- The octets of a character are read as that character.
theorem scan_char (c : Char) (place : Nat) (xs : List UInt8) : ∃ place',
    scan place none (String.utf8EncodeChar c ++ xs) = ahead c (scan place' none xs) := by
  have hc := valid_char c
  have hof : Char.ofNat c.toNat = c := c.ofNat_toNat
  simp only [String.utf8EncodeChar, Char.toNat_val]
  generalize c.toNat = v at hc hof
  subst hof
  repeat' split
  case isTrue h => exact ⟨_, scan_single (opened_ascii h)⟩
  case isFalse.isTrue h =>
    have hv : v / 64 % 32 * 64 + v % 64 = v := by omega
    refine ⟨_, (scan_two ?_ ?_ ?_).trans (congrArg (fun n => ahead (.ofNat n) _) hv)⟩
    all_goals omega
  case isFalse.isFalse.isTrue h =>
    have hv : (v / 4096 % 16 * 64 + v / 64 % 64) * 64 + v % 64 = v := by omega
    refine ⟨_, (scan_three ?_ ?_ ?_ ?_ ?_).trans (congrArg (fun n => ahead (.ofNat n) _) hv)⟩
    all_goals omega
  case isFalse.isFalse.isFalse h =>
    have hv : ((v / 262144 % 8 * 64 + v / 4096 % 64) * 64 + v / 64 % 64) * 64 + v % 64 = v := by omega
    refine ⟨_, (scan_four ?_ ?_ ?_ ?_ ?_ ?_).trans (congrArg (fun n => ahead (.ofNat n) _) hv)⟩
    all_goals omega

theorem scan_encode : scan place none (encode cs) = (cs, .ok none) := by
  induction cs generalizing place
  case nil => rfl
  case cons c cs hi =>
    have ⟨place', h⟩ := scan_char c place (encode cs)
    rw [encode, List.flatMap_cons, ← encode, h, hi, ahead]

theorem decode_encode (cs : List Char) : decode (encode cs) = .ok cs := by
  simp [decode, scan_encode]

end AddressSpace.Text.Utf8
