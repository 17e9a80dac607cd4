import AddressSpace.Json.Reader
import AddressSpace.Proofs.Outcome
import AddressSpace.Proofs.Text.Whole

/-!
JSON text that is read strictly gives values whose texts are whole, keys included: an escape that is half
of a surrogate pair is refused where it stands. Each string is whole when it has been put together, and
the machine that builds values adds no text of its own.
-/

namespace AddressSpace.Json

-- No text inside the value holds half of a surrogate pair.
inductive Whole : Json → Prop
  | null : Whole .null
  | bool {b} : Whole (.bool b)
  | number {n} : Whole (.number n)
  | str {t} : t.Whole → Whole (.str t)
  | arr {items} : (∀ v ∈ items, Whole v) → Whole (.arr items)
  | obj {members} : (∀ m ∈ members, m.1.Whole) → (∀ m ∈ members, Whole m.2) → Whole (.obj members)

variable {v : Json} {t key : Text} {members : List (Text × Json)} {c : CodePoint} {n : Nat}
variable {cs : List Char} {pieces : List Piece} {d : Dialect}

theorem whole_find? (h : find? key members = some v) (hm : ∀ m ∈ members, m.2.Whole) : v.Whole := by
  induction members
  case nil => cases h
  case cons m rest hi =>
    have ⟨h₁, h₂⟩ := List.forall_mem_cons.mp hm
    simp only [find?] at h
    split at h
    case isTrue  => exact Option.some.inj h ▸ h₁
    case isFalse => exact hi h h₂

-- A member that is put under a key keeps the others, or takes the place of one with that key.
theorem mem_put {m : Text × Json} (h : m ∈ put key v members) : m ∈ members ∨ m = (key, v) := by
  induction members
  case nil => simpa [put] using h
  case cons k rest hi =>
    simp only [put] at h
    split at h
    case isTrue hk =>
      rcases List.mem_cons.mp h with rfl | h
      · exact .inr (by rw [hk])
      · exact .inl (.tail _ h)
    case isFalse =>
      rcases List.mem_cons.mp h with rfl | h
      · exact .inl (.head _)
      · exact (hi h).imp_left (.tail _)

/-! ### Strings -/

theorem not_isHalf_of_single (h : single false n = some c) : ¬ c.isHalf := by
  simp only [single, CodePoint.ofNat?, isHighSurrogate, isLowSurrogate] at h
  grind [CodePoint.isHalf]

theorem whole_assemble (h : assemble false pieces = some t) : t.Whole := by
  fun_induction assemble false pieces generalizing t
  case case1 => simp_all
  case case2 c rest hi =>
    obtain ⟨u, hu, ht⟩ := Option.map_eq_some_iff.mp h
    simpa [← ht, CodePoint.isHalf] using hi hu
  case case3 hi =>
    obtain ⟨u, hu, ht⟩ := Option.map_eq_some_iff.mp h
    simpa [← ht, CodePoint.isHalf] using hi hu
  case case4 n m rest _ hi =>
    simp only [Option.bind_eq_bind, Option.bind_eq_some_iff, Option.pure_def, Option.some.injEq] at h
    obtain ⟨c, hc, u, hu, ht⟩ := h
    exact ht ▸ Text.whole_cons_iff.mpr ⟨not_isHalf_of_single hc, hi hu⟩
  case case5 n rest _ hi =>
    simp only [Option.bind_eq_bind, Option.bind_eq_some_iff, Option.pure_def, Option.some.injEq] at h
    obtain ⟨c, hc, u, hu, ht⟩ := h
    exact ht ▸ Text.whole_cons_iff.mpr ⟨not_isHalf_of_single hc, hi hu⟩

/-! ### Tokens -/

-- What a token says is whole.
def Token.Whole : Token → Prop
  | .string t => t.Whole
  | .scalar v => v.Whole
  | _         => True

theorem whole_of_word (h : word? cs = some v) : v.Whole := by
  simp only [word?] at h
  repeat' split at h
  all_goals cases h
  all_goals constructor

theorem whole_bareToken (d : Dialect) (cs : List Char) : (bareToken d cs).Whole := by
  simp only [bareToken]
  split
  case h_1 hw => exact whole_of_word hw
  case h_2    => trivial
  case h_3 =>
    repeat' split
    all_goals first | trivial | exact .number

theorem whole_of_mark {c : Char} {token : Token} (h : Token.mark? c = some token) : token.Whole := by
  simp only [Token.mark?] at h
  repeat' split at h
  all_goals cases h
  all_goals trivial

theorem whole_of_mem_tokens (hd : d.halves = false) : ∀ token ∈ tokens d cs, token.Whole := by
  fun_induction tokens d cs
  case case1 => simp
  case case2 hi => exact hi
  case case3 hm hi => exact List.forall_mem_cons.mpr ⟨whole_of_mark hm, hi⟩
  case case6 ha _ _ hi => exact List.forall_mem_cons.mpr ⟨whole_assemble (hd ▸ ha), hi⟩
  case case7 hi => exact List.forall_mem_cons.mpr ⟨whole_bareToken .., hi⟩
  all_goals simp [Token.Whole]

/-! ### Values -/

def Members.Whole (members : List (Text × Json)) : Prop :=
  ∀ m ∈ members, m.1.Whole ∧ m.2.Whole

theorem Members.whole_put (hm : Members.Whole members) (hk : key.Whole) (hv : v.Whole) :
    Members.Whole (put key v members) := fun m h =>
  (mem_put h).elim (hm m) fun he => he ▸ ⟨hk, hv⟩

-- What an open container holds so far is whole.
def Frame.Whole : Frame → Prop
  | .array vs           => ∀ v ∈ vs, v.Whole
  | .object members key => Members.Whole members ∧ key.Whole

def Stack.Whole (stack : List Frame) : Prop :=
  ∀ frame ∈ stack, frame.Whole

def State.Whole : State → Prop
  | .value stack | .firstItem stack | .firstKey stack => Stack.Whole stack
  | .key stack members       => Stack.Whole stack ∧ Members.Whole members
  | .colon stack members key => Stack.Whole stack ∧ Members.Whole members ∧ key.Whole
  | .after stack v           => Stack.Whole stack ∧ v.Whole

variable {stack : List Frame} {s s' : State} {token : Token} {ts : List Token}

theorem whole_start (hs : Stack.Whole stack) (ht : token.Whole) (h : State.start d stack token = .ok s) :
    s.Whole := by
  cases token <;> simp only [State.start, reduceCtorEq] at h
  case openArray | openObject =>
    split at h
    case isTrue =>
      obtain ⟨_, _, h⟩ := Outcome.bind_eq_ok_iff.mp h
      cases h
      exact hs
    case isFalse =>
      cases h
      exact hs
  case string =>
    cases h
    exact ⟨hs, .str ht⟩
  case scalar =>
    cases h
    exact ⟨hs, ht⟩

-- One token takes the machine from whole to whole: a value is kept in the container around it, and a
-- container that closes holds nothing but what was kept.
theorem whole_step (hs : s.Whole) (ht : token.Whole) (h : s.step d token = .ok s') : s'.Whole := by
  unfold State.step at h
  split at h
  case h_1 => exact whole_start hs ht h
  case h_2 =>
    cases h
    exact ⟨hs, .arr nofun⟩
  case h_3 =>
    obtain ⟨_, _, h⟩ := Outcome.bind_eq_ok_iff.mp h
    have hf : Frame.Whole (.array []) := List.forall_mem_nil _
    exact whole_start (List.forall_mem_cons.mpr ⟨hf, hs⟩) ht h
  case h_4 =>
    cases h
    exact ⟨hs, .obj nofun nofun⟩
  case h_5 =>
    obtain ⟨_, _, h⟩ := Outcome.bind_eq_ok_iff.mp h
    cases h
    exact ⟨hs, nofun, ht⟩
  case h_6 =>
    cases h
    exact ⟨hs.left, hs.right, ht⟩
  case h_7 =>
    cases h
    exact List.forall_mem_cons.mpr ⟨hs.right, hs.left⟩
  case h_8 =>
    cases h
    have ⟨hf, hs'⟩ := List.forall_mem_cons.mp hs.left
    exact List.forall_mem_cons.mpr ⟨List.forall_mem_cons.mpr ⟨hs.right, hf⟩, hs'⟩
  case h_9 =>
    cases h
    have ⟨hf, hs'⟩ := List.forall_mem_cons.mp hs.left
    refine ⟨hs', .arr fun v hv => ?_⟩
    exact List.forall_mem_cons.mpr ⟨hs.right, hf⟩ v (List.mem_reverse.mp hv)
  case h_10 =>
    cases h
    have ⟨hf, hs'⟩ := List.forall_mem_cons.mp hs.left
    exact ⟨hs', Members.whole_put hf.left hf.right hs.right⟩
  case h_11 =>
    cases h
    have ⟨hf, hs'⟩ := List.forall_mem_cons.mp hs.left
    have hm := Members.whole_put hf.left hf.right hs.right
    exact ⟨hs', .obj (fun m h => (hm m h).left) fun m h => (hm m h).right⟩
  case h_12 => cases h

theorem whole_run (hs : s.Whole) (ht : ∀ token ∈ ts, token.Whole)
    (h : ts.foldlM (State.step d) s = .ok s') : s'.Whole := by
  induction ts generalizing s
  case nil =>
    cases h
    exact hs
  case cons token ts hi =>
    have ⟨h₁, h₂⟩ := List.forall_mem_cons.mp ht
    rw [List.foldlM_cons] at h
    have ⟨_, hn, h⟩ := Outcome.bind_eq_ok_iff.mp h
    exact hi (whole_step hs h₁ hn) h₂ h

-- What is read without halves of surrogate pairs has none inside.
theorem whole_of_read (hd : d.halves = false) (h : read d cs = .ok v) : v.Whole := by
  have ⟨s, hs, h⟩ := Outcome.bind_eq_ok_iff.mp h
  have hw : s.Whole := whole_run (s := .value []) nofun (whole_of_mem_tokens hd) hs
  split at h
  case h_1 =>
    cases h
    exact hw.right
  case h_2 => cases h

end AddressSpace.Json
