import AddressSpace.Proofs.Json.Whole

/-!
What one dialect reads, a wider one reads with the same value. The tokens of a text that is read are the
same in both, and the machine of the wider dialect takes the same steps, as it allows one more level of
nesting than is ever reached.
-/

namespace AddressSpace.Json

-- The second dialect takes what the first one takes, and nests deeper.
structure Dialect.Within (d d' : Dialect) : Prop where
  halves         : d.halves = true → d'.halves = true
  longWholeParts : d.longWholeParts = true → d'.longWholeParts = true
  countsSign     : d'.countsSign = true → d.countsSign = true
  maxDepth       : d.maxDepth < d'.maxDepth

variable {d d' : Dialect} {cs : List Char} {pieces : List Piece} {t : Text} {v : Json} {n : Nat}
variable {c : CodePoint} {b b' : Bool}

/-! ### Tokens -/

theorem single_of_single (hb : b = true → b' = true) (h : single b n = some c) : single b' n = some c := by
  cases b <;> cases b' <;> simp_all [single]

theorem assemble_of_assemble (hb : b = true → b' = true) (h : assemble b pieces = some t) :
    assemble b' pieces = some t := by
  fun_induction assemble b pieces generalizing t <;> simp only [assemble]
  case case1 => exact h
  case case2 hi =>
    obtain ⟨u, hu, ht⟩ := Option.map_eq_some_iff.mp h
    simp [hi hu, ht]
  case case3 hp c hi =>
    obtain ⟨u, hu, ht⟩ := Option.map_eq_some_iff.mp h
    simp [hp, hi hu, ← ht, c]
  case case4 hp hi =>
    simp only [Option.bind_eq_bind, Option.bind_eq_some_iff, Option.pure_def, Option.some.injEq] at h
    obtain ⟨c, hc, u, hu, ht⟩ := h
    simp [hp, single_of_single hb hc, hi hu, ht]
  case case5 hi =>
    simp only [Option.bind_eq_bind, Option.bind_eq_some_iff, Option.pure_def, Option.some.injEq] at h
    obtain ⟨c, hc, u, hu, ht⟩ := h
    simp [single_of_single hb hc, hi hu, ht]

-- A token that the machine takes nowhere.
def Token.Faulty : Token → Prop
  | .overlong _ | .bad => True
  | _ => False

theorem Numeral.isOverlong_eq_false {n : Numeral} (hw : d.Within d') (h : n.isOverlong d = false) :
    n.isOverlong d' = false := by
  have := hw.longWholeParts
  have := hw.countsSign
  simp only [isOverlong, width] at h ⊢
  grind

theorem bareToken_eq (hw : d.Within d') (h : ¬ (bareToken d cs).Faulty) :
    bareToken d' cs = bareToken d cs := by
  simp only [bareToken] at h ⊢
  split
  case h_1 => rfl
  case h_2 => rfl
  case h_3 n rest hn hr =>
    cases ho : n.isOverlong d
    case true  => simp [hn, hr, ho, Token.Faulty] at h
    case false => simp [n.isOverlong_eq_false hw ho]

-- A string in quotes is one token.
theorem tokens_string {rest after : List Char} (hq : scanString rest = some (pieces, after))
    (ha : assemble d.halves pieces = some t) : tokens d ('"' :: rest) = .string t :: tokens d after := by
  have hs : isSpace '"' = false := by decide
  have hm : Token.mark? '"' = none := by decide
  rw [tokens]
  simp only [hs, hm, Bool.false_eq_true, if_false, if_true]
  split
  case h_1 he => simp [hq] at he
  case h_2 he =>
    rw [hq] at he
    cases he
    simp [ha]

theorem tokens_eq (hw : d.Within d') (h : ∀ t ∈ tokens d cs, ¬ t.Faulty) : tokens d' cs = tokens d cs := by
  fun_induction tokens d cs
  case case1 => simp [tokens]
  case case2 hs hi => simp [tokens, hs, hi h]
  case case3 hs t ht hi => simp [tokens, hs, ht, hi (List.forall_mem_cons.mp h).right]
  case case6 hq _ ha _ _ hi =>
    rw [tokens_string hq (assemble_of_assemble hw.halves ha), hi (List.forall_mem_cons.mp h).right]
  case case7 hs hm hq hb hi =>
    have ⟨h₁, h₂⟩ := List.forall_mem_cons.mp h
    simp [tokens, hs, hm, hq, hb, bareToken_eq hw h₁, hi h₂]
  all_goals simp [Token.Faulty] at h

/-! ### Values -/

variable {stack : List Frame} {s s' : State} {token : Token} {ts : List Token}

-- How many containers are open. One that awaits its first item or key may still count as none.
def State.depth : State → Nat
  | .value stack | .firstItem stack | .firstKey stack | .after stack _ => stack.length
  | .key stack _ | .colon stack _ _ => stack.length + 1

theorem enter_eq_ok_iff {k : Container} : d.enter k stack = .ok () ↔ stack.length < d.maxDepth := by
  simp [Dialect.enter]

-- What starts a value nests no deeper than is allowed, and starts it where more is allowed.
theorem start_within (hw : d.Within d') (hs : stack.length ≤ d.maxDepth)
    (h : State.start d stack token = .ok s) :
    ¬ token.Faulty ∧ s.depth ≤ d.maxDepth ∧ State.start d' stack token = .ok s := by
  have hn (k : Container) : d'.enter k stack = .ok () :=
    enter_eq_ok_iff.mpr (Nat.lt_of_le_of_lt hs hw.maxDepth)
  cases token <;> simp only [State.start, reduceCtorEq, Except.ok.injEq] at h ⊢
  case openArray | openObject =>
    split at h
    case isTrue =>
      obtain ⟨_, _, h⟩ := Outcome.bind_eq_ok_iff.mp h
      cases h
      simp [hn, State.depth, hs, Token.Faulty]
    case isFalse =>
      cases h
      simp [hn, State.depth, hs, Token.Faulty]
  case string => simp [← h, State.depth, hs, Token.Faulty]
  case scalar => simp [← h, State.depth, hs, Token.Faulty]

theorem step_within (hw : d.Within d') (hs : s.depth ≤ d.maxDepth) (h : s.step d token = .ok s') :
    ¬ token.Faulty ∧ s'.depth ≤ d.maxDepth ∧ s.step d' token = .ok s' := by
  unfold State.step at h
  split at h
  case h_1 => exact start_within hw hs h
  case h_3 stack hc =>
    have ⟨_, he, h⟩ := Outcome.bind_eq_ok_iff.mp h
    have hl : (Frame.array [] :: stack).length ≤ d.maxDepth := enter_eq_ok_iff.mp he
    have he' : d'.enter .array stack = .ok () := enter_eq_ok_iff.mpr (Nat.lt_trans hl hw.maxDepth)
    simpa [State.step, hc, he'] using start_within hw hl h
  case h_5 stack k =>
    have ⟨_, he, h⟩ := Outcome.bind_eq_ok_iff.mp h
    have hl := enter_eq_ok_iff.mp he
    have he' : d'.enter .object stack = .ok () := enter_eq_ok_iff.mpr (Nat.lt_trans hl hw.maxDepth)
    cases h
    exact ⟨id, hl, by simp [State.step, he']⟩
  case h_12 => cases h
  all_goals
    cases h
    refine ⟨id, ?_, rfl⟩
    simp only [State.depth, List.length_cons] at hs ⊢
    omega

theorem run_within (hw : d.Within d') (hs : s.depth ≤ d.maxDepth) (h : ts.foldlM (State.step d) s = .ok s') :
    (∀ token ∈ ts, ¬ token.Faulty) ∧ ts.foldlM (State.step d') s = .ok s' := by
  induction ts generalizing s
  case nil => exact ⟨nofun, h⟩
  case cons token ts hi =>
    rw [List.foldlM_cons] at h
    have ⟨_, hn, h⟩ := Outcome.bind_eq_ok_iff.mp h
    have ⟨hf, hd, hn⟩ := step_within hw hs hn
    have ⟨hfs, h⟩ := hi hd h
    refine ⟨List.forall_mem_cons.mpr ⟨hf, hfs⟩, ?_⟩
    simpa [hn] using h

-- A text that is read has the same value in every wider dialect.
theorem read_within (hw : d.Within d') (h : read d cs = .ok v) : read d' cs = .ok v := by
  have ⟨s, hs, h⟩ := Outcome.bind_eq_ok_iff.mp h
  have ⟨hf, hr⟩ := run_within hw (Nat.zero_le _) hs
  rw [← tokens_eq hw hf] at hr
  exact Outcome.bind_eq_ok_iff.mpr ⟨s, hr, h⟩

end AddressSpace.Json
