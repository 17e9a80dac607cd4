import AddressSpace.Text.Separated

/-!
What joined parts are made of, and where text is cut. Text that is split and joined again is the same text.
-/

namespace AddressSpace.Text

variable {α : Type} {sep part : List α} {parts : List (List α)} {c : α}

-- Joined parts hold nothing but what the parts and the separator hold.
theorem mem_of_mem_join (h : c ∈ join sep parts) : c ∈ sep ∨ ∃ part ∈ parts, c ∈ part := by
  fun_induction join sep parts
  case case1 => simp at h
  case case2 => simp [h]
  case case3 hi =>
    simp only [List.mem_append] at h
    rcases h with (h | h) | h
    · exact .inr ⟨_, .head _, h⟩
    · exact .inl h
    · exact (hi h).imp_right fun ⟨p, hp, hc⟩ => ⟨p, .tail _ hp, hc⟩

theorem join_ne_nil (hp : parts ≠ []) (h : ∀ part ∈ parts, part ≠ []) : join sep parts ≠ [] := by
  fun_induction join sep parts
  case case1 => exact absurd rfl hp
  case case2 => exact h _ (.head _)
  case case3 => simp [h]

theorem head?_join (h : part ≠ []) : (join sep (part :: parts)).head? = part.head? := by
  cases parts
  case nil  => rfl
  case cons => simp [join, List.head?_append, List.head?_eq_some_head h]

theorem map_join {β : Type} (f : α → β) (sep : List α) (parts : List (List α)) :
    (join sep parts).map f = join (sep.map f) (parts.map (List.map f)) := by
  fun_induction join sep parts
  case case1 => rfl
  case case2 => rfl
  case case3 part parts hne hi =>
    obtain ⟨next, parts, rfl⟩ := List.exists_cons_of_ne_nil hne
    simp [join, hi]

-- Items that are read back from their parts one by one.
theorem mapM_map {β γ : Type} {spell : β → List α} {read? : List α → Option γ} {item : β → γ} {xs : List β}
    (h : ∀ x ∈ xs, read? (spell x) = some (item x)) : (xs.map spell).mapM read? = some (xs.map item) := by
  induction xs
  case nil => rfl
  case cons x xs hi =>
    have ⟨h₁, h₂⟩ := List.forall_mem_cons.mp h
    simp [h₁, hi h₂]

-- Items that are read one by one, where each item tells how it was spelled.
theorem eq_map_of_mapM {β : Type} {read? : α → Option β} {spell : β → α} {p : β → Prop} {as : List α}
    {bs : List β} (h : ∀ a b, read? a = some b → p b ∧ a = spell b) (hm : as.mapM read? = some bs) :
    (∀ b ∈ bs, p b) ∧ as = bs.map spell := by
  induction as generalizing bs
  case nil => simp_all
  case cons a as hi =>
    simp only [List.mapM_cons, Option.bind_eq_bind, Option.bind_eq_some_iff, Option.pure_def,
      Option.some.injEq] at hm
    obtain ⟨b, hb, bs, hbs, rfl⟩ := hm
    obtain ⟨hp, ha⟩ := h a b hb
    obtain ⟨hps, has⟩ := hi hbs
    exact ⟨List.forall_mem_cons.mpr ⟨hp, hps⟩, by rw [List.map_cons, ← ha, ← has]⟩

variable [DecidableEq α] {x : α} {rest : List α}

-- Nothing is lost where text is split.
theorem join_split (x : α) (cs : List α) : join [x] (split x cs) = cs := by
  induction cs
  case nil => rfl
  case cons c cs hi =>
    have hn : split x cs ≠ [] := split_ne_nil cs
    obtain ⟨part, parts, hs⟩ := List.exists_cons_of_ne_nil hn
    rw [hs] at hi
    by_cases hc : c = x
    case pos => simp [split, hc, hs, join, hi]
    case neg =>
      have hj : join [x] ((c :: part) :: parts) = c :: join [x] (part :: parts) := by
        cases parts <;> rfl
      simp [split, hc, hs, hj, hi]

theorem cut_of_not_mem (h : x ∉ part) : cut x part = (part, none) := by
  induction part
  case nil => rfl
  case cons c cs hi =>
    simp only [List.mem_cons, not_or] at h
    simp [cut, Ne.symm h.left, hi h.right]

theorem cut_append_cons (h : x ∉ part) : cut x (part ++ x :: rest) = (part, some rest) := by
  induction part
  case nil => simp [cut]
  case cons c cs hi =>
    simp only [List.mem_cons, not_or] at h
    simp [cut, Ne.symm h.left, hi h.right]

-- Text is cut at its first separator, if it holds one.
theorem cut_cases (x : α) (cs : List α) : x ∉ cs ∧ cut x cs = (cs, none)
    ∨ ∃ before after, x ∉ before ∧ cs = before ++ x :: after ∧ cut x cs = (before, some after) := by
  by_cases h : x ∈ cs
  case pos =>
    obtain ⟨before, after, rfl, hb⟩ := List.eq_append_cons_of_mem h
    exact .inr ⟨before, after, hb, rfl, cut_append_cons hb⟩
  case neg => exact .inl ⟨h, cut_of_not_mem h⟩

theorem append_cons_inj {part' rest' : List α} (h : x ∉ part) (h' : x ∉ part')
    (he : part ++ x :: rest = part' ++ x :: rest') : part = part' ∧ rest = rest' := by
  have hc := congrArg (cut x) he
  simpa [cut_append_cons h, cut_append_cons h'] using hc

/-! ### Separators of two characters -/

-- The parts between the places where `x` stands right in front of `y`.
def splitPair (x y : α) : List α → List (List α)
  | [] => [[]]
  | [c] => [[c]]
  | c :: d :: cs =>
    if c = x ∧ d = y then
      [] :: splitPair x y cs
    else
      match splitPair x y (d :: cs) with
      | [] => [[c]]
      | part :: parts => (c :: part) :: parts

variable {y : α} {cs : List α}

theorem splitPair_cons (h : c ≠ x) : splitPair x y (c :: cs) = match splitPair x y cs with
    | [] => [[c]]
    | part :: parts => (c :: part) :: parts := by
  cases cs <;> simp [splitPair, h]

theorem splitPair_of_not_mem (h : x ∉ part) : splitPair x y part = [part] := by
  induction part
  case nil => rfl
  case cons c cs hi =>
    simp only [List.mem_cons, not_or] at h
    rw [splitPair_cons (Ne.symm h.left), hi h.right]

theorem splitPair_append_cons (h : x ∉ part) :
    splitPair x y (part ++ x :: y :: rest) = part :: splitPair x y rest := by
  induction part
  case nil => simp [splitPair]
  case cons c cs hi =>
    simp only [List.mem_cons, not_or] at h
    rw [List.cons_append, splitPair_cons (Ne.symm h.left), hi h.right]

-- Parts that do not hold the first character of the separator can be joined and cut again.
theorem splitPair_join (hne : parts ≠ []) (h : ∀ part ∈ parts, x ∉ part) :
    splitPair x y (join [x, y] parts) = parts := by
  fun_induction join [x, y] parts
  case case1 => exact absurd rfl hne
  case case2 => exact splitPair_of_not_mem (h _ (.head _))
  case case3 part parts hp hi =>
    have ⟨h₁, h₂⟩ := List.forall_mem_cons.mp h
    simp [splitPair_append_cons h₁, hi hp h₂]

end AddressSpace.Text
