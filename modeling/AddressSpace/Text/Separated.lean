import AddressSpace.Text.CodePoint

/-!
Lists cut at a separator, as text is, and joined again. Main statement: parts without
the separator come back from the joined list.
-/

namespace AddressSpace.Text

variable {α : Type} [DecidableEq α] {sep : α}

-- The parts between the separators; a list without a separator is one part.
def split (sep : α) : List α → List (List α)
  | [] => [[]]
  | c :: cs =>
    if c = sep then
      [] :: split sep cs
    else
      match split sep cs with
      | [] => [[c]]
      | part :: parts => (c :: part) :: parts

omit [DecidableEq α] in
def join (sep : List α) : List (List α) → List α
  | [] => []
  | [part] => part
  | part :: parts => part ++ sep ++ join sep parts

def joined (sep : Text) (parts : List Text) : Text :=
  join sep parts

-- What comes before the first separator and, if there is one, what comes after it.
def cut (sep : α) : List α → List α × Option (List α)
  | [] => ([], none)
  | c :: cs =>
    if c = sep then
      ([], some cs)
    else
      let (before, after) := cut sep cs
      (c :: before, after)

theorem split_ne_nil (cs : List α) : split sep cs ≠ [] := by
  cases cs with
  | nil => simp [split]
  | cons c cs =>
    simp only [split]
    split
    · simp
    · split <;> simp

theorem split_of_not_mem {part : List α} (h : sep ∉ part) : split sep part = [part] := by
  induction part with
  | nil => rfl
  | cons c cs ih =>
    simp only [List.mem_cons, not_or] at h
    simp [split, Ne.symm h.1, ih h.2]

theorem split_append_cons {part rest : List α} (h : sep ∉ part) :
    split sep (part ++ sep :: rest) = part :: split sep rest := by
  induction part with
  | nil => simp [split]
  | cons c cs ih =>
    simp only [List.mem_cons, not_or] at h
    simp [split, Ne.symm h.1, ih h.2]

-- Parts that do not hold the separator can be joined and cut again.
theorem split_join {parts : List (List α)} (hne : parts ≠ []) (h : ∀ p ∈ parts, sep ∉ p) :
    split sep (join [sep] parts) = parts := by
  induction parts with
  | nil => exact absurd rfl hne
  | cons part parts ih =>
    cases parts with
    | nil => simpa [join] using split_of_not_mem (h part (by simp))
    | cons next parts =>
      have hrest := ih (by simp) fun p hp => h p (by simp [hp])
      simp [join, split_append_cons (h part (by simp)), hrest]

end AddressSpace.Text
