import AddressSpace.Text.Blank
import Mathlib.Data.List.DropRight

/-!
Trimmed text: it neither starts nor ends with a blank, and text of that kind is left as it is. What is
trimmed off one end does not matter to the other, nor does it when the text is trimmed again.
-/

namespace AddressSpace.Text

variable {t u : Text} {c : CodePoint}

theorem trim_eq_self (hf : ∀ c ∈ t.head?, ¬ isBlank c) (hl : ∀ c ∈ t.getLast?, ¬ isBlank c) :
    trim t = t := by
  have hs : trimStart t = t :=
    List.dropWhile_eq_self_iff.mpr fun h => hf _ (by simp [List.head?_eq_getElem?])
  have he : trimEnd t = t :=
    List.rdropWhile_eq_self_iff.mpr fun h => hl _ (List.getLast?_eq_some_getLast h)
  rw [trim, hs, he]

theorem trim_of_not_blank (h : ∀ c ∈ t, ¬ isBlank c) : trim t = t :=
  trim_eq_self (fun c hc => h c (List.mem_of_head? hc)) fun c hc => h c (List.mem_of_getLast? hc)

-- What is left of a text has the text's own first character, unless nothing is left.
theorem head?_trimEnd (h : (trimEnd t).head? = some c) : t.head? = some c := by
  have hp : trimEnd t <+: t := List.rdropWhile_prefix isBlank t
  have ⟨rest, hr⟩ := hp
  rw [← hr, List.head?_append, h, Option.some_or]

theorem not_isBlank_of_head?_trimStart (h : (trimStart t).head? = some c) :
    ¬ isBlank c := by
  have := List.head?_dropWhile_not isBlank t
  simp only [trimStart] at h
  simp_all

theorem not_isBlank_of_getLast?_trimEnd (h : (trimEnd t).getLast? = some c) :
    ¬ isBlank c := by
  rw [trimEnd, List.getLast?_reverse] at h
  exact not_isBlank_of_head?_trimStart h

@[simp]
theorem trim_trim (t : Text) : trim (trim t) = trim t :=
  trim_eq_self (fun _ h => not_isBlank_of_head?_trimStart (head?_trimEnd h))
    fun _ h => not_isBlank_of_getLast?_trimEnd h

/-! ### Each end by itself -/

theorem trimStart_append_cons (h : ¬ isBlank c) : trimStart (t ++ c :: u) = trimStart t ++ c :: u := by
  simp only [trimStart, List.dropWhile_append, List.dropWhile_cons_of_neg h]
  split
  case isTrue ht => rw [List.isEmpty_iff.mp ht, List.nil_append]
  case isFalse   => rfl

theorem trimEnd_append_cons (h : ¬ isBlank c) : trimEnd (t ++ c :: u) = t ++ c :: trimEnd u := by
  have hr : (t ++ c :: u).reverse = u.reverse ++ c :: t.reverse := by simp
  have hs : (u.reverse ++ c :: t.reverse).dropWhile isBlank
      = u.reverse.dropWhile isBlank ++ c :: t.reverse := trimStart_append_cons h
  simp [trimEnd, hr, hs]

-- Blanks in front of a character that stays are trimmed off the front part, those behind it off the rest.
theorem trim_append_cons (h : ¬ isBlank c) : trim (t ++ c :: u) = trimStart t ++ c :: trimEnd u := by
  rw [trim, trimStart_append_cons h, trimEnd_append_cons h]

theorem trimStart_trimEnd (t : Text) : trimStart (trimEnd t) = trim t := by
  by_cases h : ∀ c ∈ t, isBlank c
  case pos =>
    have hs : trimStart t = [] := List.dropWhile_eq_nil_iff.mpr h
    have he : trimEnd t = [] := List.rdropWhile_eq_nil_iff.mpr h
    rw [trim, hs, he]
    rfl
  case neg =>
    simp only [not_forall] at h
    obtain ⟨c, hc, hn⟩ := h
    obtain ⟨u, v, rfl⟩ := List.append_of_mem hc
    rw [trimEnd_append_cons hn, trimStart_append_cons hn, trim_append_cons hn]

@[simp]
theorem trim_trimStart (t : Text) : trim (trimStart t) = trim t :=
  congrArg trimEnd (List.dropWhile_idempotent isBlank t)

@[simp]
theorem trim_trimEnd (t : Text) : trim (trimEnd t) = trim t := by
  rw [← trimStart_trimEnd, ← trimStart_trimEnd t]
  exact congrArg trimStart (List.rdropWhile_idempotent isBlank t)

theorem trimEnd_ne_nil (h : trim t ≠ []) : trimEnd t ≠ [] := by
  intro he
  rw [← trimStart_trimEnd, he] at h
  exact h rfl

theorem not_mem_trimStart (h : c ∉ t) : c ∉ trimStart t :=
  fun hc => h ((List.dropWhile_sublist isBlank).mem hc)

end AddressSpace.Text
