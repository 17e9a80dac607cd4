import AddressSpace.Proofs.Address.Text

/-!
The text of an address tells it apart from all others, whatever their lengths. Addresses of the families are
read back from their texts; all other texts are marked with an `x`, and have two digits for each octet.
-/

namespace AddressSpace

variable {c : Char} {w n : Nat} {xs ys : List UInt8} {a b : Address} {f : Family}

/-! ### Octets as digits -/

namespace Text

theorem mem_padded (h : c ∈ padded 16 w n) : c ∈ digitChars := by
  rcases List.mem_append.mp h with h | h
  · rw [List.eq_of_mem_replicate h]
    decide
  · exact mem_digitChars (by decide) (by decide) h

theorem mem_hexOctets (h : c ∈ hexOctets xs) : c ∈ digitChars := by
  obtain ⟨x, _, hc⟩ := List.mem_flatMap.mp h
  exact mem_padded hc

theorem length_hexOctets (xs : List UInt8) : (hexOctets xs).length = 2 * xs.length := by
  induction xs
  case nil => rfl
  case cons x xs hi =>
    simp only [hexOctets, List.flatMap_cons, List.length_append, length_padded_octet, List.length_cons] at hi ⊢
    omega

-- Every octet has two digits of its own.
theorem hexOctets_inj (h : hexOctets xs = hexOctets ys) : xs = ys := by
  have hl := congrArg List.length h
  simp only [length_hexOctets] at hl
  induction xs generalizing ys <;> cases ys <;> simp only [List.length_nil, List.length_cons] at hl
  case nil.nil  => rfl
  case nil.cons => omega
  case cons.nil => omega
  case cons.cons x xs hi y ys =>
    obtain ⟨hx, hxs⟩ := List.append_inj h ((length_padded_octet x).trans (length_padded_octet y).symm)
    rw [UInt8.toNat_inj.mp (padded_inj hx), hi hxs (by omega)]

end Text

/-! ### Texts -/

namespace Address

theorem chars_of_noFamily (h : ∀ f : Family, a.length ≠ f.octetCount) :
    a.chars = '0' :: 'x' :: Text.hexOctets a.octets := by
  have hf : Family.ofOctetCount? a.length = none := by
    have h₄ : 4 ≠ a.length := (h .v4).symm
    have h₁₆ : 16 ≠ a.length := (h .v6).symm
    simp [Family.ofOctetCount?, Family.all, Family.octetCount, h₄, h₁₆]
  simp only [chars, hf]

theorem mem_chars (hc : c ∈ a.chars) : c ∈ 'x' :: textChars := by
  by_cases h : ∃ f : Family, a.length = f.octetCount
  case pos =>
    obtain ⟨f, h⟩ := h
    exact .tail _ (mem_textChars h hc)
  case neg =>
    rw [chars_of_noFamily (not_exists.mp h)] at hc
    rcases hc with _ | ⟨_, _ | ⟨_, hc⟩⟩
    · decide
    · exact .head _
    · exact .tail _ (.tail _ (.tail _ (Text.mem_hexOctets hc)))

-- The texts of the families go without an `x`.
theorem x_not_mem_chars_iff : 'x' ∉ a.chars ↔ ∃ f : Family, a.length = f.octetCount := by
  constructor
  · intro hx
    by_contra h
    exact hx (chars_of_noFamily (not_exists.mp h) ▸ .tail _ (.head _))
  · rintro ⟨f, h⟩ hx
    exact absurd (mem_textChars h hx) (by decide)

theorem chars_inj : a.chars = b.chars ↔ a = b := by
  refine ⟨fun he => ?_, congrArg chars⟩
  have hx : (∃ f : Family, a.length = f.octetCount) ↔ ∃ f : Family, b.length = f.octetCount := by
    rw [← x_not_mem_chars_iff, he, x_not_mem_chars_iff]
  by_cases h : ∃ f : Family, a.length = f.octetCount
  case pos =>
    obtain ⟨g, hg⟩ := hx.mp h
    obtain ⟨f, hf⟩ := h
    have ha := ofChars?_chars hf
    rw [he, ofChars?_chars hg] at ha
    cases ha
    rfl
  case neg =>
    have hb := hx.not.mp h
    rw [chars_of_noFamily (not_exists.mp h), chars_of_noFamily (not_exists.mp hb)] at he
    exact Address.ext (Text.hexOctets_inj (List.cons.inj (List.cons.inj he).right).right)

theorem text_inj : a.text = b.text ↔ a = b := by
  rw [text, text, String.ofList_inj, chars_inj]

theorem family_of_length (h : a.length = 4 ∨ a.length = 16) : ∃ f : Family, a.length = f.octetCount :=
  h.elim (fun h => ⟨.v4, h⟩) fun h => ⟨.v6, h⟩

-- The text of an address is the text of no other address, of the same length or not. It holds neither
-- blanks nor what separates addresses in a list. If the address belongs to a family, the text spells it;
-- that of an IPv6 address is made of colons and digits in lower case alone.
theorem text_spells_no_other (a b : Address) :
    ((a.length = 4 ∨ a.length = 16) → (Source.text (Text.ofString a.text)).resolve = .ok a)
    ∧ (a.text = b.text ↔ a = b)
    ∧ (∀ c ∈ a.text.toList, c ≠ '-' ∧ c ≠ ',' ∧ ¬ Text.isBlank (.char c))
    ∧ (a.length = 16 → ∀ c ∈ a.text.toList, c ∈ ":0123456789abcdef".toList) := by
  simp only [text, String.toList_ofList]
  refine ⟨fun h => ?_, text_inj, fun c hc => ?_, fun h c hc => ?_⟩
  · obtain ⟨f, h⟩ := family_of_length h
    exact resolve_text h
  · have hs : ('x' :: textChars).all fun c => c != '-' && c != ',' && !Text.isBlank (.char c) := by decide
    simpa [and_assoc] using List.all_eq_true.mp hs c (mem_chars hc)
  · rw [chars_eq (f := .v6) h] at hc
    exact mem_compressed hc

end Address

end AddressSpace
