import AddressSpace.Settings.Entry
import AddressSpace.Proofs.Address.Text
import AddressSpace.Proofs.Interval
import AddressSpace.Proofs.Outcome

/-!
What an entry of a pool's list names when it is read: a stretch of addresses of one family, with its
bounds in order. The text of any such stretch is an entry that names it.
-/

namespace AddressSpace.Entry

variable {t u : Text} {i : Interval} {f : Family}

/-! ### Bounds -/

theorem bounds_of_not_mem (h : .char '-' ∉ t) : bounds t = (t, t) := by
  simp [bounds, Text.cut_of_not_mem h]

theorem bounds_append_dash (h : .char '-' ∉ t) : bounds (t ++ [.char '-']) = (t, t) := by
  simp [bounds, Text.cut_append_cons h]

theorem bounds_append_cons (h : .char '-' ∉ t) (hu : u ≠ []) : bounds (t ++ .char '-' :: u) = (t, u) := by
  obtain ⟨c, u, rfl⟩ := List.exists_cons_of_ne_nil hu
  simp [bounds, Text.cut_append_cons h]

theorem read_eq_ok_iff : read t = .ok i ↔ Text.trim t ≠ []
    ∧ (Address.Source.text (bounds (Text.trim t)).1).resolve = .ok i.first
    ∧ (Address.Source.text (bounds (Text.trim t)).2).resolve = .ok i.last
    ∧ i.first.length = i.last.length ∧ ¬ i.last < i.first := by
  obtain ⟨a, b⟩ := i
  simp only [read]
  by_cases h : Text.trim t = []
  case pos => simp [h]
  case neg =>
    cases (Address.Source.text (bounds (Text.trim t)).1).resolve
    case error => simp [h]
    case ok first =>
      cases (Address.Source.text (bounds (Text.trim t)).2).resolve
      case error => simp [h]
      case ok last =>
        by_cases he : first.length = last.length <;> by_cases hr : last < first
        all_goals simp [h, he, hr]
        all_goals rintro rfl rfl
        all_goals simp [he, hr]

theorem fits_of_read (h : read t = .ok i) : ∃ f : Family, i.Fits f.octetCount := by
  have ⟨_, hf, _, he, hr⟩ := read_eq_ok_iff.mp h
  have ⟨f, hl⟩ := Address.Source.length_of_resolve_text hf
  rw [Address.not_lt_iff_le he, Address.le_iff_value_le he] at hr
  exact ⟨f, hl, he ▸ hl, hr⟩

/-! ### Printed stretches -/

theorem ofString_text (i : Interval) : Text.ofString i.text
    = Text.ofString i.first.text ++ .char '-' :: Text.ofString i.last.text := by
  simp [Interval.text, Interval.chars, Address.text, Text.ofString, Text.ofChars]

theorem not_mem_text {c : Char} (hi : i.Fits f.octetCount) (hc : c ∉ '-' :: Address.textChars) :
    .char c ∉ Text.ofString i.text := fun h => by
  simp only [List.mem_cons, not_or] at hc
  rw [ofString_text, List.mem_append, List.mem_cons] at h
  rcases h with h | h | h
  · exact Address.not_mem_text hi.first hc.right h
  · exact hc.left (CodePoint.char.inj h)
  · exact Address.not_mem_text hi.last hc.right h

theorem trim_text (hi : i.Fits f.octetCount) : Text.trim (Text.ofString i.text) = Text.ofString i.text := by
  refine Text.trim_of_not_blank fun c hc => ?_
  rw [ofString_text, List.mem_append, List.mem_cons] at hc
  rcases hc with hc | rfl | hc
  · exact Address.not_isBlank_of_mem_text hi.first c hc
  · decide
  · exact Address.not_isBlank_of_mem_text hi.last c hc

-- The only dash is the one between the bounds.
theorem bounds_text (hi : i.Fits f.octetCount) :
    bounds (Text.ofString i.text) = (Text.ofString i.first.text, Text.ofString i.last.text) := by
  have hd : .char '-' ∉ Text.ofString i.first.text := Address.not_mem_text hi.first (by decide)
  rw [ofString_text, bounds_append_cons hd (Address.text_ne_nil hi.last)]

theorem read_text (hi : i.Fits f.octetCount) : read i.text = .ok i := by
  have hn : Text.ofString i.text ≠ [] := by simp [ofString_text]
  refine read_eq_ok_iff.mpr ⟨?_, ?_, ?_, hi.length_eq, ?_⟩
  · rwa [trim_text hi]
  · simpa [trim_text hi, bounds_text hi] using Address.resolve_text hi.first
  · simpa [trim_text hi, bounds_text hi] using Address.resolve_text hi.last
  · rw [Address.lt_iff_value_lt hi.length_eq.symm]
    exact not_lt.mpr hi.le

end AddressSpace.Entry
