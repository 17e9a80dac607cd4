import AddressSpace.Proofs.Document.Checked
import AddressSpace.Proofs.Settings.Entry

/-!
The two ways to spell a range: as an entry of the settings, with a dash between the bounds, and as an
object of a document, with a member for each bound. They name the same stretches; only the object looks
at scopes, and refuses a range from an address to the same address of another scope.
-/

namespace AddressSpace.Loading

open Document (Range)

-- The object of a document that gives a range by its bounds.
def object (first last : Text) : Json :=
  .obj [("start", .str first), ("end", .str last)]

-- Two texts spell two hosts, blanks around them aside.
structure Spell (first last : Text) (h k : Host) : Prop where
  first : Host.ofText? (Text.trim first) = some h
  last  : Host.ofText? (Text.trim last) = some k

-- Two texts spell the same IPv6 address, but not with the same scope.
def ScopesDiffer (first last : Text) : Prop :=
  ∃ h k, Spell first last h k ∧ h.family = .v6 ∧ k.family = .v6 ∧ h.address = k.address ∧ h.scope ≠ k.scope

variable {first last : Text} {h k h' k' : Host} {i : Interval} {r : Range}

theorem Spell.unique (s : Spell first last h k) (s' : Spell first last h' k') : h = h' ∧ k = k' :=
  ⟨Option.some.inj (s.first.symm.trans s'.first), Option.some.inj (s.last.symm.trans s'.last)⟩

theorem Spell.length_eq_iff (s : Spell first last h k) :
    h.address.length = k.address.length ↔ h.family = k.family :=
  Host.length_eq_iff_family_eq s.first s.last

-- The blanks around a dash go to the bounds, which are trimmed again when they are read.
theorem bounds_dash (hd : .char '-' ∉ first) (hl : Text.trim last ≠ []) :
    Entry.bounds (Text.trim (first ++ .char '-' :: last)) = (Text.trimStart first, Text.trimEnd last) := by
  rw [Text.trim_append_cons (by decide),
    Entry.bounds_append_cons (Text.not_mem_trimStart hd) (Text.trimEnd_ne_nil hl)]

-- An entry compares addresses.
theorem entry_eq_ok_iff (hd : .char '-' ∉ first) (hl : Text.trim last ≠ []) :
    Entry.read (first ++ .char '-' :: last) = .ok i ↔ ∃ h k, Spell first last h k
      ∧ h.family = k.family ∧ h.address.value ≤ k.address.value
      ∧ i = { first := h.address, last := k.address } := by
  have hn : Text.trim (first ++ .char '-' :: last) ≠ [] := by
    simp [Text.trim_append_cons (c := .char '-') (by decide)]
  simp only [Entry.read_eq_ok_iff, bounds_dash hd hl, Address.Source.resolve_text_eq_ok_iff,
    Text.trim_trimStart, Text.trim_trimEnd]
  constructor
  · rintro ⟨_, ⟨h, hh, hi⟩, ⟨k, hk, hj⟩, he, hr⟩
    rw [Address.not_lt_iff_le he, Address.le_iff_value_le he] at hr
    rw [← hi, ← hj] at he hr
    exact ⟨h, k, ⟨hh, hk⟩, (Host.length_eq_iff_family_eq hh hk).mp he, hr, by rw [hi, hj]⟩
  · rintro ⟨h, k, s, hf, hle, rfl⟩
    have he := s.length_eq_iff.mpr hf
    refine ⟨hn, ⟨h, s.first, rfl⟩, ⟨k, s.last, rfl⟩, he, ?_⟩
    rwa [Address.not_lt_iff_le he, Address.le_iff_value_le he]

-- An object compares hosts.
theorem range_eq_ok_iff {members : List (Text × Json)} : Range.ofJson (.obj members) = .ok r ↔
    ∃ first last h k, Json.find? "start" members = some (.str first) ∧ Json.find? "end" members = some (.str last)
      ∧ Spell first last h k ∧ h.family = k.family ∧ h.inOrder k
      ∧ r = { first := Text.trim first, last := Text.trim last } := by
  rw [Range.ofJson, Outcome.bind_eq_ok_iff]
  simp only [Document.Checked.both_eq_ok_iff, Document.bound_eq_ok_iff]
  constructor
  · rintro ⟨_, ⟨⟨_, h⟩, ⟨_, k⟩, ⟨t, ht, rfl, hh⟩, ⟨u, hu, rfl, hk⟩, rfl⟩, ho⟩
    exact ⟨t, u, h, k, ht, hu, ⟨hh, hk⟩, Document.ordered_eq_ok_iff.mp ho⟩
  · rintro ⟨first, last, h, k, hf, hl, s, ho⟩
    exact ⟨_, ⟨(_, h), (_, k), ⟨first, hf, rfl, s.first⟩, ⟨last, hl, rfl, s.last⟩, rfl⟩,
      Document.ordered_eq_ok_iff.mpr ho⟩

theorem object_eq_ok_iff : Range.read (object first last) = .ok r ↔ ∃ h k, Spell first last h k
    ∧ h.family = k.family ∧ h.inOrder k ∧ r = { first := Text.trim first, last := Text.trim last } := by
  rw [Range.read, Outcome.mapError_eq_ok_iff, object, range_eq_ok_iff]
  constructor
  · rintro ⟨_, _, h, k, hf, hl, ho⟩
    cases hf
    cases hl
    exact ⟨h, k, ho⟩
  · rintro ⟨h, k, ho⟩
    exact ⟨first, last, h, k, rfl, rfl, ho⟩

theorem stretch_trim (s : Spell first last h k) :
    stretch { first := Text.trim first, last := Text.trim last }
      = .ok { first := h.address, last := k.address } := by
  have hfirst := Address.Source.resolve_text (Text.trim_trim first) s.first
  have hlast := Address.Source.resolve_text (Text.trim_trim last) s.last
  simp [stretch, hfirst, hlast]

-- An entry is read exactly if its object is, or if it spells one IPv6 address with two scopes, which
-- its object refuses. What both read is the same stretch.
theorem spellings_agree (first last : Text) (hd : .char '-' ∉ first) (hl : Text.trim last ≠ []) :
    ((∃ i, Entry.read (first ++ .char '-' :: last) = .ok i) ↔
      (∃ r, Range.read (object first last) = .ok r) ∨ ScopesDiffer first last)
    ∧ (ScopesDiffer first last → ∀ r, Range.read (object first last) ≠ .ok r)
    ∧ ∀ r, Range.read (object first last) = .ok r →
      ∃ i, stretch r = .ok i ∧ Entry.read (first ++ .char '-' :: last) = .ok i := by
  have agree (r : Range) (hr : Range.read (object first last) = .ok r) :
      ∃ i, stretch r = .ok i ∧ Entry.read (first ++ .char '-' :: last) = .ok i := by
    obtain ⟨h, k, s, hf, ho, rfl⟩ := object_eq_ok_iff.mp hr
    have hle := Host.le_of_inOrder (s.length_eq_iff.mpr hf) ho
    exact ⟨_, stretch_trim s, (entry_eq_ok_iff hd hl).mpr ⟨h, k, s, hf, hle, rfl⟩⟩
  refine ⟨⟨?_, ?_⟩, ?_, agree⟩
  · rintro ⟨i, hi⟩
    obtain ⟨h, k, s, hf, hle, _⟩ := (entry_eq_ok_iff hd hl).mp hi
    cases (Host.le_iff_inOrder_or (s.length_eq_iff.mpr hf)).mp hle
    case inl ho => exact .inl ⟨_, object_eq_ok_iff.mpr ⟨h, k, s, hf, ho, rfl⟩⟩
    case inr hs =>
      have hv := Host.family_of_scope_ne s.first s.last hf hs.right
      exact .inr ⟨h, k, s, hv, hf ▸ hv, hs⟩
  · rintro (⟨r, hr⟩ | ⟨h, k, s, hh, hk, ha, _⟩)
    · obtain ⟨i, _, hi⟩ := agree r hr
      exact ⟨i, hi⟩
    · exact ⟨_, (entry_eq_ok_iff hd hl).mpr ⟨h, k, s, hh.trans hk.symm, ha ▸ le_rfl, rfl⟩⟩
  · rintro ⟨h, k, s, _, _, ha, hs⟩ r hr
    obtain ⟨h', k', s', _, ho, _⟩ := object_eq_ok_iff.mp hr
    obtain ⟨rfl, rfl⟩ := s.unique s'
    exact Host.not_inOrder ha hs ho

-- One address on two links, where only the entry is read, and two addresses, where both are.
theorem spellings_agree_of_scoped :
    let first : Text := " fe80::1%left "
    let same : Text := " fe80::1%right"
    let above : Text := " fe80::2%right"
    (.char '-' ∉ first ∧ Text.trim same ≠ [] ∧ Text.trim above ≠ []) ∧ ScopesDiffer first same
    ∧ (∃ i, Entry.read (first ++ .char '-' :: same) = .ok i)
    ∧ (∀ r, Range.read (object first same) ≠ .ok r)
    ∧ Range.read (object first above) = .ok { first := "fe80::1%left", last := "fe80::2%right" }
    ∧ ∃ i, stretch { first := "fe80::1%left", last := "fe80::2%right" } = .ok i
      ∧ Entry.read (first ++ .char '-' :: above) = .ok i := by
  intro first same above
  have hd : .char '-' ∉ first := by decide +kernel
  have hs : Text.trim same ≠ [] := by decide +kernel
  have ha : Text.trim above ≠ [] := by decide +kernel
  have hr : Range.read (object first above) = .ok { first := "fe80::1%left", last := "fe80::2%right" } := by
    rfl
  have hw : ScopesDiffer first same := by
    refine ⟨⟨.v6, ⟨[0xfe, 0x80, 0, 0, 0, 0, 0, 0, 0, 0, 0, 0, 0, 0, 0, 1]⟩, some "left"⟩,
      ⟨.v6, ⟨[0xfe, 0x80, 0, 0, 0, 0, 0, 0, 0, 0, 0, 0, 0, 0, 0, 1]⟩, some "right"⟩, ⟨?_, ?_⟩, rfl, rfl, rfl, ?_⟩
    all_goals decide +kernel
  obtain ⟨he, hn, _⟩ := spellings_agree first same hd hs
  obtain ⟨_, _, h⟩ := spellings_agree first above hd ha
  exact ⟨⟨hd, hs, ha⟩, hw, he.mpr (.inr hw), hn hw, hr, h _ hr⟩

end AddressSpace.Loading
