import AddressSpace.Proofs.Address.Normal
import AddressSpace.Proofs.Loading.Reported

/-!
What becomes of an entry of a pool's list. It is read just when it spells an address, or two addresses of one
family in order, and what is read can be added to any pool. Otherwise it is reported as a fault of the
configuration, in words that repeat the entry as it was written.
-/

namespace AddressSpace

theorem Address.Source.ne_nil_of_resolve {t : Text} {a : Address} (h : (text t).resolve = .ok a) : t ≠ [] := by
  rintro rfl
  have hn : Host.ofText? [] = none := rfl
  simp [resolve, Text.trim, Text.trimStart, Text.trimEnd, hn] at h

namespace Entry

open Address (Source)

-- An entry names a single address, also with a dash behind it, or the addresses between two bounds. The bounds
-- stand on either side of the first dash.
inductive Names : Text → Interval → Prop
  | single {t a} : .char '-' ∉ t → (Source.text t).resolve = .ok a → Names t { first := a, last := a }
  | openEnd {t a} : .char '-' ∉ t → (Source.text t).resolve = .ok a →
    Names (t ++ [.char '-']) { first := a, last := a }
  | between {t u a b} {f : Family} : .char '-' ∉ t → (Source.text t).resolve = .ok a →
    (Source.text u).resolve = .ok b → a.length = f.octetCount → b.length = f.octetCount → a ≤ b →
    Names (t ++ .char '-' :: u) { first := a, last := b }

-- The entry that a fault repeats.
def Fault.entry? : Fault → Option Text
  | .blank => none
  | .address entry _ | .mixed entry | .reversed entry => some entry

variable {t u : Text} {i : Interval} {f : Fault}

/-! ### Entries that are read -/

theorem read_of_names (h : Names (Text.trim t) i) : read t = .ok i := by
  rw [read_eq_ok_iff]
  generalize Text.trim t = entry at h
  cases h
  case single a hd ha =>
    rw [bounds_of_not_mem hd]
    exact ⟨Source.ne_nil_of_resolve ha, ha, ha, rfl, Allocator.not_lt_self a⟩
  case openEnd a hd ha =>
    rw [bounds_append_dash hd]
    exact ⟨by simp, ha, ha, rfl, Allocator.not_lt_self a⟩
  case between a b f hd ha hb hl hk hle =>
    have he := hl.trans hk.symm
    rw [bounds_append_cons hd (Source.ne_nil_of_resolve hb)]
    exact ⟨by simp, ha, hb, he, (Address.not_lt_iff_le he).mpr hle⟩

theorem names_of_read (h : read t = .ok i) : Names (Text.trim t) i := by
  obtain ⟨_, ha, hb, he, hr⟩ := read_eq_ok_iff.mp h
  obtain ⟨a, b⟩ := i
  rcases Text.cut_cases (.char '-') (Text.trim t) with ⟨hd, _⟩ | ⟨first, last, hd, ht, _⟩
  case inl =>
    rw [bounds_of_not_mem hd] at ha hb
    cases ha.symm.trans hb
    exact .single hd ha
  case inr =>
    rw [ht] at ha hb ⊢
    cases last
    case nil =>
      rw [bounds_append_dash hd] at ha hb
      cases ha.symm.trans hb
      exact .openEnd hd ha
    case cons c last =>
      rw [bounds_append_cons hd (by simp)] at ha hb
      obtain ⟨f, hf⟩ := Source.length_of_resolve_text ha
      exact .between hd ha hb hf (he ▸ hf) ((Address.not_lt_iff_le he).mp hr)

/-! ### Entries that are refused -/

theorem entry?_of_read (h : read t = .error f) :
    f.entry? = if Text.trim t = [] then none else some (Text.trim t) := by
  simp only [read] at h
  by_cases hn : Text.trim t = []
  case pos =>
    obtain rfl : .blank = f := by simpa [hn] using h
    simp [hn, Fault.entry?]
  case neg =>
    rw [if_neg hn]
    cases ha : (Source.text (bounds (Text.trim t)).1).resolve <;> simp [hn, ha] at h
    case error e => exact h ▸ rfl
    case ok a =>
      cases hb : (Source.text (bounds (Text.trim t)).2).resolve <;> simp [hb] at h
      case error e => exact h ▸ rfl
      case ok b =>
        split at h
        case isFalse => cases h; rfl
        case isTrue  => split at h <;> cases h; rfl

-- Whatever is shown behind it, the entry comes first, and as it is.
theorem Fault.quoted_prefix_message {entry : Text} (h : f.entry? = some entry) :
    Text.ofString "Pool configuration error: Invalid pool range '" ++ entry ++ Text.ofString "'" <+: f.message := by
  have opening : Text.ofString "Pool configuration error: Invalid pool range '"
      = Text.ofString "Pool configuration error: " ++ Text.ofString "Invalid pool range '" :=
    Text.ofString_append "Pool configuration error: " "Invalid pool range '"
  have closing (s : String) : Text.ofString "'" <+: Text.ofString ("'" ++ s) := ⟨s, (Text.ofString_append ..).symm⟩
  rw [message, Notice.withDetails_configuration, opening]
  cases f <;> cases h <;> simp only [details, List.append_assoc, List.prefix_append_right_inj]
  case address fault => exact (closing ": ").trans (List.prefix_append _ fault.message)
  case mixed         => exact closing ": start and end are of different address families"
  case reversed      => exact closing ": start must be less than or equal to end"

theorem Fault.message_of_blank (h : f.entry? = none) :
    f.message = "Pool configuration error: empty pool range entry" := by
  cases f <;> cases h
  rw [message, Notice.withDetails_configuration]
  exact (Text.ofString_append "Pool configuration error: " "empty pool range entry").symm

/-! ### All entries -/

-- What is read from an entry can be added to any pool.
theorem outcome_add_of_read {s : PoolSet} (hs : s.Sound) (h : read t = .ok i) (n : PoolName) :
    s.outcome (.call n.text (.add (.octets i.first) (.octets i.last))) = .ok .done := by
  obtain ⟨f, hi⟩ := fits_of_read h
  simp [PoolSet.outcome, PoolSet.perform, PoolSet.named_text, Pool.perform, Loading.pool_add_of_fits hs hi]

-- An entry is read exactly if it names an address or a stretch of one family in order. What is read can be
-- added to every pool that can be reached. All other entries are reported as faults of the configuration,
-- and unless there is nothing but blanks, the report quotes what was written as it is.
theorem read_or_reported (t : Text) :
    (∀ i, read t = .ok i ↔ Names (Text.trim t) i)
    ∧ (∀ i, read t = .ok i → (i.first.length = 4 ∨ i.first.length = 16) ∧ i.first.length = i.last.length
      ∧ i.first ≤ i.last ∧ ∀ s : PoolSet, s.Reachable → ∀ n : PoolName,
        s.outcome (.call n.text (.add (.octets i.first) (.octets i.last))) = .ok .done
        ∧ (Loading.entry n t s).fault = none)
    ∧ ∀ f, read t = .error f → (Loading.Fault.entry f).notice? = some .configuration
      ∧ (Text.trim t = [] → f.message = "Pool configuration error: empty pool range entry")
      ∧ (Text.trim t ≠ [] → Text.ofString "Pool configuration error: Invalid pool range '" ++ Text.trim t
        ++ Text.ofString "'" <+: f.message) := by
  refine ⟨fun i => ⟨names_of_read, read_of_names⟩, fun i h => ?_, fun f h => ⟨rfl, fun hn => ?_, fun hn => ?_⟩⟩
  · obtain ⟨_, ha, _, he, hr⟩ := read_eq_ok_iff.mp h
    refine ⟨Address.length_of_resolve ha, he, (Address.not_lt_iff_le he).mp hr, fun s hs n => ?_⟩
    exact ⟨outcome_add_of_read hs.sound h n, (Loading.Step.Supplies.entry h s hs.sound).left⟩
  · exact Fault.message_of_blank (by simp [entry?_of_read h, hn])
  · exact Fault.quoted_prefix_message (by simp [entry?_of_read h, hn])

-- A scope may look like a field of a template, and is repeated all the same.
example : (read " fe80::2%(x)s-fe80::1 ").mapError Fault.message
    = .error ("Pool configuration error: Invalid pool range 'fe80::2%(x)s-fe80::1': " ++
      "start must be less than or equal to end" : String) := by
  decide +kernel

end Entry

end AddressSpace
