import AddressSpace.Proofs.Loading.Settings
import AddressSpace.Proofs.Notice

/-!
Which faults of loading are reported as faults of the configuration. Whatever is wrong with an entry or
with the contents of a document is; what goes past that report is a path that can name no file, a file
that is not UTF-8, a document that nests too deep, and a refusal that repeats text that cannot be written.
-/

namespace AddressSpace.Loading

variable {f : Fault}

-- The notice that a fault is reported under. Faults that come from the system are under none.
def Fault.notice? : Fault → Option Notice
  | .entry _ | .seed .. | .document .. | .unreadable .. | .notJson _ | .overlong .. => some .configuration
  | .address _ => some .invalidAddress
  | .unwritable _ | .unnamable _ | .undecodable _ | .tooDeep _ => none

-- The message tells which faults are reported as faults of the configuration.
theorem Fault.notice?_eq_configuration_iff : f.notice? = some .configuration ↔
    ∃ details, f.message = Notice.configuration.withDetails details := by
  simp only [Notice.withDetails_configuration]
  -- All other messages open with another letter.
  have other {c : Char} (h : f.message.head? = some (.char c)) (hc : c ≠ 'P') :
      ¬ ∃ details, f.message = "Pool configuration error: " ++ details := by
    rintro ⟨details, hd⟩
    have hp : f.message.head? = some (.char 'P') := by
      rw [hd]
      rfl
    exact hc (by simpa [h] using hp)
  cases f
  case document issues form =>
    let count := s!": {issueCount issues.length} for PoolDocument"
    refine iff_of_true rfl ⟨"Invalid pool document" ++ Text.ofString count, ?_⟩
    simp only [message, refusal, Notice.withDetails_configuration, List.append_assoc, count]
  case address g     => exact iff_of_false nofun (other rfl (by decide))
  case unwritable g  => exact iff_of_false nofun (other g.head?_message (by decide))
  case undecodable g => exact iff_of_false nofun (other g.head?_message (by decide))
  case unnamable g =>
    cases g
    case unwritable g => exact iff_of_false nofun (other g.head?_message (by decide))
    case nullOctet    => exact iff_of_false nofun (other rfl (by decide))
  case tooDeep c => cases c <;> exact iff_of_false nofun (other rfl (by decide))
  all_goals exact iff_of_true rfl ⟨_, Notice.withDetails_configuration _⟩

end AddressSpace.Loading

namespace AddressSpace

-- The path names a file with these octets.
structure Files.Has (files : Files) (p : Path) (octets : List UInt8) : Prop where
  namable : Path.fault? p.text = none
  read    : files p = .ok octets

namespace Loading

-- What may be wrong with a document file that is not reported as a fault of the configuration.
inductive Unreportable (maxDepth : Nat) (files : Files) (p : Path) : Prop
  | unnamable {f} (h : Path.fault? p.text = some f)
  | undecodable {octets f} (h : files.Has p octets) (hd : Text.Utf8.decode octets = .error f)
  | tooDeep {octets cs k} (h : files.Has p octets) (hd : Text.Utf8.decode octets = .ok cs)
    (hr : Json.read (.lenient maxDepth) cs = .error (.tooDeep k))
  | unwritable {octets cs v issues i} (h : files.Has p octets) (hd : Text.Utf8.decode octets = .ok cs)
    (hr : Json.read (.lenient maxDepth) cs = .ok v) (hc : Document.check (.ofJson v) = .error issues)
    (hi : i ∈ issues) (hw : ¬ i.Writable)

-- A fault that is not one of the configuration ended the step.
def Outcome.Unreported (o : Outcome) : Prop :=
  ∃ e, o.fault = some e ∧ e.notice? ≠ some .configuration

variable {s : PoolSet} {maxDepth : Nat} {files : Files} {p : Path} {octets : List UInt8}

-- What was read is only refused out of line if the refusal cannot be written.
theorem unreported_document_iff {input : Document.Input} (hs : s.Sound) :
    (document input s).Unreported ↔
      ∃ issues, Document.check input = .error issues ∧ ∃ i ∈ issues, ¬ i.Writable := by
  cases hc : Document.check input
  case ok d =>
    have hf := (Step.Supplies.document hc s hs).left
    simp [Outcome.Unreported, hf]
  case error issues =>
    simp only [Except.error.injEq, exists_eq_left']
    cases (document_of_error hc (s := s)).right
    case inl h => simpa [Outcome.Unreported, h.left, Fault.notice?] using h.right
    case inr h =>
      have ⟨⟨f, hf⟩, hi⟩ := h
      simpa [Outcome.Unreported, hf, Fault.notice?] using hi

theorem readDocument_of_has (maxDepth : Nat) (h : files.Has p octets) : readDocument maxDepth files p = do
    let cs ← (Text.Utf8.decode octets).mapError .undecodable
    let v ← (Json.read (.lenient maxDepth) cs).mapError (.ofJson p)
    return .ofJson v := by
  simp [readDocument, h.namable, h.read]

theorem unreported_of_unread {e : Fault} (h : readDocument maxDepth files p = .error e) :
    (documentFile maxDepth files p s).Unreported ↔ e.notice? ≠ some .configuration := by
  simp [Outcome.Unreported, (documentFile_of_unread h).left]

theorem unreported_documentFile_iff (hs : s.Sound) :
    (documentFile maxDepth files p s).Unreported ↔ Unreportable maxDepth files p := by
  constructor
  · intro hu
    cases hn : Path.fault? p.text
    case some f => exact .unnamable hn
    case none =>
      cases hr : files p
      case error f =>
        have h : readDocument maxDepth files p = .error (.unreadable p f) := by simp [readDocument, hn, hr]
        exact absurd rfl ((unreported_of_unread h).mp hu)
      case ok octets =>
        have hf : files.Has p octets := ⟨hn, hr⟩
        have h := readDocument_of_has maxDepth hf
        cases hd : Text.Utf8.decode octets <;> rw [hd] at h
        case error f => exact .undecodable hf hd
        case ok cs =>
          cases hv : Json.read (.lenient maxDepth) cs <;> simp [hv] at h
          case error f =>
            have hu := (unreported_of_unread h).mp hu
            cases f
            case tooDeep k => exact .tooDeep hf hd hv
            all_goals exact absurd rfl hu
          case ok v =>
            rw [documentFile_of_read h] at hu
            have ⟨issues, hc, i, hi, hw⟩ := (unreported_document_iff hs).mp hu
            exact .unwritable hf hd hv hc hi hw
  · intro hu
    cases hu
    case unnamable f hn =>
      have h : readDocument maxDepth files p = .error (.unnamable f) := by simp [readDocument, hn]
      exact (unreported_of_unread h).mpr nofun
    case undecodable f hf hd =>
      have h : readDocument maxDepth files p = .error (.undecodable f) := by simp [readDocument_of_has maxDepth hf, hd]
      exact (unreported_of_unread h).mpr nofun
    case tooDeep k hf hd hr =>
      have h : readDocument maxDepth files p = .error (.tooDeep k) := by
        simp [readDocument_of_has maxDepth hf, hd, hr, Fault.ofJson]
      exact (unreported_of_unread h).mpr nofun
    case unwritable hf hd hr hc hi hw =>
      have h := readDocument_of_has maxDepth hf
      simp [hd, hr] at h
      rw [documentFile_of_read h]
      exact (unreported_document_iff hs).mpr ⟨_, hc, _, hi, hw⟩

theorem unreported_settings_iff {c : Settings} (hs : s.Sound) : (settings maxDepth files c s).Unreported ↔
    (∀ p ∈ c.allEntries, ∃ i, Entry.read p.2 = .ok i)
    ∧ ∃ path, c.documentPath = some path ∧ Unreportable maxDepth files (.ofText path) := by
  by_cases h : ∀ p ∈ c.allEntries, ∃ i, Entry.read p.2 = .ok i
  case neg =>
    obtain ⟨before, ⟨n, t⟩, after, e, hc, hb, he⟩ :=
      Outcome.exists_first_error (Outcome.not_forall_ok_iff.mp h)
    have hf := (settings_of_refused maxDepth files hs hc hb he).left
    refine iff_of_false ?_ fun hu => h hu.left
    simp [Outcome.Unreported, hf, Fault.notice?]
  case pos =>
    obtain ⟨hu, hn, hd⟩ := settings_of_read maxDepth files hs h
    rw [and_iff_right h]
    cases hp : c.documentPath
    case none => simp [Outcome.Unreported, (hn hp).left]
    case some path =>
      simp only [Option.some.injEq, exists_eq_left', ← unreported_documentFile_iff hu,
        Outcome.Unreported, (hd path hp).left]

-- Loading from settings succeeds or ends in a fault of the configuration, with a message that says so,
-- whatever the entries are. What is not reported like that lies in the document file alone. This holds for every
-- depth to which the file may nest.
theorem settings_reported_iff (s : PoolSet) (hs : s.Reachable) (maxDepth : Nat) (files : Files) (c : Settings) :
    let o := settings maxDepth files c s
    (o.fault = none ∨ ∃ e, o.fault = some e ∧ e.notice? = some .configuration
      ∧ ∃ details, e.message = Notice.configuration.withDetails details)
    ↔ ¬ ((∀ p ∈ c.allEntries, ∃ i, Entry.read p.2 = .ok i)
      ∧ ∃ path, c.documentPath = some path ∧ Unreportable maxDepth files (.ofText path)) := by
  intro o
  rw [← unreported_settings_iff hs.sound, Outcome.Unreported]
  cases hf : o.fault <;> simp [← Fault.notice?_eq_configuration_iff]

-- Nothing but a document is named.
def documentOnly : Settings :=
  { entries := .ofFn fun _ => [], document := some "pools.json" }

-- Every file holds one octet that opens no character.
def strayOctet : Files :=
  fun _ => .ok [0xff]

theorem settings_reported_iff_of_two :
    PoolSet.Reachable .empty
    ∧ (∃ e, (settings Json.usualDepth noFiles documentOnly .empty).fault = some e ∧ e.notice? = some .configuration)
    ∧ ¬ ((settings Json.usualDepth strayOctet documentOnly .empty).fault = none
      ∨ ∃ e, (settings Json.usualDepth strayOctet documentOnly .empty).fault = some e ∧ e.notice? = some .configuration
        ∧ ∃ details, e.message = Notice.configuration.withDetails details) := by
  refine ⟨.empty, ?_, ?_⟩
  · have h := (settings_reported_iff .empty .empty Json.usualDepth noFiles documentOnly).mpr fun ⟨_, path, hp, hu⟩ => by
      cases hp
      cases hu
      case unnamable h => cases h
      all_goals cases ‹noFiles.Has _ _›.read
    cases h
    case inl h => cases h
    case inr h =>
      obtain ⟨e, hf, hn, _⟩ := h
      exact ⟨e, hf, hn⟩
  · refine mt (settings_reported_iff .empty .empty Json.usualDepth strayOctet documentOnly).mp (not_not.mpr ?_)
    exact ⟨nofun, "pools.json", rfl, .undecodable ⟨rfl, rfl⟩ rfl⟩

-- The octets of the file are refused, but not as a fault of the configuration.
theorem settings_strayOctet_unreported :
    (settings Json.usualDepth strayOctet documentOnly .empty).fault = some (.undecodable ⟨0, 1, 0xff, .start⟩)
    ∧ ∀ e, (settings Json.usualDepth strayOctet documentOnly .empty).fault = some e →
      ¬ ∃ details, e.message = Notice.configuration.withDetails details := by
  have h : (settings Json.usualDepth strayOctet documentOnly .empty).fault
    = some (.undecodable ⟨0, 1, 0xff, .start⟩) := by rfl
  refine ⟨h, fun e he => ?_⟩
  rw [← Fault.notice?_eq_configuration_iff, ← Option.some.inj (h.symm.trans he)]
  exact nofun

end Loading

end AddressSpace
