import AddressSpace.Proofs.Json.Grammar
import AddressSpace.Proofs.Loading.Reported
import AddressSpace.Proofs.Text.Utf8

/-!
A document that settings name, and the same document handed over as text. Files are read in a wider
dialect, but a text that the grammar spells has one value in both, and the value is checked alike. The
exception is a value that is nothing but a string: found in a file, it is taken for the text of a document.
-/

namespace AddressSpace

theorem Document.check_text_of_read {cs : List Char} {v : Json} (h : Json.read .strict cs = .ok v) :
    check (.text (.ofChars cs)) = ofJson v := by
  simp [check, h]

theorem Document.writable_check_of_read {cs : List Char} {v : Json} (h : Json.read .strict cs = .ok v) :
    (check (.ofJson v)).Writable := by
  cases v
  case str t => exact writable_check_text t
  all_goals exact writable_ofJson (Json.whole_of_read rfl h)

namespace Loading

variable {s : PoolSet} {maxDepth levels : Nat} {files : Files} {p : Path} {c : Settings} {cs : List Char} {v : Json}
variable {input input' : Document.Input} {issues issues' : List Document.Issue} {d : Document}

-- A fault of the configuration was found before anything changed.
structure Outcome.Refused (o : Outcome) (s : PoolSet) : Prop where
  fault : ∃ e, o.fault = some e ∧ e.notice? = some .configuration
  pools : o.pools = s

-- Two ways to load into the same pools both succeed, with the same free ranges, or both are refused.
inductive Alike (s : PoolSet) (o o' : Outcome) : Prop
  | loaded (h : o.fault = none) (h' : o'.fault = none)
    (hp : ∀ n f, (o.pools.allocator n f).free = (o'.pools.allocator n f).free)
  | refused (h : o.Refused s) (h' : o'.Refused s)

theorem refused_of_error (h : Document.check input = .error issues) (hw : ∀ i ∈ issues, i.Writable) :
    (document input s).Refused s := by
  have ⟨hp, hf⟩ := document_of_error h (s := s)
  cases hf
  case inl hf => exact ⟨⟨_, hf.left, rfl⟩, hp⟩
  case inr hf =>
    have ⟨_, i, hi, hn⟩ := hf
    exact absurd (hw i hi) hn

-- What a document does depends on its check alone, if a refusal can be put into words.
theorem alike_of_check_eq (hs : s.Sound) (hc : Document.check input = Document.check input')
    (hw : (Document.check input).Writable) : Alike s (document input s) (document input' s) := by
  cases h : Document.check input
  case error issues =>
    rw [h] at hw
    exact .refused (refused_of_error h hw) (refused_of_error (hc ▸ h) hw)
  case ok d =>
    have ⟨hf, hp⟩ := Step.Supplies.document h s hs
    have ⟨hf', hp'⟩ := Step.Supplies.document (hc ▸ h) s hs
    exact .loaded hf hf' fun n f => by rw [hp.ext hp' fun _ _ _ => Iff.rfl]

theorem not_alike_of_check_ok (hs : s.Sound) (h : Document.check input = .ok d)
    (h' : Document.check input' = .error issues) : ¬ Alike s (document input s) (document input' s) := by
  intro ha
  cases ha
  case loaded _ hf _ => exact fault_of_error h' hf
  case refused hr _ =>
    have ⟨_, hf, _⟩ := hr.fault
    simp [(Step.Supplies.document h s hs).left] at hf

-- The file is read as the text that it holds.
theorem readDocument_of_read (hf : files.Has p (Text.Utf8.encode cs))
    (hv : Json.read (.lenient maxDepth) cs = .ok v) : readDocument maxDepth files p = .ok (.ofJson v) := by
  simp [readDocument_of_has maxDepth hf, Text.Utf8.decode_encode, hv]

theorem settings_of_noEntries {path : Text} (hc : c.allEntries = []) (hp : c.documentPath = some path) :
    settings maxDepth files c s = documentFile maxDepth files (.ofText path) s := by
  simp [settings, hc, hp, inOrder, Outcome.andThen]

-- A text that both readers accept as one value is loaded alike from a file that settings name and on its own,
-- unless it is a string that holds a document itself: that one is loaded from the file, and refused as
-- a text.
theorem alike_iff_of_read {path : Text} (hs : s.Sound) (hc : c.allEntries = [])
    (hp : c.documentPath = some path) (hf : files.Has (.ofText path) (Text.Utf8.encode cs))
    (hv : Json.read .strict cs = .ok v) (hl : Json.read (.lenient maxDepth) cs = .ok v) :
    Alike s (settings maxDepth files c s) (document (.text (.ofChars cs)) s) ↔
      ¬ ∃ t d, v = .str t ∧ Document.check (.text t) = .ok d := by
  have hw := Document.writable_check_of_read hv
  have ht := Document.check_text_of_read hv
  rw [settings_of_noEntries hc hp, documentFile_of_read (readDocument_of_read hf hl)]
  cases v
  case str t =>
    -- As a text, a string is no document, whatever it holds.
    cases hd : Document.check (.text t)
    case ok d => exact iff_of_false (not_alike_of_check_ok hs hd ht) (not_not.mpr ⟨t, d, rfl, hd⟩)
    case error issues =>
      have hwt := Document.writable_check_text t
      rw [hd] at hwt
      refine iff_of_true (.refused (refused_of_error hd hwt) (refused_of_error ht ?_)) ?_
      · simp [Document.Issue.Writable, Document.Cause.repeated]
      · rintro ⟨_, d, he, hn⟩
        cases he
        simp [hd] at hn
  all_goals
    refine iff_of_true (alike_of_check_eq hs ht.symm hw) ?_
    rintro ⟨_, _, he, _⟩
    cases he

-- The same for whatever the grammar of JSON texts spells within the limits of both readers, as they read all
-- of it.
theorem settings_alike_document_iff (s : PoolSet) (hs : s.Reachable) (maxDepth : Nat) (files : Files)
    (c : Settings) (path : Text) (cs : List Char) (v : Json) (levels : Nat) (hc : c.allEntries = [])
    (hp : c.documentPath = some path) (hf : files.Has (.ofText path) (Text.Utf8.encode cs))
    (hv : Json.Grammar.Spells levels cs v) (hs' : levels ≤ Json.Dialect.strict.maxDepth) (hl : levels < maxDepth) :
    Alike s (settings maxDepth files c s) (document (.text (.ofChars cs)) s) ↔
      ¬ ∃ t d, v = .str t ∧ Document.check (.text t) = .ok d :=
  alike_iff_of_read hs.sound hc hp hf (Json.Grammar.read_of_spells (hv.mono hs'))
    (Json.Grammar.read_lenient_of_spells hv hl)

-- A document with one range.
def oneRange : String :=
  "\x7b\"pod-ip-pool\": [\x7b\"start\": \"10.0.0.1\", \"end\": \"10.0.0.2\"\x7d]\x7d"

-- The same document as a JSON string.
def oneRangeInQuotes : String :=
  "\"\x7b\\\"pod-ip-pool\\\": [\x7b\\\"start\\\": \\\"10.0.0.1\\\", \\\"end\\\": \\\"10.0.0.2\\\"\x7d]\x7d\""

-- Every file holds the text.
def holding (text : String) : Files :=
  fun _ => .ok (Text.Utf8.encode text.toList)

section

open Json.Grammar

variable {ts : List Json.Token}

theorem lexes_escaped (t : String) (h : t.toList.all fun c => decide (0x20 ≤ c.toNat)) (hl : Lexes cs ts) :
    Lexes ('"' :: (escaped t.toList ++ '"' :: cs)) (.string t :: ts) :=
  .string (body_escaped (by simpa using h)) hl

theorem lexes_key (k : String) (h : k.toList.all fun c => decide (0x20 ≤ c.toNat)) (hl : Lexes cs ts) :
    Lexes ('"' :: (escaped k.toList ++ '"' :: ':' :: ' ' :: cs)) (.string k :: .colon :: ts) :=
  lexes_escaped k h (.mark rfl (.space rfl hl))

theorem spells_oneRange : Spells Json.Dialect.strict.maxDepth oneRange.toList (.obj [("pod-ip-pool", .arr
    [.obj [("start", .str "10.0.0.1"), ("end", .str "10.0.0.2")]])]) := by
  have hn := Lexes.mark (c := '\x7d') rfl (.mark (c := ']') rfl (.mark (c := '\x7d') rfl .nil))
  have hu := lexes_key "end" (by decide) (lexes_escaped "10.0.0.2" (by decide) hn)
  have hl := lexes_escaped "10.0.0.1" (by decide) (.mark (c := ',') rfl (.space (c := ' ') rfl hu))
  have hr := Lexes.mark (c := '[') rfl (.mark (c := '\x7b') rfl (lexes_key "start" (by decide) hl))
  have ht := Lexes.mark (c := '\x7b') rfl (lexes_key "pod-ip-pool" (by decide) hr)
  exact ⟨_, ht, .object (.lastMember (.array (.lastItem (.object (.member .string (.lastMember .string))))))⟩

theorem spells_oneRangeInQuotes :
    Spells Json.Dialect.strict.maxDepth oneRangeInQuotes.toList (.str oneRange) :=
  ⟨_, lexes_escaped oneRange (by decide) .nil, .string⟩

end

theorem check_oneRange : Document.check (.text oneRange) = .ok (.ofFn fun
    | .pod => [⟨"10.0.0.1", "10.0.0.2"⟩]
    | _    => []) :=
  (Document.check_text_of_read (Json.Grammar.read_of_spells spells_oneRange)).trans rfl

theorem settings_alike_document_iff_of_oneRange :
    PoolSet.Reachable .empty
    ∧ Alike .empty (settings Json.usualDepth (holding oneRange) documentOnly .empty) (document (.text oneRange) .empty)
    ∧ ¬ Alike .empty (settings Json.usualDepth (holding oneRangeInQuotes) documentOnly .empty)
      (document (.text oneRangeInQuotes) .empty) := by
  have h {text : String} (v : Json) (hv : Json.Grammar.Spells Json.Dialect.strict.maxDepth text.toList v) :=
    settings_alike_document_iff .empty .empty Json.usualDepth (holding text) documentOnly "pools.json" text.toList
      v _ rfl rfl ⟨rfl, rfl⟩ hv le_rfl (by decide)
  refine ⟨.empty, (h _ spells_oneRange).mpr nofun, ?_⟩
  exact mt (h _ spells_oneRangeInQuotes).mp (not_not.mpr ⟨_, _, rfl, check_oneRange⟩)

-- From the file the document in quotes is loaded, as a text it is refused.
theorem settings_oneRangeInQuotes_not_alike :
    let o := settings Json.usualDepth (holding oneRangeInQuotes) documentOnly .empty
    let o' := document (.text oneRangeInQuotes) .empty
    Json.Grammar.Spells Json.Dialect.strict.maxDepth oneRangeInQuotes.toList (.str oneRange)
    ∧ o.fault = none ∧ (o.pools.allocator .pod .v4).free = [⟨⟨[10, 0, 0, 1]⟩, ⟨[10, 0, 0, 2]⟩⟩]
    ∧ o'.fault = some (.document [⟨[], .notObject .document⟩] .text) ∧ o'.pools = .empty
    ∧ ¬ Alike .empty o o' := by
  intro o o'
  have hv := Json.Grammar.read_of_spells spells_oneRangeInQuotes
  have hlevels : Json.Dialect.strict.maxDepth < Json.usualDepth := by decide
  have hl := Json.Grammar.read_lenient_of_spells spells_oneRangeInQuotes hlevels
  have ho : o = document (.text oneRange) .empty := by
    refine (settings_of_noEntries rfl rfl).trans (documentFile_of_read ?_)
    exact readDocument_of_read (v := .str oneRange) ⟨rfl, rfl⟩ hl
  have hc := Document.check_text_of_read hv
  refine ⟨spells_oneRangeInQuotes, ?_, ?_, document_of_text_error hc, (document_of_error hc).left, ?_⟩
  · exact ho ▸ (Step.Supplies.document check_oneRange _ PoolSet.Reachable.empty.sound).left
  · rw [ho]
    simp only [document, Document.read, check_oneRange]
    rfl
  · exact ho ▸ not_alike_of_check_ok PoolSet.Reachable.empty.sound check_oneRange hc

end Loading

end AddressSpace
