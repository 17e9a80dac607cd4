import AddressSpace.Proofs.Document.Checked
import AddressSpace.Proofs.Document.Wording
import AddressSpace.Proofs.Loading.Supply

/-!
Documents are loaded all or not at all. Ranges are put in one after the other, with no way back, and yet
none of them can fail: the check of the whole document has left only ranges that every pool accepts. The
one thing that a refusal may lack is its issues, when their wording cannot be written.
-/

namespace AddressSpace

namespace Document

-- The ranges of a document, in the order in which they are put in.
def listed (d : Document) : List (PoolName × Range) :=
  d.toList.flatMap fun (n, rs) => rs.map (n, ·)

-- The stretch of a range, for the pool that it is listed for.
def Range.supply (n : PoolName) (r : Range) : Supply :=
  (Loading.stretch r).toOption.toList.map (n, ·)

def supply (d : Document) : Supply :=
  d.listed.flatMap fun (n, r) => r.supply n

variable {d : Document} {n m : PoolName} {r : Range} {i : Interval} {input : Input} {issues : List Issue}

theorem mem_listed : (n, r) ∈ d.listed ↔ r ∈ d.get n := by
  simp only [listed, PerPool.toList, List.mem_flatMap, List.mem_map]
  constructor
  · rintro ⟨_, ⟨_, _, rfl⟩, _, h, he⟩
    cases he
    exact h
  · intro h
    exact ⟨_, ⟨n, PoolName.mem_all n, rfl⟩, r, h, rfl⟩

theorem Range.mem_supply : (m, i) ∈ r.supply n ↔ m = n ∧ Loading.stretch r = .ok i := by
  simp only [Range.supply]
  cases Loading.stretch r <;> simp [Except.toOption, eq_comm]

theorem mem_supply : (n, i) ∈ d.supply ↔ ∃ r ∈ d.get n, Loading.stretch r = .ok i := by
  simp only [supply, List.mem_flatMap, Prod.exists, mem_listed, Range.mem_supply]
  constructor
  · rintro ⟨_, r, h, rfl, hi⟩
    exact ⟨r, h, hi⟩
  · rintro ⟨r, h, hi⟩
    exact ⟨n, r, h, rfl, hi⟩

theorem covers_supply_iff {f : Family} {x : Address} : d.supply.Covers n f x ↔
    ∃ r ∈ d.get n, ∃ i, Loading.stretch r = .ok i ∧ x ∈ i.addresses ∧ x.length = f.octetCount := by
  simp only [Supply.Covers, mem_supply]
  constructor
  · rintro ⟨i, ⟨r, hr, hs⟩, hx⟩
    exact ⟨r, hr, i, hs, hx⟩
  · rintro ⟨r, hr, i, hs, hx⟩
    exact ⟨i, ⟨r, hr, hs⟩, hx⟩

end Document

namespace Loading

open Document (Input Issue)

variable {s : PoolSet} {n : PoolName} {f : Family} {i : Interval} {r : Document.Range} {d : Document}
variable {input : Input} {issues : List Issue}

theorem range_of_names (h : r.Names f i) : range n r = seed n i := by
  funext s
  simp [range, h.stretch]

theorem Step.Supplies.range (h : r.Names f i) : (range n r).Supplies (r.supply n) := by
  have he : r.supply n = [(n, i)] := by simp [Document.Range.supply, h.stretch, Except.toOption]
  rw [range_of_names h, he]
  exact seed h.fits

-- A document that passes its check is put in without a fault.
theorem Step.Supplies.document (h : Document.check input = .ok d) : (document input).Supplies d.supply := by
  intro s hs
  have hr : Step.Supplies (inOrder (d.listed.map fun (n, r) => Loading.range n r)) d.supply :=
    inOrder_map fun p hm => by
      obtain ⟨_, _, hn⟩ := Document.names_of_check h p.1 p.2 (Document.mem_listed.mp hm)
      exact range hn
  have he : Loading.document input s
      = (inOrder (d.listed.map fun (n, r) => Loading.range n r) s).andThen
          (Loading.report "document") := by
    simp [Loading.document, Document.read, h, Document.listed, List.map_flatMap, Function.comp_def]
  obtain ⟨hf, hp⟩ := hr s hs
  rw [he, ← List.append_nil d.supply]
  exact andThen hf hp report

-- A document that does not pass leaves the pools alone.
theorem document_of_error (h : Document.check input = .error issues) : (document input s).pools = s
    ∧ (((document input s).fault = some (.document issues input.form) ∧ ∀ i ∈ issues, i.Writable)
      ∨ ((∃ f, (document input s).fault = some (.unwritable f)) ∧ ∃ i ∈ issues, ¬ i.Writable)) := by
  simp only [document, Document.read, h, Outcome.mapError_error]
  rcases Document.Refusal.ofIssues_cases issues with ⟨he, hw⟩ | ⟨⟨f, he⟩, hn⟩
  · rw [he]
    exact ⟨rfl, .inl ⟨rfl, hw⟩⟩
  · rw [he]
    exact ⟨rfl, .inr ⟨⟨f, rfl⟩, hn⟩⟩

theorem document_of_text_error {t : Text} (h : Document.check (.text t) = .error issues) :
    (document (.text t) s).fault = some (.document issues .text) := by
  have hw : ∀ i ∈ issues, i.Writable := fun i hi =>
    Document.writable_check_text t i (h ▸ hi)
  cases (document_of_error (s := s) h).right
  case inl hf => exact hf.left
  case inr hf =>
    obtain ⟨_, i, hi, hn⟩ := hf
    exact absurd (hw i hi) hn

-- A document is put in as a whole, or it is refused and nothing changes. What is put in, in each
-- allocator, is what the document lists for the pool in addresses of the family. No range of a document
-- that passes its check can fail, whatever the pools hold. A refusal comes with the issues, unless the
-- document was not read from text and one of its issues repeats a bound that cannot be written.
theorem document_all_or_nothing (s : PoolSet) (hs : s.Reachable) (input : Input) :
    let o := document input s
    (∀ d, Document.check input = .ok d → o.fault = none
      ∧ (∀ n f, (o.pools.allocator n f).octetCount = (s.allocator n f).octetCount
        ∧ (o.pools.allocator n f).free.Canonical f.octetCount
        ∧ ∀ x, x ∈ (o.pools.allocator n f).free.addresses ↔ x ∈ (s.allocator n f).free.addresses
          ∨ ∃ r ∈ d.get n, ∃ i, stretch r = .ok i ∧ x ∈ i.addresses ∧ x.length = f.octetCount)
      ∧ ∀ n, ∀ r ∈ d.get n, ∃ i, stretch r = .ok i
        ∧ ∀ t : PoolSet, t.Reachable → (seed n i t).fault = none)
    ∧ ∀ issues, Document.check input = .error issues → o.pools = s
      ∧ (input.form = .text → o.fault = some (.document issues .text))
      ∧ ((o.fault = some (.document issues input.form) ∧ ∀ i ∈ issues, i.Writable)
        ∨ ((∃ f, o.fault = some (.unwritable f)) ∧ ∃ i ∈ issues, ¬ i.Writable)) := by
  intro o
  constructor
  · intro d hd
    have ⟨hf, hp⟩ := Step.Supplies.document hd s hs.sound
    refine ⟨hf, fun n f => ⟨?_, hp.sound.free_canonical n f, fun x => ?_⟩, fun n r hr => ?_⟩
    · rw [hp.sound.octetCount, hs.sound.octetCount]
    · rw [hp.mem_free, Document.covers_supply_iff]
    · have ⟨_, i, hn⟩ := Document.names_of_check hd n r hr
      exact ⟨i, hn.stretch, fun t ht => (seed_of_fits ht.sound hn.fits).left⟩
  · intro issues hi
    refine ⟨(document_of_error hi).left, fun ht => ?_, (document_of_error hi).right⟩
    cases input
    case value => cases ht
    case text  => exact document_of_text_error hi

-- A pool with a range of each family.
def twoFamilies : Json :=
  .obj [("pod-ip-pool", .arr [
    .obj [("start", .str "10.0.0.1"), ("end", .str " 10.0.0.3 ")],
    .obj [("start", .str "fd00::1"), ("end", .str "fd00::1")]])]

theorem document_all_or_nothing_of_twoFamilies :
    let o := document (.value twoFamilies) .empty
    PoolSet.Reachable .empty ∧ o.fault = none
    ∧ ∃ d, Document.check (.value twoFamilies) = .ok d
      ∧ d.get .pod = [⟨"10.0.0.1", "10.0.0.3"⟩, ⟨"fd00::1", "fd00::1"⟩]
      ∧ ∀ n f x, x ∈ (o.pools.allocator n f).free.addresses ↔
        x ∈ (PoolSet.allocator .empty n f).free.addresses
        ∨ ∃ r ∈ d.get n, ∃ i, stretch r = .ok i ∧ x ∈ i.addresses ∧ x.length = f.octetCount := by
  have hd : Document.check (.value twoFamilies) = .ok (.ofFn fun
      | .pod => [⟨"10.0.0.1", "10.0.0.3"⟩, ⟨"fd00::1", "fd00::1"⟩]
      | _    => []) := by rfl
  have h := (document_all_or_nothing .empty .empty (.value twoFamilies)).left _ hd
  exact ⟨.empty, h.left, _, hd, rfl, fun n f => (h.right.left n f).right.right⟩

-- A range that mixes families, with half of a surrogate pair in the scope of its first address.
def mixedRange : Json :=
  .obj [("pod-ip-pool", .arr [
    .obj [("start", .str (Text.ofString "::1%" ++ [.half 0x7ff])), ("end", .str "10.0.0.1")]])]

-- The range is refused, but not with its issue: the wording cannot be written.
theorem document_mixedRange_unwritable :
    (document (.value mixedRange) .empty).fault = some (.unwritable ⟨10, 1, 0x7ff⟩)
    ∧ (document (.value mixedRange) .empty).fault ≠ none
    ∧ ∀ issues form, (document (.value mixedRange) .empty).fault ≠ some (.document issues form) := by
  have h : (document (.value mixedRange) .empty).fault = some (.unwritable ⟨10, 1, 0x7ff⟩) := by rfl
  refine ⟨h, by simp [h], by simp [h]⟩

end Loading

end AddressSpace
