import AddressSpace.Proofs.Loading.Settings

/-!
Free ranges that are printed and loaded again. Every range is read back as it was, in an entry of settings
as well as in a document; so what is loaded into empty pools covers what was free, and free lists are told
apart by what they cover.
-/

namespace AddressSpace

variable {s : PoolSet} {l : Supply} {n : PoolName} {f : Family} {i : Interval} {is : List Interval}

/-! ### Free ranges -/

namespace PoolSet

-- All free ranges of a pool.
def listed (s : PoolSet) (n : PoolName) : FreeList :=
  (s.allocator n .v4).free ++ (s.allocator n .v6).free

theorem mem_listed : i ∈ s.listed n ↔ ∃ f, i ∈ (s.allocator n f).free := by
  rw [listed, List.mem_append]
  constructor
  · exact (·.elim (⟨.v4, ·⟩) (⟨.v6, ·⟩))
  · rintro ⟨f, h⟩
    cases f
    case v4 => exact .inl h
    case v6 => exact .inr h

theorem Sound.fits_of_mem_listed (hs : s.Sound) (h : i ∈ s.listed n) : ∃ f : Family, i.Fits f.octetCount := by
  have ⟨f, hi⟩ := mem_listed.mp h
  exact ⟨f, (hs.free_canonical n f).fits hi⟩

-- Empty pools are filled to the same pools by their free ranges, in any order.
theorem Sound.supplied (hs : s.Sound) (hl : ∀ n i, (n, i) ∈ l ↔ i ∈ s.listed n) : Supplied .empty l s where
  sound := hs
  mem_free n f x := by
    rw [addresses_allocator_empty, FreeList.mem_addresses]
    simp only [Finset.notMem_empty, false_or, Supply.Covers, hl, mem_listed]
    constructor
    · rintro ⟨i, hi, hx⟩
      exact ⟨i, ⟨f, hi⟩, hx, (hs.free_canonical n f).length_of_mem (FreeList.mem_addresses.mpr ⟨i, hi, hx⟩)⟩
    · rintro ⟨i, ⟨g, hi⟩, hx, hf⟩
      -- The length of the address tells the family.
      have hg := (hs.free_canonical n g).length_of_mem (FreeList.mem_addresses.mpr ⟨i, hi, hx⟩)
      cases Family.octetCount_inj (hg.symm.trans hf)
      exact ⟨i, hi, hx⟩

end PoolSet

/-! ### Documents -/

namespace Document

-- The object that a document lists a range as.
def printed (i : Interval) : Json :=
  .obj [("start", .str i.first.text), ("end", .str i.last.text)]

def Range.ofInterval (i : Interval) : Range :=
  { first := i.first.text, last := i.last.text }

theorem bound_printed (name : String) {members : List (Text × Json)} {a : Address}
    (hm : Json.find? name members = some (.str a.text)) (ha : a.length = f.octetCount) :
    bound name members = .ok (a.text, { family := f, address := a }) :=
  bound_eq_ok_iff.mpr ⟨a.text, hm, (Address.trim_text ha).symm, Address.ofText?_text ha⟩

theorem Range.ofJson_printed (hi : i.Fits f.octetCount) : Range.ofJson (printed i) = .ok (.ofInterval i) := by
  simp only [printed, Range.ofJson]
  rw [bound_printed "start" rfl hi.first, bound_printed "end" rfl hi.last]
  exact ordered_eq_ok_iff.mpr ⟨rfl, Host.inOrder_of_le hi.length_eq rfl hi.le, rfl⟩

theorem stretch_ofInterval (hi : i.Fits f.octetCount) : Loading.stretch (.ofInterval i) = .ok i := by
  simp [Loading.stretch, Range.ofInterval, Address.resolve_text hi.first, Address.resolve_text hi.last]

-- A document that lists printed ranges passes its check with these ranges.
theorem ofJson_printed {members : List (Text × Json)} {is : PoolName → List Interval}
    (hm : ∀ n, Json.find? n.key members = some (.arr ((is n).map printed)))
    (hf : ∀ n, ∀ i ∈ is n, ∃ f : Family, i.Fits f.octetCount) :
    ofJson (.obj members) = .ok (.ofFn fun n => (is n).map .ofInterval) := by
  refine ofJson_eq_ok_iff.mpr ⟨members, rfl, fun n => ?_⟩
  have hr : rangesFrom 0 ((is n).map printed) = .ok ((is n).map .ofInterval) := by
    rw [rangesFrom_eq_ok_iff, List.map_map, List.map_map]
    refine List.map_congr_left fun i hi => ?_
    have ⟨_, hi⟩ := hf n i hi
    exact Range.ofJson_printed hi
  simp [rangesOf, hm, hr]

-- The ranges of such a document are put in as they were printed.
theorem mem_supply_printed {is : PoolName → List Interval}
    (hf : ∀ n, ∀ i ∈ is n, ∃ f : Family, i.Fits f.octetCount) :
    (n, i) ∈ supply (.ofFn fun n => (is n).map .ofInterval) ↔ i ∈ is n := by
  rw [mem_supply, PerPool.get_ofFn]
  constructor
  · rintro ⟨_, hr, he⟩
    obtain ⟨j, hj, rfl⟩ := List.mem_map.mp hr
    have ⟨_, hf⟩ := hf n j hj
    cases he.symm.trans (stretch_ofInterval hf)
    exact hj
  · intro hi
    have ⟨_, hf⟩ := hf n i hi
    exact ⟨_, List.mem_map_of_mem hi, stretch_ofInterval hf⟩

end Document

/-! ### Entries -/

variable {c : Settings} {t : Text} {is : PoolName → List Interval}

theorem Settings.mem_allEntries : (n, t) ∈ c.allEntries ↔ t ∈ c.entries.get n := by
  simp only [allEntries, PerPool.toList, List.mem_flatMap, List.mem_map]
  constructor
  · rintro ⟨_, ⟨_, _, rfl⟩, _, h, he⟩
    cases he
    exact h
  · intro h
    exact ⟨_, ⟨n, PoolName.mem_all n, rfl⟩, t, h, rfl⟩

-- The entries are the printed ranges.
def Settings.Prints (c : Settings) (is : PoolName → List Interval) : Prop :=
  ∀ n, c.entries.get n = (is n).map fun i => Text.ofString i.text

theorem Settings.Prints.read (hc : c.Prints is) (hf : ∀ n, ∀ i ∈ is n, ∃ f : Family, i.Fits f.octetCount)
    (h : (n, t) ∈ c.allEntries) : ∃ i ∈ is n, t = i.text ∧ Entry.read t = .ok i := by
  rw [mem_allEntries, hc n] at h
  obtain ⟨i, hi, rfl⟩ := List.mem_map.mp h
  have ⟨_, hf⟩ := hf n i hi
  exact ⟨i, hi, rfl, Entry.read_text hf⟩

theorem Supply.mem_ofEntries_printed (hc : c.Prints is)
    (hf : ∀ n, ∀ i ∈ is n, ∃ f : Family, i.Fits f.octetCount) :
    (n, i) ∈ ofEntries c.allEntries ↔ i ∈ is n := by
  rw [mem_ofEntries]
  constructor
  · rintro ⟨t, ht, he⟩
    obtain ⟨j, hj, _, he'⟩ := hc.read hf ht
    cases he.symm.trans he'
    exact hj
  · intro hi
    have ⟨_, hf⟩ := hf n i hi
    refine ⟨i.text, Settings.mem_allEntries.mpr ?_, Entry.read_text hf⟩
    rw [hc n]
    exact List.mem_map_of_mem hi

namespace Loading

-- Settings without a document put their entries in, if all of them can be read.
theorem Step.Supplies.settings {maxDepth : Nat} {files : Files} (hd : c.documentPath = none)
    (h : ∀ p ∈ c.allEntries, ∃ i, Entry.read p.2 = .ok i) :
    (settings maxDepth files c).Supplies (.ofEntries c.allEntries) := fun s hs => by
  have ⟨hf, hp⟩ := Step.Supplies.entries h s hs
  simp only [Loading.settings, hd]
  rw [← List.append_nil (Supply.ofEntries _)]
  exact andThen hf hp report

-- Whatever supplies empty pools with the free ranges of others makes them the same.
theorem Step.Supplies.eq_of_listed {step : Step} (h : step.Supplies l) (hs : s.Sound)
    (hl : ∀ n i, (n, i) ∈ l ↔ i ∈ s.listed n) :
    (step .empty).fault = none ∧ (step .empty).pools = s :=
  have ⟨hf, hp⟩ := h .empty .empty
  ⟨hf, hp.ext (hs.supplied hl) fun _ _ _ => Iff.rfl⟩

-- What is printed of the free ranges of pools loads back to the same pools, in any order, from entries of
-- settings and from a document. Each range by itself is an entry that is read back as that range.
theorem printed_loads_back (s : PoolSet) (hs : s.Reachable) (is : PoolName → List Interval)
    (hl : ∀ n, (is n).Perm (s.listed n)) :
    (∀ maxDepth files c, c.documentPath = none → c.Prints is →
      (settings maxDepth files c .empty).fault = none ∧ (settings maxDepth files c .empty).pools = s)
    ∧ (∀ members, (∀ n, Json.find? n.key members = some (.arr ((is n).map Document.printed))) →
      (document (.value (.obj members)) .empty).fault = none
      ∧ (document (.value (.obj members)) .empty).pools = s)
    ∧ ∀ (f : Family) (i : Interval), i.first.length = f.octetCount → i.Proper → Entry.read i.text = .ok i := by
  have hf (n : PoolName) (i : Interval) (hi : i ∈ is n) : ∃ f : Family, i.Fits f.octetCount :=
    hs.sound.fits_of_mem_listed ((hl n).mem_iff.mp hi)
  refine ⟨fun _ _ c hd hc => ?_, fun members hm => ?_, fun f i hi hp => ?_⟩
  · have hr : ∀ p ∈ c.allEntries, ∃ i, Entry.read p.2 = .ok i := fun p h =>
      have ⟨i, _, _, hi⟩ := hc.read hf h
      ⟨i, hi⟩
    refine (Step.Supplies.settings hd hr).eq_of_listed hs.sound fun n i => ?_
    exact (Supply.mem_ofEntries_printed hc hf).trans (hl n).mem_iff
  · have hd : Document.check (.value (.obj members)) = .ok _ := Document.ofJson_printed hm hf
    refine (Step.Supplies.document hd).eq_of_listed hs.sound fun n i => ?_
    exact (Document.mem_supply_printed hf).trans (hl n).mem_iff
  · exact Entry.read_text (Interval.fits_iff.mpr ⟨hi, hp⟩)

-- The free ranges of the pools that a document with a range of each family fills, the other way around.
def twoFamiliesReversed : PoolName → List Interval
  | .pod =>
    let a : Address := ⟨[0xfd, 0, 0, 0, 0, 0, 0, 0, 0, 0, 0, 0, 0, 0, 0, 1]⟩
    [⟨a, a⟩, ⟨⟨[10, 0, 0, 1]⟩, ⟨[10, 0, 0, 3]⟩⟩]
  | _ => []

theorem listed_twoFamilies (n : PoolName) :
    PoolSet.listed (document (.value twoFamilies) .empty).pools n = (twoFamiliesReversed n).reverse := by
  cases n <;> rfl

theorem printed_loads_back_of_twoFamilies :
    let s := (document (.value twoFamilies) .empty).pools
    let c : Settings := { entries := .ofFn fun
      | .pod => ["fd00::1-fd00::1", "10.0.0.1-10.0.0.3"]
      | _    => [] }
    let members : List (Text × Json) := PoolName.all.map fun n =>
      (n.key, .arr ((twoFamiliesReversed n).map Document.printed))
    s.Reachable ∧ (∀ n, (twoFamiliesReversed n).Perm (s.listed n))
    ∧ (settings Json.usualDepth noFiles c .empty).fault = none
    ∧ (settings Json.usualDepth noFiles c .empty).pools = s
    ∧ (document (.value (.obj members)) .empty).fault = none
    ∧ (document (.value (.obj members)) .empty).pools = s
    ∧ Entry.read "10.0.0.1-10.0.0.3" = .ok ⟨⟨[10, 0, 0, 1]⟩, ⟨[10, 0, 0, 3]⟩⟩ := by
  intro s c members
  have hs : s.Reachable := .document (.value twoFamilies) .empty
  have hl (n : PoolName) : (twoFamiliesReversed n).Perm (s.listed n) := by
    rw [listed_twoFamilies]
    exact (List.reverse_perm _).symm
  obtain ⟨hc, hm, hi⟩ := printed_loads_back s hs twoFamiliesReversed hl
  have ht : Text.ofString "10.0.0.1-10.0.0.3"
    = Text.ofString (Interval.text ⟨⟨[10, 0, 0, 1]⟩, ⟨[10, 0, 0, 3]⟩⟩) := by rfl
  have hi := hi .v4 ⟨⟨[10, 0, 0, 1]⟩, ⟨[10, 0, 0, 3]⟩⟩ rfl (by decide)
  have hc := hc Json.usualDepth noFiles c rfl fun n => by cases n <;> rfl
  have hm := hm members fun n => by cases n <;> rfl
  exact ⟨hs, hl, hc.left, hc.right, hm.left, hm.right, ht ▸ hi⟩

end Loading

end AddressSpace
