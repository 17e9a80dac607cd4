import AddressSpace.Proofs.Document.Permuted
import AddressSpace.Proofs.Loading.DocumentFile
import AddressSpace.Proofs.Loading.Reload

/-!
Pools that are filled from several sources. What a source adds does not depend on the pools, nor on the
order of its ranges; so sources can be loaded in any order, and over again, and the pools end up the same.
-/

namespace AddressSpace

variable {n : PoolName} {f : Family} {a : Address}

theorem Document.covers_supply_of_perm {d d' : Document} (h : ∀ n, (d.get n).Perm (d'.get n)) :
    d.supply.Covers n f a ↔ d'.supply.Covers n f a := by
  simp only [Document.covers_supply_iff, (h n).mem_iff]

theorem Supply.covers_ofEntries_congr {es es' : List (PoolName × Text)} (h : ∀ p, p ∈ es ↔ p ∈ es') :
    (ofEntries es).Covers n f a ↔ (ofEntries es').Covers n f a := by
  simp only [Supply.Covers, mem_ofEntries, h]

namespace Loading

/-! ### Sources -/

-- Something that pools are filled from. Settings come with the files that they can name, and the depth to which
-- these may nest.
inductive Source where
  | document (input : Document.Input)
  | settings (maxDepth : Nat) (files : Files) (c : Settings)

-- The value of the document in a file.
def fileJson? (maxDepth : Nat) (files : Files) (path : Text) : Option Json :=
  (readDocument maxDepth files (.ofText path)).toOption.bind Document.Input.json?

namespace Source

def load : Source → Step
  | .document input => Loading.document input
  | .settings maxDepth files c => Loading.settings maxDepth files c

-- The source has been loaded without a fault, into some pools or other.
def Accepted (x : Source) : Prop :=
  ∃ s : PoolSet, s.Reachable ∧ (x.load s).fault = none

-- The same source, or one that lists the same ranges for each pool in any order: in the document, and in
-- the entries of settings together with the document that they name, if any.
inductive Permuted : Source → Source → Prop
  | refl {x} : Permuted x x
  | document {input input'} (h : Option.Rel Document.Permuted input.json? input'.json?) :
    Permuted (.document input) (.document input')
  | settings {maxDepth maxDepth' files files' c c'} (he : ∀ n, (c.entries.get n).Perm (c'.entries.get n))
    (hd : Option.Rel (fun path path' =>
      Option.Rel Document.Permuted (fileJson? maxDepth files path) (fileJson? maxDepth' files' path'))
      c.documentPath c'.documentPath) :
    Permuted (.settings maxDepth files c) (.settings maxDepth' files' c')

-- The stretches that a source lists, if all of it can be read.
inductive Lists : Source → Supply → Prop
  | document {input d} (h : Document.check input = .ok d) : Lists (.document input) d.supply
  | entries {maxDepth files c} (he : ∀ p ∈ c.allEntries, ∃ i, Entry.read p.2 = .ok i)
    (hn : c.documentPath = none) : Lists (.settings maxDepth files c) (.ofEntries c.allEntries)
  | both {maxDepth files c path input d} (he : ∀ p ∈ c.allEntries, ∃ i, Entry.read p.2 = .ok i)
    (hp : c.documentPath = some path) (hi : readDocument maxDepth files (.ofText path) = .ok input)
    (hd : Document.check input = .ok d) :
    Lists (.settings maxDepth files c) (.ofEntries c.allEntries ++ d.supply)

-- All of the source can be read, and it lists the address for the pool.
def Adds (x : Source) (n : PoolName) (f : Family) (a : Address) : Prop :=
  ∃ l, x.Lists l ∧ l.Covers n f a

variable {s : PoolSet} {d : Document} {x y : Source} {l : Supply}

theorem Lists.supplies (h : x.Lists l) : x.load.Supplies l := by
  cases h
  case document h => exact .document h
  case entries he hn => exact .settings hn he
  case both maxDepth files c path input d he hp hi hd =>
    intro s hs
    have ⟨hf, hs⟩ := Step.Supplies.entries he s hs
    simp only [load, Loading.settings, hp]
    refine Step.Supplies.andThen hf hs fun s hs => ?_
    rw [documentFile_of_read hi]
    exact Step.Supplies.document hd s hs

-- Whatever a source is found to list is what it puts into empty pools.
theorem Lists.adds_iff (h : x.Lists l) : x.Adds n f a ↔ l.Covers n f a := by
  have hm {l} (h : x.Lists l) :
      a ∈ ((x.load .empty).pools.allocator n f).free.addresses ↔ l.Covers n f a := by
    simp [(h.supplies .empty .empty).right.mem_free]
  constructor
  · rintro ⟨l', h', ha⟩
    exact (hm h).mp ((hm h').mpr ha)
  · exact fun ha => ⟨l, h, ha⟩

-- A source that is loaded without a fault into some pools can be read, whatever the pools are.
theorem exists_lists_of_loaded (hs : s.Sound) (h : (x.load s).fault = none) : ∃ l, x.Lists l := by
  cases x
  case document input =>
    have ⟨d, hd⟩ := check_of_loaded h
    exact ⟨d.supply, .document hd⟩
  case settings maxDepth files c =>
    have he := read_of_loaded hs h
    obtain ⟨hu, _, hd⟩ := settings_of_read maxDepth files hs he
    cases hp : c.documentPath
    case none => exact ⟨_, .entries he hp⟩
    case some path =>
      have hf := (hd path hp).left.symm.trans h
      cases hi : readDocument maxDepth files (.ofText path)
      case error => simp [documentFile_of_unread hi] at hf
      case ok input =>
        rw [documentFile_of_read hi] at hf
        have ⟨d, hd⟩ := check_of_loaded hf
        exact ⟨_, .both he hp hi hd⟩

theorem Accepted.exists_lists (h : x.Accepted) : ∃ l, x.Lists l :=
  have ⟨_, hs, hf⟩ := h
  exists_lists_of_loaded hs.sound hf

theorem Lists.accepted (h : x.Lists l) : x.Accepted :=
  ⟨.empty, .empty, (h.supplies .empty .empty).left⟩

theorem exists_check_of_permuted {maxDepth maxDepth' : Nat} {files files' : Files} {path path' : Text}
    {input : Document.Input} (hi : readDocument maxDepth files (.ofText path) = .ok input) (hd : Document.check input = .ok d)
    (hp : Option.Rel Document.Permuted (fileJson? maxDepth files path) (fileJson? maxDepth' files' path')) :
    ∃ input' d', readDocument maxDepth' files' (.ofText path') = .ok input' ∧ Document.check input' = .ok d'
      ∧ ∀ n, (d.get n).Perm (d'.get n) := by
  cases hi' : readDocument maxDepth' files' (.ofText path')
  case error =>
    obtain ⟨_, hv, _⟩ := Document.check_eq_ok_iff.mp hd
    simp only [fileJson?, hi, hi', Except.toOption, Option.bind_some, Option.bind_none, hv] at hp
    cases hp
  case ok input' =>
    simp only [fileJson?, hi, hi', Except.toOption, Option.bind_some] at hp
    obtain ⟨d', hd', hp⟩ := Document.check_of_permuted hp hd
    exact ⟨input', d', rfl, hd', hp⟩

-- The same ranges in another order are read alike, and make the same addresses free.
theorem Permuted.exists_lists (h : x.Permuted y) (hx : x.Lists l) :
    ∃ l', y.Lists l' ∧ ∀ n f a, l'.Covers n f a ↔ l.Covers n f a := by
  cases h
  case refl => exact ⟨l, hx, fun _ _ _ => Iff.rfl⟩
  case document hp =>
    cases hx
    case document hd =>
      have ⟨d', hd', hp⟩ := Document.check_of_permuted hp hd
      exact ⟨d'.supply, .document hd', fun _ _ _ => (Document.covers_supply_of_perm hp).symm⟩
  case settings maxDepth maxDepth' files files' c c' hp hd =>
    have hm (p : PoolName × Text) : p ∈ c'.allEntries ↔ p ∈ c.allEntries := by
      rw [Settings.mem_allEntries, Settings.mem_allEntries, (hp p.1).mem_iff]
    have hc (n f a) : Supply.Covers (.ofEntries c'.allEntries) n f a
        ↔ Supply.Covers (.ofEntries c.allEntries) n f a := Supply.covers_ofEntries_congr hm
    cases hx
    case entries he hn =>
      rw [hn] at hd
      cases hn' : c'.documentPath <;> rw [hn'] at hd <;> cases hd
      exact ⟨_, .entries (fun p h => he p ((hm p).mp h)) hn', hc⟩
    case both path input d hk hi he hn =>
      rw [hn] at hd
      cases hn' : c'.documentPath <;> rw [hn'] at hd <;> cases hd
      case some path' hd =>
        obtain ⟨input', d', hi', hk', hp⟩ := exists_check_of_permuted hi hk hd
        refine ⟨_, .both (fun p h => he p ((hm p).mp h)) hn' hi' hk', fun n f a => ?_⟩
        rw [Supply.covers_append_iff, Supply.covers_append_iff, hc, Document.covers_supply_of_perm hp]

theorem Permuted.accepted (h : x.Permuted y) (hx : x.Accepted) : y.Accepted :=
  have ⟨_, hl⟩ := hx.exists_lists
  have ⟨_, hl', _⟩ := h.exists_lists hl
  hl'.accepted

theorem Permuted.adds_iff (h : x.Permuted y) (hx : x.Accepted) : y.Adds n f a ↔ x.Adds n f a := by
  have ⟨_, hl⟩ := hx.exists_lists
  have ⟨_, hl', hc⟩ := h.exists_lists hl
  rw [hl.adds_iff, hl'.adds_iff, hc]

end Source

/-! ### Several sources -/

-- The sources one after the other, up to the first fault.
def seeded (xs : List Source) : Step :=
  inOrder (xs.map Source.load)

variable {xs ys : List Source}

-- Sources that are accepted one by one are loaded one after the other, and each adds what it lists.
theorem exists_supplies_seeded (h : ∀ x ∈ xs, x.Accepted) : ∃ l, (seeded xs).Supplies l
    ∧ ∀ n f a, l.Covers n f a ↔ ∃ x ∈ xs, x.Adds n f a := by
  choose! l hl using fun x hx => (h x hx).exists_lists
  refine ⟨xs.flatMap l, Step.Supplies.inOrder_map fun x hx => (hl x hx).supplies, fun n f a => ?_⟩
  rw [Supply.covers_flatMap_iff]
  exact exists_congr fun x => and_congr_right fun hx => (hl x hx).adds_iff.symm

-- Documents and settings that some pools have accepted are all loaded without a fault, into any pools, in any
-- order, as often as one likes, and with their ranges in any order. The pools end up the same: each
-- allocator has gained the addresses that the sources list for it.
theorem seeding_in_any_order (s : PoolSet) (hs : s.Reachable) (xs ys : List Source)
    (ha : ∀ x ∈ xs, x.Accepted) (hy : ∀ y ∈ ys, ∃ x ∈ xs, x.Permuted y)
    (hx : ∀ x ∈ xs, ∃ y ∈ ys, x.Permuted y) :
    (seeded xs s).fault = none ∧ (seeded ys s).fault = none
    ∧ (seeded ys s).pools = (seeded xs s).pools
    ∧ ∀ n f a, a ∈ ((seeded xs s).pools.allocator n f).free.addresses ↔
      a ∈ (s.allocator n f).free.addresses ∨ ∃ x ∈ xs, x.Adds n f a := by
  have ha' : ∀ y ∈ ys, y.Accepted := fun y hm =>
    have ⟨x, hx, hp⟩ := hy y hm
    hp.accepted (ha x hx)
  obtain ⟨l, hl, hc⟩ := exists_supplies_seeded ha
  obtain ⟨l', hl', hc'⟩ := exists_supplies_seeded ha'
  obtain ⟨hf, hp⟩ := hl s hs.sound
  obtain ⟨hf', hp'⟩ := hl' s hs.sound
  refine ⟨hf, hf', hp'.ext hp fun n f a => ?_, fun n f a => ?_⟩
  · rw [hc, hc']
    constructor
    · rintro ⟨y, hm, h⟩
      obtain ⟨x, hx, hp⟩ := hy y hm
      exact ⟨x, hx, (hp.adds_iff (ha x hx)).mp h⟩
    · rintro ⟨x, hm, h⟩
      obtain ⟨y, hy, hp⟩ := hx x hm
      exact ⟨y, hy, (hp.adds_iff (ha x hm)).mpr h⟩
  · rw [hp.mem_free, hc]

-- The ranges of `twoFamilies` the other way around.
def twoFamiliesTurned : Json :=
  .obj [("pod-ip-pool", .arr [
    .obj [("start", .str "fd00::1"), ("end", .str "fd00::1")],
    .obj [("start", .str "10.0.0.1"), ("end", .str " 10.0.0.3 ")]])]

-- Two entries that lie next to each other, beside a document.
def besideDocument : Settings :=
  { entries := .ofFn fun
      | .pod => ["10.0.0.4-10.0.0.9", "10.0.0.3"]
      | _    => []
    document := some "pools.json" }

def besideDocumentTurned : Settings :=
  { besideDocument with entries := .ofFn fun
      | .pod => ["10.0.0.3", "10.0.0.4-10.0.0.9"]
      | _    => [] }

theorem seeding_in_any_order_of_two :
    let xs : List Source := [.document (.value twoFamilies),
      .settings Json.usualDepth (holding oneRange) besideDocument]
    let ys : List Source := [.settings Json.usualDepth (holding oneRange) besideDocumentTurned,
      .document (.value twoFamiliesTurned), .settings Json.usualDepth (holding oneRange) besideDocument]
    PoolSet.Reachable .empty ∧ (∀ x ∈ xs, x.Accepted)
    ∧ (∀ y ∈ ys, ∃ x ∈ xs, x.Permuted y) ∧ (∀ x ∈ xs, ∃ y ∈ ys, x.Permuted y)
    ∧ (seeded ys .empty).fault = none ∧ (seeded ys .empty).pools = (seeded xs .empty).pools := by
  intro xs ys
  have hr : readDocument Json.usualDepth (holding oneRange) (.ofText "pools.json") = .ok _ :=
    readDocument_of_read ⟨rfl, rfl⟩ (Json.Grammar.read_lenient_of_spells spells_oneRange (by decide))
  have he : ∀ p ∈ besideDocument.allEntries, ∃ i, Entry.read p.2 = .ok i :=
    List.forall_mem_cons.mpr ⟨⟨_, rfl⟩, List.forall_mem_singleton.mpr ⟨_, rfl⟩⟩
  have hd : Source.Accepted (.document (.value twoFamilies)) := (Source.Lists.document rfl).accepted
  have hs : Source.Accepted (.settings Json.usualDepth (holding oneRange) besideDocument) :=
    (Source.Lists.both he rfl hr rfl).accepted
  have hdt : Source.Permuted (.document (.value twoFamilies)) (.document (.value twoFamiliesTurned)) :=
    .document (.some (.lists fun n => by
      cases n
      case pod => exact .some (.items (.swap ..))
      all_goals exact .none))
  have hst : Source.Permuted (.settings Json.usualDepth (holding oneRange) besideDocument)
      (.settings Json.usualDepth (holding oneRange) besideDocumentTurned) := by
    refine .settings (fun n => ?_) (.some ?_)
    · cases n
      case pod => exact .swap ..
      all_goals exact .refl _
    · simp only [fileJson?, hr]
      exact .some .refl
  have ha : ∀ x ∈ xs, x.Accepted := by simp [xs, hd, hs]
  have hy : ∀ y ∈ ys, ∃ x ∈ xs, x.Permuted y := by simp [xs, ys, hdt, hst, Source.Permuted.refl]
  have hx : ∀ x ∈ xs, ∃ y ∈ ys, x.Permuted y := by simp [xs, ys, hdt, hst]
  have ⟨_, hf, hp, _⟩ := seeding_in_any_order .empty .empty xs ys ha hy hx
  exact ⟨.empty, ha, hy, hx, hf, hp⟩

end Loading

end AddressSpace
