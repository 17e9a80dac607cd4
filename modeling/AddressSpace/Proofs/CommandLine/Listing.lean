import AddressSpace.Proofs.CommandLine.Output
import AddressSpace.Proofs.Loading.DocumentFile
import AddressSpace.Proofs.Settings.Entry
import Mathlib.Data.List.Forall2

/-!
The free addresses that commands print, as a picture of the pools. A line tells its pool, its family, how
many addresses are free, and the free stretches, each as an entry that reads back as the stretch. So the
lines determine all that is free.
-/

namespace AddressSpace

variable {n : PoolName} {f : Family}

-- The free list of one family of a pool.
structure Stock where
  pool   : PoolName
  family : Family
  free   : FreeList
  deriving DecidableEq

namespace Pool

-- The free lists that hold anything, IPv4 first.
def stocks (n : PoolName) (p : Pool) : List Stock :=
  (Family.all.map fun f => ⟨n, f, p.free f⟩).filter (·.free ≠ [])

variable {p : Pool} {k : Stock}

theorem mem_stocks : k ∈ p.stocks n ↔ k.pool = n ∧ k.free = p.free k.family ∧ k.free ≠ [] := by
  have hf (f : Family) : f ∈ Family.all := by cases f <;> decide
  obtain ⟨m, f, l⟩ := k
  simp only [stocks, List.mem_filter, List.mem_map, Stock.mk.injEq, decide_eq_true_eq]
  constructor
  · rintro ⟨⟨g, _, rfl, rfl, rfl⟩, h⟩
    exact ⟨rfl, rfl, h⟩
  · rintro ⟨rfl, rfl, h⟩
    exact ⟨⟨f, hf f, rfl, rfl, rfl⟩, h⟩

end Pool

namespace PoolSet

-- The same of all pools, in their order.
def stocks (s : PoolSet) : List Stock :=
  PoolName.all.flatMap fun n => (s.get n).stocks n

variable {s s' : PoolSet} {k : Stock}

theorem mem_stocks : k ∈ s.stocks ↔ k.free = (s.get k.pool).free k.family ∧ k.free ≠ [] := by
  simp only [stocks, List.mem_flatMap, Pool.mem_stocks]
  constructor
  · rintro ⟨_, _, rfl, h⟩
    exact h
  · exact fun h => ⟨_, PoolName.mem_all _, rfl, h⟩

theorem stocks_eq_nil_iff : s.stocks = [] ↔ ∀ n f, (s.get n).free f = [] := by
  rw [List.eq_nil_iff_forall_not_mem]
  constructor
  · exact fun h n f => by_contra fun hne => h ⟨n, f, _⟩ (mem_stocks.mpr ⟨rfl, hne⟩)
  · exact fun h k hk => (mem_stocks.mp hk).right ((mem_stocks.mp hk).left.trans (h _ _))

-- What is left out is empty.
theorem stocks_inj : s.stocks = s'.stocks ↔ ∀ n f, (s.get n).free f = (s'.get n).free f := by
  constructor
  · intro h n f
    have hm (l : FreeList) := congrArg (⟨n, f, l⟩ ∈ ·) h
    simp only [mem_stocks, eq_iff_iff] at hm
    by_cases he : (s.get n).free f = []
    case neg => exact ((hm _).mp ⟨rfl, he⟩).left
    case pos =>
      by_contra hne
      exact hne ((hm _).mpr ⟨rfl, fun h' => hne (he.trans h'.symm)⟩).left.symm
  · intro h
    simp only [stocks, Pool.stocks, h]

end PoolSet

namespace CommandLine

variable {is is' : List Interval} {ranges : Text}

-- A text that names stretches, in entries between commas and blanks.
def Lists (ranges : Text) (is : List Interval) : Prop :=
  (Text.splitPair (.char ',') (.char ' ') ranges).map Entry.read = is.map .ok

namespace Lists

theorem unique (h : Lists ranges is) (h' : Lists ranges is') : is = is' := by
  have he := h.symm.trans h'
  exact List.map_injective_iff.mpr (fun _ _ => Except.ok.inj) he

theorem ofString_listed (is : List Interval) : Text.ofString (Interval.listed is)
    = Text.join [.char ',', .char ' '] (is.map fun i => Text.ofString i.text) := by
  simp only [Interval.listed, Text.ofString, Text.ofChars, String.toList_ofList, Text.map_join, List.map_map,
    Interval.text]
  rfl

variable (h : ∀ i ∈ is, ∃ f : Family, i.Fits f.octetCount)

include h

theorem not_mem_listed {c : Char} (hc : c ∉ ',' :: ' ' :: '-' :: Address.textChars) :
    .char c ∉ Text.ofString (Interval.listed is) := fun hm => by
  simp only [List.mem_cons, not_or] at hc
  rw [ofString_listed] at hm
  rcases Text.mem_of_mem_join hm with hm | ⟨_, hp, hm⟩
  · simp [hc.left, hc.right.left] at hm
  · obtain ⟨i, hi, rfl⟩ := List.mem_map.mp hp
    obtain ⟨_, hf⟩ := h i hi
    exact Entry.not_mem_text hf (by simpa using hc.right.right) hm

-- What is printed for stretches lists just them.
theorem listed (hne : is ≠ []) : Lists (Interval.listed is) is := by
  have hc : ∀ part ∈ is.map fun i => Text.ofString i.text, .char ',' ∉ part := by
    simp only [List.forall_mem_map]
    intro i hi
    obtain ⟨_, hf⟩ := h i hi
    exact Entry.not_mem_text hf (by decide)
  rw [Lists, ofString_listed, Text.splitPair_join (by simpa using hne) hc, List.map_map]
  refine List.map_congr_left fun i hi => ?_
  obtain ⟨_, hf⟩ := h i hi
  rw [Function.comp_apply, Entry.read_text hf]

end Lists

/-! ### Lines -/

-- A line that shows what is free: how many addresses, and in which stretches.
structure Shows (k : Stock) (line : Text) : Prop where
  oneLine : .char '\n' ∉ line
  listed  : ∃ ranges : Text, Lists ranges k.free ∧ line = Text.ofString
    s!"{k.pool.text} ipv{k.family.number} free={k.free.addresses.card} ranges=" ++ ranges

-- The words of such a line, which hold no blank.
theorem ofString_head (n : PoolName) (f : Family) (count : Nat) :
    Text.ofString s!"{n.text} ipv{f.number} free={count} ranges=" = Text.ofString n.text ++ .char ' ' ::
      (Text.ofString s!"ipv{f.number}" ++ .char ' ' :: (Text.ofString s!"free={count}" ++ .char ' ' ::
        Text.ofString "ranges=")) := by
  have hb (t : Text) : .char ' ' :: t = Text.ofString " " ++ t := rfl
  simp only [hb, Text.ofString_append, List.append_assoc]
  rfl

theorem not_mem_ofString_count {c : Char} (hc : c ∉ Text.digitChars) (count : Nat) :
    .char c ∉ Text.ofString (toString count) := fun h => by
  have hd : Text.ofString (toString count) = Text.ofChars (Nat.toDigits 10 count) := by
    simp [Text.ofString, Nat.repr]
  rw [hd, Text.ofChars, List.mem_map] at h
  obtain ⟨d, hd, he⟩ := h
  exact hc (CodePoint.char.inj he ▸ Text.mem_digitChars (by decide) (by decide) hd)

-- No word is broken by a blank or a line feed.
theorem not_mem_words {c : Char} (hc : c = ' ' ∨ c = '\n') (n : PoolName) (f : Family) (count : Nat) :
    .char c ∉ Text.ofString n.text ∧ .char c ∉ Text.ofString s!"ipv{f.number}"
    ∧ .char c ∉ Text.ofString s!"free={count}" := by
  refine ⟨?_, ?_, ?_⟩
  · rcases hc with rfl | rfl <;> cases n <;> decide
  · rcases hc with rfl | rfl <;> cases f <;> decide
  · have hd : c ∉ Text.digitChars := by rcases hc with rfl | rfl <;> decide
    have hw : .char c ∉ Text.ofString "free=" := by rcases hc with rfl | rfl <;> decide
    rw [Text.ofString_append, List.mem_append, not_or]
    exact ⟨hw, not_mem_ofString_count hd count⟩

namespace Shows

variable {k k' : Stock} {line : Text}

theorem unique (h : Shows k line) (h' : Shows k' line) : k = k' := by
  obtain ⟨n, f, l⟩ := k
  obtain ⟨n', f', l'⟩ := k'
  obtain ⟨ranges, hl, he⟩ := h.listed
  obtain ⟨ranges', hl', he'⟩ := h'.listed
  obtain ⟨hn, hf, hc⟩ := not_mem_words (.inl rfl) n f l.addresses.card
  obtain ⟨hn', hf', hc'⟩ := not_mem_words (.inl rfl) n' f' l'.addresses.card
  have heq := he.symm.trans he'
  simp only [ofString_head, List.append_assoc, List.cons_append] at heq
  -- The words are told apart by the blanks between them.
  obtain ⟨hp, heq⟩ := Text.append_cons_inj hn hn' heq
  obtain ⟨hq, heq⟩ := Text.append_cons_inj hf hf' heq
  obtain ⟨-, heq⟩ := Text.append_cons_inj hc hc' heq
  have hpool : n = n' := by
    have ht := congrArg PoolName.ofText? hp
    simpa only [PoolName.ofText?_text, Option.some.injEq] using ht
  have hfamily : f = f' := by
    cases f <;> cases f' <;> first | rfl | exact absurd hq (by decide)
  have hfree : l = l' := hl.unique (List.append_cancel_left heq ▸ hl')
  rw [hpool, hfamily, hfree]

end Shows

/-! ### What is printed -/

def freeLine (k : Stock) : Text :=
  s!"{k.pool.text} ipv{k.family.number} free={k.free.size} ranges={Interval.listed k.free}"

theorem freeLines_eq (n : PoolName) (p : Pool) : freeLines n p = (p.stocks n).map freeLine := by
  have hp (f : Family) : (!(p.free f).isEmpty) = decide (p.free f ≠ []) := by cases p.free f <;> simp
  simp only [freeLines, Pool.stocks, List.filter_map, List.map_map, hp]
  rfl

theorem shows_freeLine {k : Stock} (c : k.free.Canonical k.family.octetCount) (hne : k.free ≠ []) :
    Shows k (freeLine k) := by
  have hf : ∀ i ∈ k.free, ∃ f : Family, i.Fits f.octetCount := fun i hi => ⟨_, c.fits hi⟩
  have he : freeLine k = Text.ofString s!"{k.pool.text} ipv{k.family.number} free={k.free.addresses.card} ranges="
      ++ Text.ofString (Interval.listed k.free) := by
    rw [freeLine, c.size_eq_card, ← Text.ofString_append]
    rfl
  obtain ⟨hn, hw, hc⟩ := not_mem_words (.inr rfl) k.pool k.family k.free.addresses.card
  have hr : .char '\n' ∉ Text.ofString "ranges=" := by decide
  have hb : CodePoint.char '\n' ≠ .char ' ' := by decide
  have hl := Lists.not_mem_listed hf (c := '\n') (by decide)
  refine ⟨?_, _, .listed hf hne, he⟩
  rw [he, ofString_head]
  simp only [List.mem_append, List.mem_cons, not_or]
  exact ⟨⟨hn, hb, hw, hb, hc, hb, hr⟩, hl⟩

theorem shows_freeLines {p : Pool} (hc : ∀ f, (p.free f).Canonical f.octetCount) (n : PoolName) :
    List.Forall₂ Shows (p.stocks n) (freeLines n p) := by
  rw [freeLines_eq, List.forall₂_map_right_iff, List.forall₂_same]
  intro k hk
  obtain ⟨-, hf, hne⟩ := Pool.mem_stocks.mp hk
  exact shows_freeLine (hf ▸ hc k.family) hne

variable {s : PoolSet}

theorem isEmpty_iff (hs : s.Sound) : (s.get n).isEmpty ↔ (s.get n).stocks n = [] := by
  have hz (f : Family) : ((s.get n).free f).size = 0 ↔ (s.get n).free f = [] := by
    have c : ((s.get n).free f).Canonical f.octetCount := hs.free_canonical n f
    rw [c.size_eq_card, ← c.addresses_eq_empty_iff]
    simp
  simp only [Pool.isEmpty, Pool.stocks, Family.all, Bool.and_eq_true, beq_iff_eq, hz]
  simp

-- What maps to nothing can be left out before.
theorem flatMap_filter {α β : Type} [DecidableEq β] (g : α → List β) (xs : List α) :
    (xs.filter fun x => g x ≠ []).flatMap g = xs.flatMap g := by
  induction xs
  case nil => rfl
  case cons x xs hi => by_cases h : g x = [] <;> simp_all

theorem showLines_eq (hs : s.Sound) : showLines s =
    if s.stocks = [] then [Text.ofString "No pools configured"] else s.stocks.map freeLine := by
  let shown := PoolName.all.filter fun n => (s.get n).stocks n ≠ []
  have hp (n : PoolName) : (!(s.get n).isEmpty) = decide ((s.get n).stocks n ≠ []) := by
    simp [← isEmpty_iff hs]
  have hl : s.stocks = shown.flatMap fun n => (s.get n).stocks n := (flatMap_filter _ _).symm
  have hn : s.stocks = [] ↔ shown = [] := by
    simp [PoolSet.stocks, shown, List.flatMap_eq_nil_iff]
  simp only [showLines, PerPool.toList, List.filter_map, Function.comp_def, hp, List.map_eq_nil_iff, hn]
  congr 1
  simp only [List.flatMap_map, freeLines_eq, hl, shown, List.map_flatMap]

theorem shows_showLines (hs : s.Sound) (hne : s.stocks ≠ []) : List.Forall₂ Shows s.stocks (showLines s) := by
  rw [showLines_eq hs, if_neg hne, List.forall₂_map_right_iff, List.forall₂_same]
  intro k hk
  have ⟨hf, hk⟩ := PoolSet.mem_stocks.mp hk
  exact shows_freeLine (hf ▸ hs.free_canonical k.pool k.family) hk

-- That nothing is free is said in a line that shows no free list.
theorem not_shows_none {k : Stock} : ¬ Shows k (Text.ofString "No pools configured") := by
  intro h
  obtain ⟨ranges, -, he⟩ := h.listed
  obtain ⟨hn, -, -⟩ := not_mem_words (.inl rfl) k.pool k.family 0
  have hw : Text.ofString "No pools configured" = Text.ofString "No" ++ .char ' ' :: Text.ofString "pools configured" :=
    rfl
  rw [hw, ofString_head, List.append_assoc, List.cons_append] at he
  have hp := (Text.append_cons_inj (by decide) hn he).left
  cases hk : k.pool <;> rw [hk] at hp <;> exact absurd hp (by decide)

theorem showLines_eq_none_iff (hs : s.Sound) :
    showLines s = [Text.ofString "No pools configured"] ↔ s.stocks = [] := by
  constructor
  · intro h
    by_contra hne
    have hl := h ▸ shows_showLines hs hne
    generalize s.stocks = ks at hl
    cases hl
    case cons hl _ => exact not_shows_none hl
  · intro h
    rw [showLines_eq hs, if_pos h]

theorem showLines_inj {s' : PoolSet} (hs : s.Sound) (hs' : s'.Sound) :
    showLines s = showLines s' ↔ s.stocks = s'.stocks := by
  constructor
  · intro h
    by_cases hn : s.stocks = []
    case pos =>
      have hn' := (showLines_eq_none_iff hs').mp (h ▸ (showLines_eq_none_iff hs).mpr hn)
      exact hn.trans hn'.symm
    case neg =>
      have hn' : s'.stocks ≠ [] := fun he =>
        hn ((showLines_eq_none_iff hs).mp (h.trans ((showLines_eq_none_iff hs').mpr he)))
      have hu : Relator.LeftUnique Shows := fun _ _ _ => Shows.unique
      have hl : List.Forall₂ Shows s'.stocks (showLines s) := h ▸ shows_showLines hs' hn'
      exact List.left_unique_forall₂' hu (shows_showLines hs hn) hl
  · intro h
    rw [showLines_eq hs, showLines_eq hs', h]

/-! ### The command -/

section

variable {π : Type} {system : System π} {sources : Sources} {pools : PoolSet}

theorem sound_of_load (h : (sources.load system).pools = .ok pools) : pools.Sound :=
  ((sources.arises_load system).reachable h).sound

theorem runShow_of_load (h : (sources.load system).pools = .ok pools) : runShow system sources =
    { status := 0, printed := (sources.load system).printed ++ (showLines pools).map .line,
      plan := (sources.load system).plan } := by
  simp only [runShow, h]

theorem lines_runShow (h : (sources.load system).pools = .ok pools) :
    (runShow system sources).lines = showLines pools := by
  simp only [runShow_of_load h, Transcript.lines, Loaded.printed, List.filterMap_append,
    Journal.filterMap_line?_records, Journal.filterMap_line?_lines, List.nil_append]

end

-- The lines that the command prints are a picture of all that is free after loading: one line for each free
-- list that holds anything, from which the list can be read back. They come behind the records of loading, and
-- how the log is set up has no influence on them, nor does it matter when two pictures are compared.
theorem show_pictures_pools {π : Type} (system : System π) (sources : Sources) (pools : PoolSet)
    (h : (sources.load system).pools = .ok pools) :
    let t := runShow system sources
    t.status = 0 ∧ t.error = none
    ∧ t.printed = (sources.load system).records.map .record ++ t.lines.map .line
    ∧ (t.lines = [Text.ofString "No pools configured"] ↔ ∀ n f, (pools.get n).free f = [])
    ∧ ((∃ n f, (pools.get n).free f ≠ []) → List.Forall₂ Shows pools.stocks t.lines)
    ∧ ∀ (π' : Type) (system' : System π') (sources' : Sources) (pools' : PoolSet),
      (sources'.load system').pools = .ok pools' →
      (t.lines = (runShow system' sources').lines ↔ ∀ n f, (pools.get n).free f = (pools'.get n).free f) := by
  intro t
  have hs := sound_of_load h
  have hl : t.lines = showLines pools := lines_runShow h
  refine ⟨?_, ?_, ?_, ?_, fun hne => ?_, fun π' system' sources' pools' h' => ?_⟩
  · simp only [t, runShow_of_load h]
  · simp only [t, runShow_of_load h]
  · rw [hl]
    simp only [t, runShow_of_load h, Loaded.printed]
  · rw [hl, showLines_eq_none_iff hs, PoolSet.stocks_eq_nil_iff]
  · rw [hl]
    refine shows_showLines hs fun he => ?_
    obtain ⟨n, f, hne⟩ := hne
    exact hne (PoolSet.stocks_eq_nil_iff.mp he n f)
  · rw [hl, lines_runShow h', showLines_inj hs (sound_of_load h'), PoolSet.stocks_inj]

-- All files hold the text, and the log is set up as its settings say.
def holding (text : String) : System Journal.Plan :=
  .ofFiles Settings.Log.noPlanner Json.usualDepth (Loading.holding text)

-- A settings file is the only source.
def settingsOnly : Sources :=
  { configFile := some "c.conf" }

def twoPools : String :=
  "[ipam]\npod_ip_pool = 10.0.1.0-10.0.2.9, fd00::1, 10.0.0.1\nservice_ip_pool = 10.1.0.0\n"

def oneAddress : String :=
  "[ipam]\npod_ip_pool = 10.0.0.1\n"

-- The same, with records that tell nothing but what was issued.
def oneAddressUndated : String :=
  "[DEFAULT]\nlogging_default_format_string = %(levelname)s %(message)s\n" ++ oneAddress

def oneAddressFree : PoolSet :=
  .run .empty [.seed "pod" ⟨⟨[10, 0, 0, 1]⟩, ⟨[10, 0, 0, 1]⟩⟩]

def twoPoolsFree : PoolSet :=
  .run .empty [
    .seed "pod" ⟨⟨[10, 0, 0, 1]⟩, ⟨[10, 0, 0, 1]⟩⟩,
    .seed "pod" ⟨⟨[10, 0, 1, 0]⟩, ⟨[10, 0, 2, 9]⟩⟩,
    .seed "service" ⟨⟨[10, 1, 0, 0]⟩, ⟨[10, 1, 0, 0]⟩⟩,
    .seed "pod" ⟨⟨[0xfd, 0, 0, 0, 0, 0, 0, 0, 0, 0, 0, 0, 0, 0, 0, 1]⟩,
      ⟨[0xfd, 0, 0, 0, 0, 0, 0, 0, 0, 0, 0, 0, 0, 0, 0, 1]⟩⟩]

theorem load_oneAddress : (settingsOnly.load (holding oneAddress)).pools = .ok oneAddressFree :=
  Outcome.eq_ok_of_toOption (by decide +kernel)

theorem load_oneAddressUndated : (settingsOnly.load (holding oneAddressUndated)).pools = .ok oneAddressFree :=
  Outcome.eq_ok_of_toOption (by decide +kernel)

theorem load_twoPools : (settingsOnly.load (holding twoPools)).pools = .ok twoPoolsFree :=
  Outcome.eq_ok_of_toOption (by decide +kernel)

theorem show_pictures_pools_of_two :
    let t := runShow (holding twoPools) settingsOnly
    (settingsOnly.load (holding twoPools)).pools = .ok twoPoolsFree
    ∧ twoPoolsFree.stocks.length = 3 ∧ List.Forall₂ Shows twoPoolsFree.stocks t.lines
    ∧ t.lines = ["pod ipv4 free=267 ranges=10.0.0.1-10.0.0.1, 10.0.1.0-10.0.2.9",
      "pod ipv6 free=1 ranges=fd00::1-fd00::1", "service ipv4 free=1 ranges=10.1.0.0-10.1.0.0"]
    ∧ t.lines ≠ (runShow (holding oneAddress) settingsOnly).lines := by
  intro t
  obtain ⟨-, -, -, -, hf, hu⟩ := show_pictures_pools _ _ _ load_twoPools
  have hp : (twoPoolsFree.get .pod).free .v6 ≠ [] := by decide +kernel
  refine ⟨load_twoPools, by decide +kernel, hf ⟨.pod, .v6, hp⟩, ?_, ?_⟩
  · exact (lines_runShow load_twoPools).trans (by decide +kernel)
  · exact fun he => absurd ((hu _ _ _ _ load_oneAddress).mp he .pod .v6) (by decide +kernel)

-- Where nothing is known but what a record tells itself.
def nowhere : Journal.Surroundings :=
  { field? := fun _ => none, object := fun r => Text.ofString r.text }

-- Two loads that leave the same pools, and the same lines of the command. In the output of the second one,
-- lines stand in front that show no free list.
theorem undated_records_beside_picture :
    let t := runShow (holding oneAddress) settingsOnly
    let t' := runShow (holding oneAddressUndated) settingsOnly
    (settingsOnly.load (holding oneAddress)).pools = .ok oneAddressFree
    ∧ (settingsOnly.load (holding oneAddressUndated)).pools = .ok oneAddressFree
    ∧ oneAddressFree.stocks.length = 1
    ∧ t.lines = ["pod ipv4 free=1 ranges=10.0.0.1-10.0.0.1"] ∧ t'.lines = t.lines
    ∧ t'.output (fun _ => nowhere) =
      ["INFO Pool pod loaded from configuration: 1 IPv4 and 0 IPv6 free addresses",
        "INFO Pool service loaded from configuration: 0 IPv4 and 0 IPv6 free addresses",
        "INFO Pool static-service loaded from configuration: 0 IPv4 and 0 IPv6 free addresses",
        "INFO Pool node-service loaded from configuration: 0 IPv4 and 0 IPv6 free addresses",
        "pod ipv4 free=1 ranges=10.0.0.1-10.0.0.1"] := by
  have hl := lines_runShow load_oneAddress
  have hl' := lines_runShow load_oneAddressUndated
  exact ⟨load_oneAddress, load_oneAddressUndated, by decide +kernel, hl.trans (by decide +kernel),
    hl'.trans hl.symm, by decide +kernel⟩

end CommandLine

end AddressSpace
