import AddressSpace.Proofs.Allocator.Served
import AddressSpace.Proofs.CommandLine.Listing

/-!
What the command prints that hands addresses out. Its loop goes step by step with the requests to one
allocator: a line and a record tell of each request that is granted, and the sum counts the addresses.
-/

namespace AddressSpace

namespace Allocator

-- How the line begins that shows what a request is granted.
def Request.label : Request → String
  | .single => "  ip: "
  | .block  => "  chunk: "

def Answer.shown : Answer → String
  | .address x    => x.text
  | .stretches is => Interval.listed is
  | _             => ""

end Allocator

namespace Pool

theorem setAllocator_self (p : Pool) (f : Family) : p.setAllocator f (p.allocator f) = p := by
  cases f <;> rfl

theorem setAllocator_setAllocator (p : Pool) (f : Family) (t t' : Allocator) :
    (p.setAllocator f t).setAllocator f t' = p.setAllocator f t' := by
  cases f <;> rfl

theorem free_setAllocator (p : Pool) (f g : Family) (t : Allocator) :
    (p.setAllocator f t).free g = if g = f then t.free else p.free g := by
  rw [free, allocator_setAllocator]
  split <;> rfl

end Pool

-- Calls on one allocator of a pool leave all of its allocators canonical.
theorem PoolSet.Sound.free_run {s : PoolSet} (hs : s.Sound) (n : PoolName) (f g : Family)
    (calls : List Allocator.Call) : FreeList.Canonical g.octetCount
      (((s.get n).setAllocator f (((s.get n).allocator f).run calls)).free g) := by
  rw [Pool.free_setAllocator]
  split
  case isTrue hg =>
    have c : ((s.get n).allocator f).Canonical := hs.canonical n f
    exact hg ▸ (c.run calls).free_canonical (c.octetCount_run (hs.octetCount n f) calls)
  case isFalse => exact hs.free_canonical n g

namespace CommandLine

open Allocator (Request Answer Served)

variable {n : PoolName} {f : Family} {a : Allocation} {p : Pool} {r : Request} {x : Answer} {xs : List Answer}
variable {h : HandOut} {hs : List HandOut} {count : Nat}

-- What is asked for each time.
def Allocation.request (a : Allocation) : Request :=
  if a.blocks then .block else .single

-- What is told of a request that is granted. Other records are those of the allocator.
structure Tells (n : PoolName) (r : Request) (x : Answer) (h : HandOut) : Prop where
  line  : h.line = r.label ++ x.shown
  size  : h.size = (r.given [x]).length
  told  : h.told = .handedOut x.shown n
  taken : ∀ record ∈ h.taken, record.origin = .allocator

theorem removals_quiet (free : FreeList) (is : List Interval) :
    ∀ record ∈ Record.removals free is, record.origin = .allocator := by
  induction is generalizing free
  case nil          => exact nofun
  case cons i is hi => exact List.forall_mem_cons.mpr ⟨rfl, hi _⟩

def HandOut.ofAddress (n : PoolName) (y : Address) : HandOut :=
  ⟨s!"  ip: {y.text}", 1, [.tookAddress y], .handedOut y.text n⟩

def HandOut.ofBlock (n : PoolName) (free : FreeList) (is : List Interval) : HandOut :=
  ⟨s!"  chunk: {Interval.listed is}", FreeList.size is, Record.removals free is ++ [.tookBlock is],
    .handedOut (Interval.listed is) n⟩

theorem tells_address (n : PoolName) (y : Address) : Tells n .single (.address y) (.ofAddress n y) where
  line  := rfl
  size  := rfl
  told  := rfl
  taken := List.forall_mem_singleton.mpr rfl

theorem tells_block {octetCount : Nat} {is : FreeList} (c : is.Canonical octetCount) (n : PoolName) (free : FreeList) :
    Tells n .block (.stretches is) (.ofBlock n free is) where
  line  := rfl
  size  := by
    have hg : Request.block.given [.stretches is] = FreeList.ascending is := List.append_nil _
    rw [hg, c.length_ascending]
    rfl
  told  := rfl
  taken := List.forall_mem_append.mpr ⟨removals_quiet free is, List.forall_mem_singleton.mpr rfl⟩

theorem family_number (f : Family) : Pool.family (.number (.int f.number)) = .ok f := by
  cases f <;> rfl

-- One hand-out is one request.
theorem handOut_eq (hf : a.family = f.number) (c : (p.allocator f).Canonical) :
    (∃ e, (p.allocator f).outcome a.request.call = .error e ∧ handOut n a p = .error (.allocator e))
    ∨ ∃ x h, (p.allocator f).outcome a.request.call = .ok x ∧ Tells n a.request x h
      ∧ handOut n a p = .ok (h, p.setAllocator f ((p.allocator f).after a.request.call)) := by
  simp only [handOut, hf, family_number, Outcome.ok_bind, Allocation.request]
  split
  case isTrue hb =>
    cases ht : (p.allocator f).takeBlock
    case error e => exact .inl ⟨e, by simp [Request.call, Allocator.outcome, Allocator.perform, ht], rfl⟩
    case ok taken =>
      have hp : (p.allocator f).perform .takeBlock = .ok (.stretches taken.1, taken.2) := by
        simp [Allocator.perform, ht]
      obtain ⟨ho, ha⟩ := Allocator.outcome_after_of_perform hp
      obtain ⟨_, ci⟩ := Allocator.exists_canonical_of_takeBlock c ho
      exact .inr ⟨_, _, ho, tells_block ci n (p.allocator f).free, by rw [Request.call, ha]; rfl⟩
  case isFalse hb =>
    cases ht : (p.allocator f).take
    case error e => exact .inl ⟨e, by simp [Request.call, Allocator.outcome, Allocator.perform, ht], rfl⟩
    case ok taken =>
      have hp : (p.allocator f).perform .take = .ok (.address taken.1, taken.2) := by
        simp [Allocator.perform, ht]
      obtain ⟨ho, ha⟩ := Allocator.outcome_after_of_perform hp
      exact .inr ⟨_, _, ho, tells_address n taken.1, by rw [Request.call, ha]; rfl⟩

-- The loop makes the requests that are served, and ends with the fault of the one that is refused.
theorem handOuts_of_served (hf : a.family = f.number) (c : (p.allocator f).Canonical)
    (h : Served a.request (p.allocator f) count xs) :
    List.Forall₂ (Tells n a.request) xs (handOuts n a count p).1
    ∧ (xs.length = count → (handOuts n a count p).2
        = .ok (p.setAllocator f ((p.allocator f).run (List.replicate count a.request.call))))
    ∧ (xs.length < count → ∃ e, (handOuts n a count p).2 = .error e) := by
  generalize ht : p.allocator f = t at h c
  induction h generalizing p <;> subst ht
  case done => exact ⟨.nil, fun _ => congrArg Except.ok (p.setAllocator_self f).symm, nofun⟩
  case refused e he =>
    obtain ⟨e', -, h'⟩ | ⟨x, h, hx, -⟩ := handOut_eq (n := n) hf c
    · simp [handOuts, h']
    · simp [he] at hx
  case granted count x xs hx hs hi =>
    obtain ⟨e, he, -⟩ | ⟨x', h, hx', ht, h'⟩ := handOut_eq (n := n) hf c
    · simp [he] at hx
    · obtain rfl : x' = x := by simpa [hx'] using hx
      have ha := p.allocator_setAllocator f f ((p.allocator f).after a.request.call)
      rw [if_pos rfl] at ha
      obtain ⟨hl, hd, he⟩ := hi ha (c.after _)
      simp only [handOuts, h']
      refine ⟨.cons ht hl, fun hn => ?_, fun hn => he (Nat.lt_of_succ_lt_succ hn)⟩
      rw [hd (Nat.succ.inj hn), Pool.setAllocator_setAllocator]
      rfl

/-! ### What is told of a run -/

theorem lines_of_tells (h : List.Forall₂ (Tells n r) xs hs) : (hs.flatMap HandOut.printed).filterMap
    Journal.Printed.line? = xs.map fun x => Text.ofString (r.label ++ x.shown) := by
  induction h
  case nil => rfl
  case cons t _ hi =>
    rw [List.flatMap_cons, List.filterMap_append, hi, HandOut.printed, List.filterMap_append,
      Journal.filterMap_line?_records, t.line]
    rfl

-- Of the records, those of the command tell of one request each.
theorem records_of_tells (h : List.Forall₂ (Tells n r) xs hs) :
    ((hs.flatMap HandOut.printed).filterMap Journal.Printed.record?).filter (·.origin = .command)
      = xs.map fun x => .handedOut x.shown n := by
  induction h
  case nil => rfl
  case cons x h xs hs t _ hi =>
    have hn : h.taken.filter (·.origin = .command) = [] :=
      List.filter_eq_nil_iff.mpr fun record hr => by simp [t.taken record hr]
    have hp : h.printed.filterMap Journal.Printed.record? = h.taken ++ [.handedOut x.shown n] := by
      rw [HandOut.printed, List.filterMap_append, Journal.filterMap_record?_records, t.told]
      rfl
    rw [List.flatMap_cons, List.filterMap_append, List.filter_append, hi, hp, List.filter_append, hn]
    rfl

theorem sum_of_tells (h : List.Forall₂ (Tells n r) xs hs) (sum : Int) :
    hs.foldl (fun sum h => sum + h.size) sum = sum + (r.given xs).length := by
  induction h generalizing sum
  case nil => simp
  case cons x h xs hs t _ hi =>
    have hg : r.given (x :: xs) = r.given [x] ++ r.given xs := by simp [Request.given_cons]
    rw [List.foldl_cons, hi, t.size, hg, List.length_append]
    omega

/-! ### The command -/

variable {π : Type} {system : System π} {pools : PoolSet}

-- What the command prints and which records it issues, given the texts of what it handed out and all addresses
-- in them.
structure Books (n : PoolName) (f : Family) (p : Pool) (done : Prop) (label : String) (shown : List String)
    (given : List Address) (t : Transcript π) : Prop where
  distinct : given.Nodup
  free     : ∀ x ∈ given, x ∈ (p.free f).addresses
  success  : done → t.status = 0 ∧ t.error = none ∧ ∃ left : Pool,
    t.lines = Text.ofString s!"Allocating from pool: {n.text}" :: shown.map (fun s => Text.ofString (label ++ s))
      ++ Text.ofString s!"Allocated {given.length} addresses from pool {n.text} (ipv{f.number})" :: freeLines n left
    ∧ List.Forall₂ Shows (left.stocks n) (freeLines n left)
    ∧ (left.free f).addresses = (p.free f).addresses \ given.toFinset
    ∧ given.length + (left.free f).addresses.card = (p.free f).addresses.card
    ∧ ∀ g, g ≠ f → left.free g = p.free g
  failure  : ¬ done → t.status = 1
    ∧ t.lines = Text.ofString s!"Allocating from pool: {n.text}" :: shown.map fun s => Text.ofString (label ++ s)
  told     : t.records.filter (·.origin = .command) = shown.map (Record.handedOut · n)

-- What is printed up to the end of the hand-outs.
def handOutsPrinted (loaded : Loaded π) (n : PoolName) (hs : List HandOut) : List Journal.Printed :=
  loaded.printed ++ .line (Text.ofString s!"Allocating from pool: {n.text}") :: hs.flatMap HandOut.printed

section

variable (hl : (a.sources.load system).pools = .ok pools) (hn : a.pool = Text.ofString n.text)

include hl hn

theorem runAllocate_of_ok {left : Pool} (hf : a.family = f.number)
    (hr : (handOuts n a a.count.toNat (pools.get n)).2 = .ok left) :
    let hs := (handOuts n a a.count.toNat (pools.get n)).1
    let sum := hs.foldl (fun sum h => sum + h.size) 0
    let summary := Text.ofString s!"Allocated {sum} addresses from pool {n.text} (ipv{f.number})"
    runAllocate system a =
      { status := 0
        printed := handOutsPrinted (a.sources.load system) n hs ++ (summary :: freeLines n left).map .line
        plan := (a.sources.load system).plan } := by
  simp only [runAllocate, hl, hn, PoolSet.named_text, hr, hf, handOutsPrinted, Text.ofString_append, List.append_assoc]
  rfl

theorem runAllocate_of_error {e : Pool.Fault} (hr : (handOuts n a a.count.toNat (pools.get n)).2 = .error e) :
    let t := runAllocate system a
    t.status = 1
    ∧ t.printed = handOutsPrinted (a.sources.load system) n (handOuts n a a.count.toNat (pools.get n)).1 := by
  simp only [runAllocate, hl, hn, PoolSet.named_text, hr, handOutsPrinted, Text.ofString_append]
  exact ⟨rfl, rfl⟩

-- Whether all is handed out or not, the records are the same.
theorem records_runAllocate (hf : a.family = f.number) : (runAllocate system a).records =
    (handOutsPrinted (a.sources.load system) n
      (handOuts n a a.count.toNat (pools.get n)).1).filterMap Journal.Printed.record? := by
  cases hr : (handOuts n a a.count.toNat (pools.get n)).2
  case error e =>
    obtain ⟨-, hp⟩ := runAllocate_of_error hl hn hr
    exact congrArg (·.filterMap Journal.Printed.record?) hp
  case ok left =>
    rw [runAllocate_of_ok hl hn hf hr, Transcript.records, List.filterMap_append, Journal.filterMap_record?_lines,
      List.append_nil]

end

theorem lines_handOutsPrinted (h : List.Forall₂ (Tells n r) xs hs) (loaded : Loaded π) :
    (handOutsPrinted loaded n hs).filterMap Journal.Printed.line?
      = Text.ofString s!"Allocating from pool: {n.text}" :: xs.map fun x => Text.ofString (r.label ++ x.shown) := by
  rw [handOutsPrinted, Loaded.printed, List.filterMap_append, Journal.filterMap_line?_records, List.nil_append,
    ← lines_of_tells h]
  rfl

theorem records_handOutsPrinted (loaded : Loaded π) :
    (handOutsPrinted loaded n hs).filterMap Journal.Printed.record?
      = loaded.records ++ (hs.flatMap HandOut.printed).filterMap Journal.Printed.record? := by
  rw [handOutsPrinted, Loaded.printed, List.filterMap_append, Journal.filterMap_record?_records]
  rfl

section

variable (hl : (a.sources.load system).pools = .ok pools) (hn : a.pool = Text.ofString n.text)
variable (hf : a.family = f.number) (hc : a.count = count)
variable (served : Served a.request ((pools.get n).allocator f) count xs)

include hl hn hf hc served

theorem lines_of_done (hx : xs.length = count) :
    let left := (pools.get n).setAllocator f
      (((pools.get n).allocator f).run (List.replicate xs.length a.request.call))
    let t := runAllocate system a
    t.status = 0 ∧ t.error = none
    ∧ t.lines = Text.ofString s!"Allocating from pool: {n.text}" ::
      xs.map (fun x => Text.ofString (a.request.label ++ x.shown))
      ++ Text.ofString s!"Allocated {(a.request.given xs).length} addresses from pool {n.text} (ipv{f.number})" ::
        freeLines n left := by
  intro left t
  obtain ⟨ht, hd, -⟩ := handOuts_of_served (n := n) hf ((sound_of_load hl).canonical n f) served
  obtain rfl : count = a.count.toNat := by omega
  have he : t = _ := runAllocate_of_ok hl hn hf (hd hx)
  have hp := lines_handOutsPrinted ht (a.sources.load system)
  refine ⟨by rw [he], by rw [he], ?_⟩
  rw [he, Transcript.lines, List.filterMap_append, hp, Journal.filterMap_line?_lines, sum_of_tells ht, zero_add]
  simp only [left, hx]
  rfl

theorem lines_of_refused (hx : xs.length < count) :
    let t := runAllocate system a
    t.status = 1 ∧ t.lines = Text.ofString s!"Allocating from pool: {n.text}" ::
      xs.map fun x => Text.ofString (a.request.label ++ x.shown) := by
  obtain ⟨ht, -, he⟩ := handOuts_of_served (n := n) hf ((sound_of_load hl).canonical n f) served
  obtain rfl : count = a.count.toNat := by omega
  obtain ⟨e, he⟩ := he hx
  obtain ⟨hs, hp⟩ := runAllocate_of_error hl hn he
  exact ⟨hs, by rw [Transcript.lines, hp, lines_handOutsPrinted ht]⟩

-- Nothing of this stands among the records of loading.
theorem records_of_served : (runAllocate system a).records.filter (·.origin = .command)
    = xs.map fun x => .handedOut x.shown n := by
  obtain ⟨hs, -, -⟩ := handOuts_of_served (n := n) hf ((sound_of_load hl).canonical n f) served
  obtain rfl : count = a.count.toNat := by omega
  have hz : (a.sources.load system).records.filter (·.origin = .command) = [] := by
    simpa using (a.sources.arises_load system).quiet
  rw [records_runAllocate hl hn hf, records_handOutsPrinted, List.filter_append, hz, List.nil_append,
    records_of_tells hs]

theorem books_of_served : Books n f (pools.get n) (xs.length = count) a.request.label (xs.map Answer.shown)
    (a.request.given xs) (runAllocate system a) := by
  have hs := sound_of_load hl
  have c : ((pools.get n).allocator f).Canonical := hs.canonical n f
  refine ⟨served.nodup c, served.mem_free c, fun hx => ?success, fun hx => ?failure, ?told⟩
  case success =>
    obtain ⟨hst, he, ht⟩ := lines_of_done hl hn hf hc served hx
    have hleft := (pools.get n).free_setAllocator f f
      (((pools.get n).allocator f).run (List.replicate xs.length a.request.call))
    rw [if_pos rfl] at hleft
    refine ⟨hst, he, _, by rw [ht, List.map_map]; rfl, shows_freeLines (hs.free_run n f · _) n,
      hleft ▸ served.free_left c, hleft ▸ served.length_given_add c, fun g hg => ?_⟩
    rw [Pool.free_setAllocator, if_neg hg]
  case failure =>
    obtain ⟨hst, ht⟩ := lines_of_refused hl hn hf hc served (Nat.lt_of_le_of_ne served.length_le hx)
    exact ⟨hst, by rw [ht, List.map_map]; rfl⟩
  case told =>
    rw [records_of_served hl hn hf hc served, List.map_map]
    rfl

end

-- Single addresses come in ascending order, one in a line, until as many are shown as were asked for or none
-- is left. In a line for a block stand its stretches; lines come until one block is refused. What is told of
-- the sum, of what is left, and by the records agrees with these lines. How the log is set up has no influence.
theorem allocate_keeps_books {π : Type} (system : System π) (a : Allocation) (n : PoolName) (f : Family)
    (count : Nat) (pools : PoolSet) (hl : (a.sources.load system).pools = .ok pools)
    (hn : a.pool = Text.ofString n.text) (hf : a.family = f.number) (hc : a.count = count) :
    let t := runAllocate system a
    let p := pools.get n
    let total := (p.free f).addresses.card
    (a.blocks = false → ∃ order : List Address, order.Pairwise (· < ·)
      ∧ (∀ x, x ∈ order ↔ x ∈ (p.free f).addresses) ∧ order.length = total
      ∧ Books n f p (count ≤ total) "  ip: " ((order.take count).map Address.text) (order.take count) t)
    ∧ (a.blocks = true → ∃ blocks : List FreeList,
      (p.allocator f).history (List.replicate blocks.length .takeBlock)
        = blocks.map (fun is => { call := .takeBlock, outcome := .ok (.stretches is) })
      ∧ (blocks.length = count ∨ blocks.length < count
        ∧ ∃ e, ((p.allocator f).run (List.replicate blocks.length .takeBlock)).outcome .takeBlock = .error e)
      ∧ (∀ is ∈ blocks, Lists (Interval.listed is) is)
      ∧ Books n f p (blocks.length = count) "  chunk: " (blocks.map Interval.listed)
        (blocks.flatMap FreeList.ascending) t) := by
  intro t p total
  have hs := sound_of_load hl
  have c : (p.allocator f).Canonical := hs.canonical n f
  have ck : (p.free f).Canonical f.octetCount := hs.free_canonical n f
  refine ⟨fun hb => ?_, fun hb => ?_⟩
  · have hr : a.request = .single := by simp [Allocation.request, hb]
    have hlen : ((p.allocator f).free.ascending.length : Int) = total := ck.length_ascending.trans ck.size_eq_card
    have hd : (((p.allocator f).free.ascending.take count).map Answer.address).length = count ↔ count ≤ total := by
      rw [List.length_map, List.length_take]
      omega
    have hk := books_of_served hl hn hf hc (hr ▸ Allocator.served_singles c count)
    rw [hr, List.map_map, Request.given_singles, propext hd] at hk
    exact ⟨_, ck.pairwise_lt_ascending, fun x => ck.mem_ascending, Int.ofNat.inj hlen, hk⟩
  · have hr : a.request = .block := by simp [Allocation.request, hb]
    obtain ⟨blocks, h, hcan⟩ := Allocator.exists_served_blocks c (hs.octetCount n f) count
    have hk := books_of_served hl hn hf hc (hr ▸ h)
    rw [hr, List.map_map, Request.given_blocks, List.length_map] at hk
    have hh := h.history
    have hst := h.stopped
    have hle := h.length_le
    rw [List.length_map] at hh hst hle
    rw [List.map_map] at hh
    refine ⟨blocks, hh, ?_, fun is hi => ?_, hk⟩
    · exact (Nat.eq_or_lt_of_le hle).imp_right fun hlt => ⟨hlt, hst hlt⟩
    · obtain ⟨hne, ci⟩ := hcan is hi
      exact .listed (fun i hi => ⟨f, ci.fits hi⟩) hne

def ofPod (count : Int) (blocks : Bool) : Allocation :=
  { pool := "pod", sources := settingsOnly, count, blocks, family := 4 }

-- Three single addresses, and two blocks, of which the second one is refused.
theorem allocate_keeps_books_of_two :
    let t := runAllocate (holding twoPools) (ofPod 3 false)
    let t' := runAllocate (holding twoPools) (ofPod 2 true)
    let p := twoPoolsFree.get .pod
    (settingsOnly.load (holding twoPools)).pools = .ok twoPoolsFree
    ∧ (p.free .v4).addresses.card = 267
    ∧ (∃ order : List Address, order.Pairwise (· < ·) ∧ order.length = 267
      ∧ Books .pod .v4 p (3 ≤ 267) "  ip: " ((order.take 3).map Address.text) (order.take 3) t)
    ∧ t.lines = ["Allocating from pool: pod", "  ip: 10.0.0.1", "  ip: 10.0.1.0", "  ip: 10.0.1.1",
      "Allocated 3 addresses from pool pod (ipv4)", "pod ipv4 free=264 ranges=10.0.1.2-10.0.2.9",
      "pod ipv6 free=1 ranges=fd00::1-fd00::1"]
    ∧ (∃ blocks : List FreeList, Books .pod .v4 p (blocks.length = 2) "  chunk: "
      (blocks.map Interval.listed) (blocks.flatMap FreeList.ascending) t')
    ∧ t'.status = 1
    ∧ t'.lines = ["Allocating from pool: pod", "  chunk: 10.0.0.1-10.0.0.1, 10.0.1.0-10.0.1.255"] := by
  intro t t' p
  have hs := sound_of_load load_twoPools
  have hsize : (p.free .v4).size = 267 := by decide +kernel
  have hcard : (p.free .v4).addresses.card = 267 :=
    Int.ofNat.inj ((hs.free_canonical .pod .v4).size_eq_card.symm.trans hsize)
  obtain ⟨h, -⟩ := allocate_keeps_books _ (ofPod 3 false) .pod .v4 3 _ load_twoPools rfl rfl rfl
  obtain ⟨-, h'⟩ := allocate_keeps_books _ (ofPod 2 true) .pod .v4 2 _ load_twoPools rfl rfl rfl
  obtain ⟨order, hp, -, hl, hb⟩ := h rfl
  obtain ⟨blocks, -, -, -, hb'⟩ := h' rfl
  rw [hcard] at hl hb
  exact ⟨load_twoPools, hcard, ⟨order, hp, hl, hb⟩, by decide +kernel, ⟨blocks, hb'⟩, by decide +kernel,
    by decide +kernel⟩

-- One address is free and handed out. In the output, records stand in front of the lines of the command, and
-- between them.
theorem undated_records_beside_books :
    let t := runAllocate (holding oneAddressUndated) (ofPod 1 false)
    (settingsOnly.load (holding oneAddressUndated)).pools = .ok oneAddressFree
    ∧ (oneAddressFree.get .pod).free .v4 = [⟨⟨[10, 0, 0, 1]⟩, ⟨[10, 0, 0, 1]⟩⟩]
    ∧ t.status = 0
    ∧ t.lines = ["Allocating from pool: pod", "  ip: 10.0.0.1", "Allocated 1 addresses from pool pod (ipv4)"]
    ∧ t.output (fun _ => nowhere) =
      ["INFO Pool pod loaded from configuration: 1 IPv4 and 0 IPv6 free addresses",
        "INFO Pool service loaded from configuration: 0 IPv4 and 0 IPv6 free addresses",
        "INFO Pool static-service loaded from configuration: 0 IPv4 and 0 IPv6 free addresses",
        "INFO Pool node-service loaded from configuration: 0 IPv4 and 0 IPv6 free addresses",
        "Allocating from pool: pod", "  ip: 10.0.0.1", "INFO Dry-run allocated 10.0.0.1 from pool pod",
        "Allocated 1 addresses from pool pod (ipv4)"] :=
  ⟨load_oneAddressUndated, by decide +kernel, by decide +kernel, by decide +kernel, by decide +kernel⟩

end CommandLine

end AddressSpace
