import AddressSpace.Proofs.Loading.Document
import AddressSpace.Proofs.Settings.Entry

/-!
Where loading from settings stops. Entries are put in one after the other, up to the first that is
refused; an entry that can be read is never refused by the pools. The document is looked at when all
entries are in, and comes in as a whole or not at all.
-/

namespace AddressSpace

namespace Supply

-- The stretches that entries name, as far as they can be read.
def ofEntries (es : List (PoolName × Text)) : Supply :=
  es.flatMap fun (n, t) => (Entry.read t).toOption.toList.map (n, ·)

variable {es : List (PoolName × Text)} {n : PoolName} {i : Interval}

theorem mem_ofEntries : (n, i) ∈ ofEntries es ↔ ∃ t, (n, t) ∈ es ∧ Entry.read t = .ok i := by
  simp only [ofEntries, List.mem_flatMap, Prod.exists, List.mem_map, Option.mem_toList, Prod.mk.injEq]
  constructor
  · rintro ⟨m, t, ht, _, hi, rfl, rfl⟩
    refine ⟨t, ht, ?_⟩
    cases hr : Entry.read t <;> simp_all [Except.toOption]
  · rintro ⟨t, ht, hi⟩
    exact ⟨n, t, ht, i, by simp [hi, Except.toOption], rfl, rfl⟩

theorem fits_ofEntries : (ofEntries es).Fits := fun _ hp =>
  have ⟨_, _, hi⟩ := mem_ofEntries.mp hp
  Entry.fits_of_read hi

end Supply

theorem Document.fits_supply {d : Document} {input : Document.Input} (h : Document.check input = .ok d) :
    d.supply.Fits := fun p hp => by
  have ⟨r, hr, hi⟩ := Document.mem_supply.mp hp
  have ⟨f, i, hn⟩ := Document.names_of_check h p.1 r hr
  have he : i = p.2 := Except.ok.inj (hn.stretch.symm.trans hi)
  exact ⟨f, he ▸ hn.fits⟩

namespace Loading

variable {s : PoolSet} {o : Outcome} {step step' : Step} {steps steps' : List Step} {n : PoolName}
variable {t : Text} {i : Interval} {es before after : List (PoolName × Text)} {maxDepth : Nat}

/-! ### Entries -/

def entries (es : List (PoolName × Text)) : Step :=
  inOrder (es.map fun (n, t) => entry n t)

theorem andThen_assoc : (o.andThen step).andThen step' = o.andThen fun s => (step s).andThen step' := by
  cases h : o.fault
  case some => simp [Outcome.andThen, h]
  case none =>
    simp only [Outcome.andThen, h]
    cases hs : (step o.pools).fault <;> simp [hs]

theorem inOrder_append : inOrder (steps ++ steps') s = (inOrder steps s).andThen (inOrder steps') := by
  induction steps generalizing s
  case nil => simp [inOrder, Outcome.andThen]
  case cons step steps hi =>
    simp only [List.cons_append, inOrder, andThen_assoc]
    congr 1
    funext s
    exact hi

theorem Step.Supplies.entry (h : Entry.read t = .ok i) : (entry n t).Supplies [(n, i)] := by
  have ⟨_, hi⟩ := Entry.fits_of_read h
  have he : Loading.entry n t = Loading.seed n i := by
    funext s
    simp [Loading.entry, h]
  exact he ▸ seed hi

-- Entries that can be read are all put in.
theorem Step.Supplies.entries (h : ∀ p ∈ es, ∃ i, Entry.read p.2 = .ok i) :
    (entries es).Supplies (.ofEntries es) :=
  inOrder_map fun p hp => by
    have ⟨i, hi⟩ := h p hp
    simpa [hi, Except.toOption] using entry hi

-- The first entry that is refused ends the run, with the entries before it put in.
theorem entries_of_refused (n : PoolName) (after : List (PoolName × Text)) {e : Entry.Fault} (hs : s.Sound)
    (hb : ∀ p ∈ before, ∃ i, Entry.read p.2 = .ok i) (he : Entry.read t = .error e) :
    (entries (before ++ (n, t) :: after) s).fault = some (.entry e)
    ∧ (entries (before ++ (n, t) :: after) s).pools = s.run (Supply.ofEntries before).calls := by
  have h := Step.Supplies.entries hb
  have hf := (h s hs).left
  have hp := h.pools_eq Supply.fits_ofEntries hs
  simp only [entries, List.map_append, inOrder_append] at hf hp ⊢
  rw [fault_andThen hf, pools_andThen hf, hp]
  simp [inOrder, entry, he, Outcome.andThen]

/-! ### The document behind the entries -/

theorem documentFile_of_unread {files : Files} {p : Path} {e : Fault} (h : readDocument maxDepth files p = .error e) :
    (documentFile maxDepth files p s).fault = some e ∧ (documentFile maxDepth files p s).pools = s := by
  simp [documentFile, h]

theorem documentFile_of_read {files : Files} {p : Path} {input : Document.Input}
    (h : readDocument maxDepth files p = .ok input) : documentFile maxDepth files p s = document input s := by
  simp [documentFile, h]

theorem fault_of_error {input : Document.Input} {issues : List Document.Issue}
    (h : Document.check input = .error issues) : (document input s).fault ≠ none := fun hn => by
  simpa [hn] using (document_of_error h (s := s)).right

theorem check_of_loaded {input : Document.Input} (h : (document input s).fault = none) :
    ∃ d, Document.check input = .ok d := by
  cases hc : Document.check input
  case ok d    => exact ⟨d, rfl⟩
  case error e => exact absurd h (fault_of_error hc)

/-! ### Settings -/

variable {files : Files} {c : Settings}

theorem settings_of_refused (maxDepth : Nat) (files : Files) {e : Entry.Fault} (hs : s.Sound)
    (hc : c.allEntries = before ++ (n, t) :: after) (hb : ∀ p ∈ before, ∃ i, Entry.read p.2 = .ok i)
    (he : Entry.read t = .error e) :
    (settings maxDepth files c s).fault = some (.entry e)
    ∧ (settings maxDepth files c s).pools = s.run (Supply.ofEntries before).calls
    ∧ settings maxDepth files c s = entries c.allEntries s := by
  have ⟨hf, hp⟩ := entries_of_refused n after hs hb he
  rw [← hc] at hf hp
  have h : settings maxDepth files c s = entries c.allEntries s := andThen_of_fault hf
  exact ⟨h ▸ hf, h ▸ hp, h⟩

theorem read_of_loaded (hs : s.Sound) (h : (settings maxDepth files c s).fault = none) :
    ∀ p ∈ c.allEntries, ∃ i, Entry.read p.2 = .ok i := by
  by_contra hn
  obtain ⟨before, ⟨n, t⟩, after, e, hc, hb, he⟩ :=
    Outcome.exists_first_error (Outcome.not_forall_ok_iff.mp hn)
  simp [(settings_of_refused maxDepth files hs hc hb he).left] at h

-- Behind entries that can be read, everything depends on the document.
theorem settings_of_read (maxDepth : Nat) (files : Files) (hs : s.Sound)
    (h : ∀ p ∈ c.allEntries, ∃ i, Entry.read p.2 = .ok i) :
    let u := s.run (Supply.ofEntries c.allEntries).calls
    u.Sound
    ∧ (c.documentPath = none → (settings maxDepth files c s).fault = none ∧ (settings maxDepth files c s).pools = u)
    ∧ ∀ path, c.documentPath = some path →
      (settings maxDepth files c s).fault = (documentFile maxDepth files (.ofText path) u).fault
      ∧ (settings maxDepth files c s).pools = (documentFile maxDepth files (.ofText path) u).pools := by
  intro u
  have hf := (Step.Supplies.entries h s hs).left
  have hp := (Step.Supplies.entries h).pools_eq Supply.fits_ofEntries hs
  have he (step : Step) : ((entries c.allEntries s).andThen step).fault = (step u).fault
      ∧ ((entries c.allEntries s).andThen step).pools = (step u).pools := by
    rw [fault_andThen hf, pools_andThen hf, hp]
    exact ⟨rfl, rfl⟩
  refine ⟨(supplied_calls hs Supply.fits_ofEntries).sound, fun hn => ?_, fun path hpath => ?_⟩
  · simp only [settings, hn]
    exact he (report "configuration")
  · simp only [settings, hpath]
    exact he (documentFile maxDepth files (.ofText path))

-- The pools at hand after an attempt to fill new ones: the new ones, or the old ones if it fails.
def refilled (s : PoolSet) (step : Step) : PoolSet :=
  match fresh step with
  | .error _ => s
  | .ok t    => t

theorem fresh_of_fault {e : Fault} (h : (step .empty).fault = some e) : fresh step = .error e := by
  simp [fresh, h]

theorem refilled_of_fault {e : Fault} (h : (step .empty).fault = some e) (s : PoolSet) :
    refilled s step = s := by
  simp [refilled, fresh_of_fault h]

-- Loading from settings puts the entries in up to the first that is refused, and then does not look at the
-- document. If all entries can be read, none of them is refused by any pools; the document comes in behind
-- them as a whole, or nothing of it does. New pools are had from settings or documents only if these are
-- loaded without a fault.
theorem settings_stops_at_first_fault (s : PoolSet) (hs : s.Reachable) (maxDepth : Nat) (files : Files)
    (c : Settings) :
    let es := PoolName.all.flatMap fun n => (c.entries.get n).map (n, ·)
    let o := settings maxDepth files c s
    ((∃ p ∈ es, ∃ e, Entry.read p.2 = .error e) → ∃ before n t after e, es = before ++ (n, t) :: after
      ∧ (∀ p ∈ before, ∃ i, Entry.read p.2 = .ok i) ∧ Entry.read t = .error e
      ∧ o.fault = some (.entry e) ∧ o.pools = s.run (Supply.ofEntries before).calls
      ∧ ∀ maxDepth' files' document, settings maxDepth' files' { c with document } s = o)
    ∧ ((∀ p ∈ es, ∃ i, Entry.read p.2 = .ok i) →
      (∀ p ∈ Supply.ofEntries es, ∀ t : PoolSet, t.Reachable → (seed p.1 p.2 t).fault = none)
      ∧ (c.documentPath = none → o.fault = none ∧ o.pools = s.run (Supply.ofEntries es).calls)
      ∧ ∀ path, c.documentPath = some path →
        (∀ e, readDocument maxDepth files (.ofText path) = .error e →
          o.fault = some e ∧ o.pools = s.run (Supply.ofEntries es).calls)
        ∧ ∀ input, readDocument maxDepth files (.ofText path) = .ok input →
          (∀ issues, Document.check input = .error issues →
            o.fault ≠ none ∧ o.pools = s.run (Supply.ofEntries es).calls)
          ∧ ∀ d, Document.check input = .ok d →
            o.fault = none ∧ o.pools = (s.run (Supply.ofEntries es).calls).run d.supply.calls)
    ∧ (∀ e, (settings maxDepth files c .empty).fault = some e →
      fresh (settings maxDepth files c) = .error e ∧ ∀ t, refilled t (settings maxDepth files c) = t)
    ∧ ∀ input e, (document input .empty).fault = some e →
      fresh (document input) = .error e ∧ ∀ t, refilled t (document input) = t := by
  intro es o
  refine ⟨fun h => ?_, fun h => ?_, fun e h => ⟨fresh_of_fault h, refilled_of_fault h⟩,
    fun input e h => ⟨fresh_of_fault h, refilled_of_fault h⟩⟩
  · obtain ⟨before, ⟨n, t⟩, after, e, hc, hb, he⟩ := Outcome.exists_first_error h
    have ⟨hf, hp, ho⟩ := settings_of_refused maxDepth files hs.sound hc hb he
    refine ⟨before, n, t, after, e, hc, hb, he, hf, hp, fun maxDepth' files' document => ?_⟩
    -- Other settings with the same entries stop at the same place.
    have ho' := settings_of_refused maxDepth' files' (c := { c with document }) hs.sound hc hb he
    exact ho'.right.right.trans ho.symm
  · obtain ⟨hu, hn, hd⟩ := settings_of_read maxDepth files hs.sound h
    refine ⟨fun p hm t ht => ?_, hn, fun path hpath => ?_⟩
    · have ⟨_, hi⟩ := Supply.fits_ofEntries p hm
      exact (seed_of_fits ht.sound hi).left
    obtain ⟨hf, hp⟩ := hd path hpath
    refine ⟨fun e he => ?_, fun input hi => ?_⟩
    · have h := documentFile_of_unread he (s := s.run (Supply.ofEntries es).calls)
      exact ⟨hf.trans h.left, hp.trans h.right⟩
    rw [documentFile_of_read hi] at hf hp
    refine ⟨fun issues he => ?_, fun d hk => ?_⟩
    · exact ⟨hf ▸ fault_of_error he, hp.trans (document_of_error he).left⟩
    · have h := Step.Supplies.document hk
      exact ⟨hf.trans (h _ hu).left, hp.trans (h.pools_eq (Document.fits_supply hk) hu)⟩

-- No file is there.
def noFiles : Files := fun _ => .error .missing

-- Of three entries, the second one has its bounds in reverse.
def secondReversed : Settings :=
  { entries := .ofFn fun
      | .pod     => ["10.0.0.1"]
      | .service => ["10.0.0.9-10.0.0.2", "10.0.0.4"]
      | _        => []
    document := some "pools.json" }

-- All entries can be read, and the document is not there.
def documentMissing : Settings :=
  { entries := .ofFn fun
      | .pod => [" fd00::1-fd00::3 "]
      | _    => []
    document := some "pools.json" }

theorem settings_stops_at_first_fault_of_two :
    let es : List (PoolName × Text) :=
      [(.pod, "10.0.0.1"), (.service, "10.0.0.9-10.0.0.2"), (.service, "10.0.0.4")]
    let o := settings Json.usualDepth noFiles secondReversed .empty
    let o' := settings Json.usualDepth noFiles documentMissing .empty
    PoolSet.Reachable .empty ∧ Entry.read "10.0.0.9-10.0.0.2" = .error (.reversed "10.0.0.9-10.0.0.2")
    ∧ (∃ before n t after e, es = before ++ (n, t) :: after ∧ Entry.read t = .error e
      ∧ o.fault = some (.entry e) ∧ o.pools = PoolSet.run .empty (Supply.ofEntries before).calls)
    ∧ o'.fault = some (.unreadable (.ofText "pools.json") .missing)
    ∧ o'.pools = PoolSet.run .empty (Supply.ofEntries [(.pod, " fd00::1-fd00::3 ")]).calls := by
  intro es o o'
  have he : Entry.read "10.0.0.9-10.0.0.2" = .error (.reversed "10.0.0.9-10.0.0.2") := by rfl
  have hr : ∀ p ∈ [(PoolName.pod, Text.ofString " fd00::1-fd00::3 ")], ∃ i, Entry.read p.2 = .ok i :=
    List.forall_mem_singleton.mpr ⟨_, rfl⟩
  have ⟨h, _⟩ := settings_stops_at_first_fault .empty .empty Json.usualDepth noFiles secondReversed
  have ⟨_, h', _⟩ := settings_stops_at_first_fault .empty .empty Json.usualDepth noFiles documentMissing
  obtain ⟨before, n, t, after, e, hes, _, ht, hf, hp, _⟩ :=
    h ⟨(.service, "10.0.0.9-10.0.0.2"), .tail _ (.head _), _, he⟩
  obtain ⟨hf', hp'⟩ := ((h' hr).right.right "pools.json" rfl).left _ rfl
  exact ⟨.empty, he, ⟨before, n, t, after, e, hes, ht, hf, hp⟩, hf', hp'⟩

end Loading

end AddressSpace
