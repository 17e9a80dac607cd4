import AddressSpace.Proofs.Address.Steps
import AddressSpace.Proofs.Allocator.Canonical

/-!
Calls to an allocator with a guard at every step whose flag is not looked at. A guarded call breaks off where
a step wraps around, where a jump leaves the space, and where the search for a block goes astray. Main
statement: a guarded call never breaks off, and does what the call does.
-/

namespace AddressSpace.Guarded

open Allocator (Call Answer)

-- What would go wrong. The search for a block lacks from 1 to 256 addresses all the way, and finds them
-- before the list ends.
inductive Misstep where
  | wrappedUp (a : Address)
  | wrappedDown (a : Address)
  | outOfSpace (a : Address) (places : Int)
  | lacking (needed : Int)
  | unfinished

def up (a : Address) : Except Misstep Address :=
  if a.next.2 then .error (.wrappedUp a) else .ok a.next.1

def down (a : Address) : Except Misstep Address :=
  if a.previous.2 then .error (.wrappedDown a) else .ok a.previous.1

def jump (a : Address) (places : Int) : Except Misstep Address :=
  match a.shift? places with
  | some b => .ok b
  | none   => .error (.outOfSpace a places)

def below (i cut : Interval) : Except Misstep (List Interval) :=
  if i.first < cut.first then return [{ first := i.first, last := ← down cut.first }]
  else return []

def above (i cut : Interval) : Except Misstep (List Interval) :=
  if cut.last < i.last then return [{ first := ← up cut.last, last := i.last }]
  else return []

def minus (i cut : Interval) : Except Misstep (List Interval) :=
  if i.overlaps cut then return (← below i cut) ++ (← above i cut)
  else return [i]

def remove (cut : Interval) : FreeList → Except Misstep FreeList
  | []        => return []
  | i :: rest => return (← minus i cut) ++ (← remove cut rest)

def removeAll : List Interval → FreeList → Except Misstep FreeList
  | [], l          => return l
  | cut :: cuts, l => do removeAll cuts (← remove cut l)

def takeLowest? : FreeList → Except Misstep (Option (Address × FreeList))
  | []        => return none
  | i :: rest =>
    if i.first = i.last then return some (i.first, rest)
    else return some (i.first, { first := ← up i.first, last := i.last } :: rest)

def cutPoint (i : Interval) (needed : Int) : Except Misstep Address := do
  let stop ← jump i.first (needed - 1)
  if stop < i.last then
    if (← up stop).opensBlock then return stop
    else return Address.lower stop.blockEnd i.last
  else return stop

def lowestBlock (needed : Int) : FreeList → Except Misstep (List Interval)
  | []        => throw .unfinished
  | i :: rest =>
    if needed < 1 ∨ FreeList.blockSize < needed then throw (.lacking needed)
    else if i.size < needed then return i :: (← lowestBlock (needed - i.size) rest)
    else return [{ first := i.first, last := ← cutPoint i needed }]

-- Calls that add addresses or look at them take no step with a flag that is not looked at.
def perform (t : Allocator) : Call → Except Misstep (Except Allocator.Fault (Answer × Allocator))
  | .remove first last =>
    match Allocator.stretch first last with
    | .error f => return .error f
    | .ok i    =>
      if i.last < i.first then return .ok (.flag false, t)
      else
        match t.accept i.first with
        | .error f => return .error f
        | .ok ()   => return .ok (.flag (t.free.overlaps i), { t with free := ← remove i t.free })
  | .take => do
    match ← takeLowest? t.free with
    | none           => return .error .empty
    | some (a, free) => return .ok (.address a, { t with free })
  | .takeBlock =>
    if t.free.size < FreeList.blockSize then return .error (.short t.free.size)
    else do
      let taken ← lowestBlock FreeList.blockSize t.free
      return .ok (.stretches taken, { t with free := ← removeAll taken t.free })
  | c => return t.perform c

variable {octetCount : Nat} {l : FreeList} {i cut : Interval} {cuts : List Interval} {a b : Address}
variable {needed : Int} {t : Allocator}

/-! ### Steps -/

theorem up_of_lt (hl : a.length = b.length) (h : a.value < b.value) : up a = .ok a.next.1 := by
  have hb := hl ▸ b.value_lt
  have hw : ¬ a.next.2 := by
    rw [Address.next_wraps_iff]
    omega
  exact if_neg hw

theorem down_of_lt (h : b.value < a.value) : down a = .ok a.previous.1 := by
  have hw : ¬ a.previous.2 := by
    rw [Address.previous_wraps_iff]
    omega
  exact if_neg hw

theorem jump_eq_ok_iff {places : Int} : jump a places = .ok b ↔ a.shift places = .ok b := by
  simp only [jump, Address.shift]
  cases a.shift? places <;> simp

/-! ### Removing -/

-- A step down is taken only above the start of a stretch, and a step up only below its end.
theorem minus_eq_ok (hi : i.Fits octetCount) (hc : cut.Fits octetCount) :
    minus i cut = .ok (i.minus cut) := by
  have hb : below i cut
      = .ok (if i.first < cut.first then [{ first := i.first, last := cut.first.previous.1 }] else []) := by
    rw [below]
    split
    case isTrue h =>
      rw [down_of_lt ((Address.lt_iff_value_lt (hi.first.trans hc.first.symm)).mp h)]
      rfl
    case isFalse => rfl
  have ha : above i cut
      = .ok (if cut.last < i.last then [{ first := cut.last.next.1, last := i.last }] else []) := by
    have hl := hc.last.trans hi.last.symm
    rw [above]
    split
    case isTrue h =>
      rw [up_of_lt hl ((Address.lt_iff_value_lt hl).mp h)]
      rfl
    case isFalse => rfl
  rw [minus, Interval.minus, hb, ha]
  split <;> rfl

theorem remove_eq_ok (c : l.Canonical octetCount) (hc : cut.Fits octetCount) :
    remove cut l = .ok (l.remove cut) := by
  induction l
  case nil => rfl
  case cons i l hl =>
    have ⟨hi, _, ct⟩ := FreeList.Canonical.cons_iff.mp c
    rw [remove, minus_eq_ok hi hc, hl ct]
    rfl

theorem removeAll_eq_ok (c : l.Canonical octetCount) (hc : ∀ cut ∈ cuts, cut.Fits octetCount) :
    removeAll cuts l = .ok (cuts.foldl (fun l cut => l.remove cut) l) := by
  induction cuts generalizing l
  case nil => rfl
  case cons cut cuts hi =>
    have ⟨h, ht⟩ := List.forall_mem_cons.mp hc
    rw [removeAll, remove_eq_ok c h]
    exact hi (FreeList.canonical_remove c h) ht

/-! ### Taking -/

theorem takeLowest?_eq_ok (c : l.Canonical octetCount) : takeLowest? l = .ok l.takeLowest? := by
  cases l
  case nil => rfl
  case cons i l =>
    have hi := c.fits (.head l)
    simp only [takeLowest?, FreeList.takeLowest?]
    split
    case isTrue => rfl
    case isFalse h =>
      have hlt : i.first.value < i.last.value :=
        lt_of_le_of_ne hi.le fun hv => h (Address.eq_of_value_eq hi.length_eq hv)
      rw [up_of_lt hi.length_eq hlt]
      rfl

theorem cutPoint_eq_ok (hi : i.Fits octetCount) (h₀ : 0 < needed) (h : needed ≤ i.size) :
    ∃ stop, FreeList.cutPoint i needed = .ok stop ∧ cutPoint i needed = .ok stop := by
  have hs := FreeList.shift_first_eq_ok hi h₀ h
  generalize he : Address.ofValue octetCount _ = stop at hs
  have hl : stop.length = i.last.length := he ▸ (Address.length_ofValue ..).trans hi.last.symm
  simp only [FreeList.cutPoint, cutPoint, hs, jump_eq_ok_iff.mpr hs, Outcome.ok_bind]
  by_cases hlt : stop < i.last
  case neg => simp [hlt]
  case pos =>
    rw [up_of_lt hl ((Address.lt_iff_value_lt hl).mp hlt)]
    cases ho : stop.next.1.opensBlock <;> simp [hlt, ho]

-- As long as the list has as many addresses as are lacking, the search stays within it.
theorem lowestBlock_eq_ok (c : l.Canonical octetCount) (h₀ : 0 < needed) (h₁ : needed ≤ FreeList.blockSize)
    (h : needed ≤ l.size) :
    ∃ taken, FreeList.lowestBlock needed l = .ok taken ∧ lowestBlock needed l = .ok taken := by
  induction l generalizing needed
  case nil => simp only [FreeList.size] at h; omega
  case cons i l hl =>
    obtain ⟨hi, _, ct⟩ := FreeList.Canonical.cons_iff.mp c
    simp only [FreeList.size] at h
    have hn : ¬ (needed < 1 ∨ FreeList.blockSize < needed) := by omega
    rw [lowestBlock, FreeList.lowestBlock, if_neg hn]
    by_cases hs : i.size < needed
    case pos =>
      have hpos : 0 ≤ i.size := hi.size_eq ▸ Int.natCast_nonneg _
      have hr : needed - i.size ≤ FreeList.size l := by omega
      obtain ⟨taken, ht, hg⟩ := hl ct (by omega) (by omega) hr
      rw [if_pos hs, if_pos hs, ht, hg]
      exact ⟨_, rfl, rfl⟩
    case neg =>
      obtain ⟨stop, ht, hg⟩ := cutPoint_eq_ok hi h₀ (by omega)
      rw [if_neg hs, if_neg hs, ht, hg]
      exact ⟨_, rfl, rfl⟩

/-! ### Calls -/

theorem perform_eq_ok (h : t.Canonical) (c : Call) : perform t c = .ok (t.perform c) := by
  have ⟨_, ck, _⟩ := Allocator.canonical_iff.mp h
  cases c
  case remove first last =>
    simp only [perform, Allocator.perform, Allocator.remove]
    cases hs : Allocator.stretch first last
    case error => rfl
    case ok i =>
      by_cases hr : i.last < i.first
      case pos => simp [hr]
      case neg =>
        cases ha : t.accept i.first
        case error => simp [hr, ha]
        case ok =>
          have hle := (Allocator.not_reversed_iff_le hs).mp hr
          have hg := remove_eq_ok (h.of_accept ha) (Allocator.fits_of_stretch hs hle)
          simp [hr, ha, hg]
  case take =>
    simp only [perform, Allocator.perform, Allocator.take, takeLowest?_eq_ok ck, Outcome.ok_bind]
    cases t.free.takeLowest? <;> rfl
  case takeBlock =>
    by_cases hs : t.free.size < FreeList.blockSize
    case pos => simp [perform, Allocator.perform, Allocator.takeBlock, hs]
    case neg =>
      have hle := Int.not_lt.mp hs
      obtain ⟨taken, hb, hg⟩ := lowestBlock_eq_ok ck (by decide) le_rfl hle
      obtain ⟨_, _, hb', ct, _⟩ := FreeList.exists_lowestBlock ck (by decide) hle
      cases hb.symm.trans hb'
      rw [Allocator.perform_takeBlock hle hb]
      simp only [perform, if_neg hs, hg, Outcome.ok_bind, removeAll_eq_ok ck fun i hi => ct.fits hi]
      rfl
  all_goals rfl

-- After every run, a guarded call never breaks off, whatever it is: no step wraps around, no jump leaves the
-- space, and the search for a block lacks from 1 to 256 addresses at every stretch that it looks at and
-- comes to its end. It does what the call does, so no bound of a stretch comes from a step that wrapped
-- around.
theorem never_breaks_off (octetCount : Option Number) (calls : List Call) (c : Call) :
    let t := Allocator.run { octetCount } calls
    perform t c = .ok (t.perform c) :=
  perform_eq_ok ((Allocator.Canonical.empty octetCount).run calls) c

-- A stretch in reverse that begins at the top of the space would lead to a step that wraps around; no run
-- comes to it.
example : perform { free := [⟨⟨[255]⟩, ⟨[3]⟩⟩] } .take = .error (.wrappedUp ⟨[255]⟩) := by
  rfl

end AddressSpace.Guarded
