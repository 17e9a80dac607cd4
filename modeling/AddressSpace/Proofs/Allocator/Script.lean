import AddressSpace.Proofs.Allocator.Canonical
import AddressSpace.Proofs.FreeList.Sweep

/-!
Calls to an allocator carried out step by step, where every step reads and writes the allocator by
itself. What was written stays when a later step fails. Main statement: a script does what its call does
as a whole, and where it fails, it has not written anything.
-/

namespace AddressSpace.Allocator

abbrev Script := EStateM Fault Allocator

namespace Script

variable {t : Allocator} {l : FreeList} {x : Address} {f : Fault} {fix : Bool}

-- The check of the length comes before the edit of the list, but may fix the length itself.
def accept (fix : Bool) (x : Address) : Script Unit := do
  let t ← get
  match t.octetCount with
  | none   => if fix then set { t with octetCount := some (.int x.length) }
  | some _ => MonadExcept.ofExcept (t.accept x)

def add (first last : Address.Source) : Script Answer := do
  let i ← MonadExcept.ofExcept (stretch first last)
  if i.last < i.first then throw (.reversed i)
  accept true i.first
  modify fun t => { t with free := t.free.sweep i }
  return .done

def remove (first last : Address.Source) : Script Answer := do
  let i ← MonadExcept.ofExcept (stretch first last)
  if i.last < i.first then return .flag false
  accept false i.first
  let t ← get
  set { t with free := t.free.remove i }
  return .flag (t.free.overlaps i)

def take : Script Answer := do
  let t ← get
  match t.free.takeLowest? with
  | none           => throw .empty
  | some (a, free) =>
    set { t with free }
    return .address a

def takeBlock : Script Answer := do
  let t ← get
  if t.free.size < FreeList.blockSize then throw (.short t.free.size)
  let taken ← MonadExcept.ofExcept ((FreeList.lowestBlock FreeList.blockSize t.free).mapError .address)
  taken.forM fun i => modify fun t => { t with free := t.free.remove i }
  return .stretches taken

-- Stretches are asked one after the other, and each refuses an address of another length than its own.
def covers (x : Address) : List Interval → Except Fault Bool
  | []        => .ok false
  | i :: rest => do if ← inside i x then return true else covers x rest

def contains (a : Address.Source) : Script Answer := do
  let x ← MonadExcept.ofExcept (a.resolve.mapError .ofAddress)
  accept false x
  let t ← get
  return .flag (← MonadExcept.ofExcept (covers x t.free))

def ofCall : Call → Script Answer
  | .add first last    => add first last
  | .remove first last => remove first last
  | .release a         => add a a
  | .take              => take
  | .takeBlock         => takeBlock
  | .freeList          => return .stretches (← get).free
  | .freeCount         => return .count (← get).free.size
  | .contains a        => contains a

-- What is seen of a call that is done as a whole: it is refused and leaves the allocator, or it leaves
-- another one.
def result (t : Allocator) : Except Fault (Answer × Allocator) → EStateM.Result Fault Allocator Answer
  | .ok (answer, t') => .ok answer t'
  | .error f         => .error f t

section

variable {α β : Type}

@[simp]
theorem run_ok (a : α) (t : Allocator) :
    (MonadExcept.ofExcept (.ok a : Except Fault α) : Script α).run t = .ok a t :=
  rfl

@[simp]
theorem run_error (f : Fault) (t : Allocator) :
    (MonadExcept.ofExcept (.error f : Except Fault α) : Script α).run t = .error f t :=
  rfl

@[simp]
theorem run_throw (f : Fault) (t : Allocator) : (throw f : Script α).run t = .error f t :=
  rfl

@[simp]
theorem run_map (g : α → β) (s : Script α) (t : Allocator) : (g <$> s).run t =
    match s.run t with
    | .ok a t'    => .ok (g a) t'
    | .error f t' => .error f t' := by
  simp only [EStateM.run, Functor.map, EStateM.map]
  cases s t <;> rfl

@[simp]
theorem run_modify (g : Allocator → Allocator) (t : Allocator) :
    (modify g : Script PUnit).run t = .ok ⟨⟩ (g t) :=
  rfl

end

-- The allocator once the length of an address is checked, and fixed if it was not.
def fixed (t : Allocator) (x : Address) : Allocator :=
  { t with octetCount := some (t.octetCount.getD (.int x.length)) }

theorem run_accept_of_ok (h : t.accept x = .ok ()) :
    (accept fix x).run t = .ok () (if fix then fixed t x else t) := by
  simp only [accept, EStateM.run_bind, EStateM.run_get]
  cases hn : t.octetCount
  case none => cases fix <;> simp [fixed, hn]
  case some =>
    have ht : fixed t x = t := by simp [fixed, hn, Allocator.ext_iff]
    simp [h, ht]

theorem run_accept_of_error (h : t.accept x = .error f) : (accept fix x).run t = .error f t := by
  simp only [accept, EStateM.run_bind, EStateM.run_get]
  cases hn : t.octetCount
  case none => simp [Allocator.accept, hn] at h
  case some => simp [h]

theorem run_add (c : t.Canonical) (first last : Address.Source) :
    (add first last).run t = result t (t.perform (.add first last)) := by
  simp only [add, perform, Allocator.add, EStateM.run_bind]
  cases hs : stretch first last
  case error => simp [result]
  case ok i =>
    by_cases hr : i.last < i.first
    case pos => simp [hr, result]
    case neg =>
      cases ha : t.accept i.first
      case error f => simp [hr, run_accept_of_error ha, ha, result]
      case ok      =>
        have hi := fits_of_stretch hs ((not_reversed_iff_le hs).mp hr)
        have hw := FreeList.sweep_eq_add (c.of_accept ha) hi
        simp [hr, run_accept_of_ok ha, ha, result, fixed, hw]

theorem run_remove (t : Allocator) (first last : Address.Source) :
    (remove first last).run t = result t (t.perform (.remove first last)) := by
  simp only [remove, perform, Allocator.remove, EStateM.run_bind]
  cases hs : stretch first last
  case error => simp [result]
  case ok i =>
    by_cases hr : i.last < i.first
    case pos => simp [hr, result]
    case neg =>
      cases ha : t.accept i.first
      case error f => simp [hr, run_accept_of_error ha, ha, result]
      case ok      => simp [hr, run_accept_of_ok ha, ha, result]

theorem run_take (t : Allocator) : take.run t = result t (t.perform .take) := by
  simp only [take, perform, Allocator.take, EStateM.run_bind, EStateM.run_get]
  cases t.free.takeLowest? <;> simp [result]

theorem run_forM_remove (is : List Interval) (t : Allocator) :
    (forM is fun i => modify fun t => { t with free := t.free.remove i } : Script PUnit).run t
      = .ok ⟨⟩ (t.without is) := by
  induction is generalizing t
  case nil          => rfl
  case cons i is hi => exact hi { t with free := t.free.remove i }

theorem run_takeBlock (t : Allocator) : takeBlock.run t = result t (t.perform .takeBlock) := by
  simp only [takeBlock, perform, Allocator.takeBlock, EStateM.run_bind, EStateM.run_get]
  by_cases hs : t.free.size < FreeList.blockSize
  case pos => simp [hs, result]
  case neg =>
    cases t.free.lowestBlock FreeList.blockSize
    case error => simp [hs, result]
    case ok    => simp [hs, result, run_forM_remove, without]

-- Stretches that have bounds of the length of an address do not refuse it.
theorem covers_eq_ok (h : ∀ i ∈ l, x.length = i.first.length) : covers x l = .ok (l.covers x) := by
  induction l
  case nil => rfl
  case cons i l hi =>
    have ⟨h, ht⟩ := List.forall_mem_cons.mp h
    simp only [covers, inside, if_pos h, Outcome.ok_bind, hi ht, FreeList.covers, List.any_cons]
    cases i.spans x <;> rfl

theorem run_contains (c : t.Canonical) (a : Address.Source) :
    (contains a).run t = result t (t.perform (.contains a)) := by
  simp only [contains, perform, Allocator.contains, EStateM.run_bind]
  cases hr : a.resolve
  case error => simp [result]
  case ok x =>
    cases ha : t.accept x
    case error f => simp [run_accept_of_error ha, ha, result]
    case ok      =>
      have hx : ∀ i ∈ t.free, x.length = i.first.length := fun i hi => ((c.of_accept ha).fits hi).first.symm
      simp [run_accept_of_ok ha, ha, covers_eq_ok hx, result]

theorem run_ofCall (c : t.Canonical) (call : Call) : (ofCall call).run t = result t (t.perform call) := by
  cases call
  case add first last    => exact run_add c first last
  case remove first last => exact run_remove t first last
  case release a         => exact run_add c a a
  case take              => exact run_take t
  case takeBlock         => exact run_takeBlock t
  case freeList          => rfl
  case freeCount         => rfl
  case contains a        => exact run_contains c a

-- A script that fails leaves the allocator as it was, and has the fault of its call.
theorem run_eq_error_iff (c : t.Canonical) {call : Call} {t' : Allocator} :
    (ofCall call).run t = .error f t' ↔ t.outcome call = .error f ∧ t' = t := by
  rw [run_ofCall c, outcome]
  cases t.perform call
  case error g => simp [result, eq_comm]
  case ok p    => simp [result]

theorem run_eq_ok_iff (c : t.Canonical) {call : Call} {answer : Answer} {t' : Allocator} :
    (ofCall call).run t = .ok answer t' ↔ t.outcome call = .ok answer ∧ t' = t.after call := by
  rw [run_ofCall c, outcome, after]
  cases t.perform call
  case error g => simp [result]
  case ok p    => simp [result, eq_comm]

-- What is written when the script of a call comes to an end, whether it fails or not.
def left (t : Allocator) (call : Call) : Allocator :=
  match (ofCall call).run t with
  | .ok _ t' | .error _ t' => t'

theorem left_eq_after (c : t.Canonical) (call : Call) : left t call = t.after call := by
  rw [left, run_ofCall c, Allocator.after]
  cases t.perform call <;> rfl

theorem foldl_left (c : t.Canonical) (calls : List Call) : calls.foldl left t = t.run calls := by
  induction calls generalizing t
  case nil => rfl
  case cons call calls hi =>
    rw [List.foldl_cons, left_eq_after c]
    exact hi (c.after call)

end Script

end AddressSpace.Allocator
