import AddressSpace.Proofs.Pool.Routing

/-!
Operations on a set of pools: calls, and stretches that are put in on loading. An operation that reaches
an allocator does there what the bare call does and leaves the other seven; one that reaches none is
refused and leaves all eight.
-/

namespace AddressSpace.PoolSet

inductive Operation where
  | call (name : Text) (call : Pool.Call)
  | seed (name : Text) (range : Interval)

-- Why an operation is refused.
inductive Refusal where
  | call (fault : PoolSet.Fault)
  | seed (fault : Loading.Fault)
  | noPool (name : Text)

namespace Operation

def name : Operation → Text
  | .call name _ | .seed name _ => name

def onPool : Operation → Pool.Call
  | .call _ c => c
  | .seed _ i => .add (.octets i.first) (.octets i.last)

-- The call that the allocator receives.
def bare (o : Operation) : Allocator.Call :=
  o.onPool.bare

-- The operation reaches the allocator of a pool and a family.
def Reaches (n : PoolName) (f : Family) (o : Operation) : Prop :=
  PoolName.ofText? o.name = some n ∧ o.onPool.family? = some f

instance (n : PoolName) (f : Family) : DecidablePred (Reaches n f) :=
  fun _ => inferInstanceAs (Decidable (_ ∧ _))

-- What the fault of the allocator comes out as.
def refusal (n : PoolName) : Operation → Allocator.Fault → Refusal
  | .call _ _, f => .call (.pool (.allocator f))
  | .seed _ i, f => .seed (.seed n i f)

end Operation

def outcome (s : PoolSet) : Operation → Except Refusal Allocator.Answer
  | .call name c => ((s.perform name c).map Prod.fst).mapError .call
  | .seed name i =>
    match PoolName.ofText? name with
    | none   => .error (.noPool name)
    | some n =>
      match (Loading.seed n i s).fault with
      | some f => .error (.seed f)
      | none   => .ok .done

-- The pools after an operation; a call that fails leaves them as they are.
def after (s : PoolSet) : Operation → PoolSet
  | .call name c =>
    match s.perform name c with
    | .error _   => s
    | .ok (_, s) => s
  | .seed name i =>
    match PoolName.ofText? name with
    | none   => s
    | some n => (Loading.seed n i s).pools

def run (s : PoolSet) (os : List Operation) : PoolSet :=
  os.foldl after s

-- The allocator of a pool and a family.
def allocator (s : PoolSet) (n : PoolName) (f : Family) : Allocator :=
  (s.get n).allocator f

-- The pools with another allocator in the place of one.
def put (s : PoolSet) (n : PoolName) (f : Family) (t : Allocator) : PoolSet :=
  s.set n ((s.get n).setAllocator f t)

variable {s s' : PoolSet} {o : Operation} {n m : PoolName} {f g : Family} {t : Allocator}
variable {i : Interval}

theorem allocator_put :
    allocator (s.put n f t) m g = if m = n ∧ g = f then t else s.allocator m g := by
  simp only [allocator, put, PerPool.get_set]
  by_cases h : m = n
  case pos => simp [h, Pool.allocator_setAllocator]
  case neg => simp [h]

theorem ext (h : ∀ n f, s.allocator n f = s'.allocator n f) : s = s' :=
  have hp (n : PoolName) : s.get n = s'.get n := Pool.ext (h n .v4) (h n .v6)
  PerPool.ext (hp .pod) (hp .service) (hp .staticService) (hp .nodeService)

@[simp]
theorem put_self : s.put n f (s.allocator n f) = s := by
  refine ext fun m g => ?_
  rw [allocator_put]
  split
  case isTrue h  => rw [h.left, h.right]
  case isFalse   => rfl

/-! ### Putting a stretch in -/

theorem seed_of_add_error {e : Allocator.Fault}
    (h : (s.get n).add (.octets i.first) (.octets i.last) = .error e) :
    (Loading.seed n i s).pools = s ∧ (Loading.seed n i s).fault = some (.seed n i e) := by
  simp [Loading.seed, h]

theorem seed_of_add_ok {p : Pool} (h : (s.get n).add (.octets i.first) (.octets i.last) = .ok p) :
    (Loading.seed n i s).pools = s.set n p ∧ (Loading.seed n i s).fault = none := by
  simp [Loading.seed, h]

/-! ### One operation -/

-- An operation makes the allocator that it reaches do what the bare call does.
theorem step_of_reaches (h : o.Reaches n f) :
    s.outcome o = ((s.allocator n f).outcome o.bare).mapError (o.refusal n)
    ∧ s.after o = s.put n f ((s.allocator n f).after o.bare) := by
  obtain ⟨hn, hf⟩ := h
  cases o <;> simp only [Operation.name, Operation.onPool] at hn hf
  case call name c =>
    have hp : s.perform name c = (((s.allocator n f).perform c.bare).map fun a =>
        (a.1, s.put n f a.2)).mapError fun e => .pool (.allocator e) := by
      simp only [PoolSet.perform, named, hn, Outcome.ok_bind, Pool.perform_eq_of_family? hf, allocator]
      cases ((s.get n).allocator f).perform c.bare <;> rfl
    simp only [outcome, after, hp, Allocator.outcome, Allocator.after, Operation.bare, Operation.onPool]
    cases (s.allocator n f).perform c.bare
    case error => exact ⟨rfl, put_self.symm⟩
    case ok    => exact ⟨rfl, rfl⟩
  case seed name i =>
    have ha : (s.get n).add (.octets i.first) (.octets i.last)
      = ((s.allocator n f).add (.octets i.first) (.octets i.last)).map ((s.get n).setAllocator f) :=
      Pool.add_eq_of_family? hf
    simp only [outcome, after, hn, Allocator.outcome, Allocator.after, Operation.bare, Operation.onPool,
      Pool.Call.bare, Allocator.perform]
    cases hc : (s.allocator n f).add (.octets i.first) (.octets i.last) <;> rw [hc] at ha
    case error e =>
      obtain ⟨hp, hs⟩ := seed_of_add_error ha
      rw [hp, hs]
      exact ⟨rfl, put_self.symm⟩
    case ok t =>
      obtain ⟨hp, hs⟩ := seed_of_add_ok ha
      rw [hp, hs]
      exact ⟨rfl, rfl⟩

-- A name of no pool is refused, and so is a call that no family takes.
theorem step_of_unnamed (h : PoolName.ofText? o.name = none) :
    (∃ r, s.outcome o = .error r) ∧ s.after o = s := by
  cases o <;> simp only [Operation.name] at h
  case call name c =>
    have hp : s.perform name c = .error (.unknown name) := by simp [PoolSet.perform, named, h]
    exact ⟨⟨.call (.unknown name), by simp [outcome, hp]⟩, by simp [after, hp]⟩
  case seed name i => exact ⟨⟨.noPool name, by simp [outcome, h]⟩, by simp [after, h]⟩

theorem step_of_unrouted (h : PoolName.ofText? o.name = some n) (hf : o.onPool.family? = none) :
    (∃ r, s.outcome o = .error r) ∧ s.after o = s := by
  cases o <;> simp only [Operation.name, Operation.onPool] at h hf
  case call name c =>
    obtain ⟨e, he⟩ := Pool.perform_eq_error (p := s.get n) hf
    have hp : s.perform name c = .error (.pool e) := by simp [PoolSet.perform, named, h, he]
    exact ⟨⟨.call (.pool e), by simp [outcome, hp]⟩, by simp [after, hp]⟩
  case seed name i =>
    obtain ⟨e, he⟩ := Pool.route_eq_error hf
    have ha : (s.get n).add (.octets i.first) (.octets i.last) = .error e := by simp [Pool.add, he]
    obtain ⟨hp, hs⟩ := seed_of_add_error ha
    exact ⟨⟨.seed (.seed n i e), by simp [outcome, h, hs]⟩, by simp [after, h, hp]⟩

-- An operation that reaches no allocator is refused.
theorem step_of_not_reaches (h : ∀ n f, ¬ o.Reaches n f) :
    (∃ r, s.outcome o = .error r) ∧ s.after o = s := by
  cases hn : PoolName.ofText? o.name
  case none   => exact step_of_unnamed hn
  case some n =>
    exact step_of_unrouted hn <| Option.eq_none_iff_forall_ne_some.mpr fun f hf => h n f ⟨hn, hf⟩

-- What an operation leaves of an allocator.
theorem allocator_after (o : Operation) (n : PoolName) (f : Family) : allocator (s.after o) n f
    = if o.Reaches n f then (s.allocator n f).after o.bare else s.allocator n f := by
  by_cases h : ∃ m g, o.Reaches m g
  case pos =>
    have ⟨m, g, h⟩ := h
    rw [(step_of_reaches h).right, allocator_put]
    by_cases hr : o.Reaches n f
    case pos =>
      have hn : n = m := Option.some.inj (hr.left.symm.trans h.left)
      have hf : f = g := Option.some.inj (hr.right.symm.trans h.right)
      simp [hn, hf, h]
    case neg => rw [if_neg hr, if_neg fun ⟨hn, hf⟩ => hr (hn ▸ hf ▸ h)]
  case neg =>
    simp only [not_exists] at h
    rw [(step_of_not_reaches h).right, if_neg (h n f)]

-- An operation that is refused leaves all pools as they were.
theorem after_eq_self {r : Refusal} (h : s.outcome o = .error r) : s.after o = s := by
  refine ext fun n f => ?_
  rw [allocator_after]
  split
  case isFalse    => rfl
  case isTrue hr =>
    rw [(step_of_reaches hr).left] at h
    cases hc : (s.allocator n f).outcome o.bare
    case error => exact Allocator.after_eq_self hc
    case ok    => simp [hc] at h

end AddressSpace.PoolSet
