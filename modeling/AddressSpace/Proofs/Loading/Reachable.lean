import AddressSpace.Proofs.Pool.Independence

/-!
Pools that are reached by operations and by loading. Loading may stop half-way, and what it leaves then
is as sound as what it leaves when it succeeds.
-/

namespace AddressSpace

namespace Loading

variable {s : PoolSet} {o : Outcome} {step : Step} {steps : List Step} {n : PoolName} {i : Interval}
variable {maxDepth : Nat}

theorem andThen_of_fault {e : Fault} (h : o.fault = some e) : o.andThen step = o := by
  simp [Outcome.andThen, h]

theorem pools_andThen (h : o.fault = none) : (o.andThen step).pools = (step o.pools).pools := by
  simp [Outcome.andThen, h]

theorem fault_andThen (h : o.fault = none) : (o.andThen step).fault = (step o.pools).fault := by
  simp [Outcome.andThen, h]

-- Putting a stretch in is an operation on the pools.
theorem pools_seed (s : PoolSet) (n : PoolName) (i : Interval) :
    (seed n i s).pools = s.after (.seed n.text i) := by
  simp [PoolSet.after, PoolName.ofText?_text]

-- A step that leaves sound pools sound, whether it succeeds or not.
def Step.Safe (step : Step) : Prop :=
  ∀ s : PoolSet, s.Sound → (step s).pools.Sound

namespace Step.Safe

theorem andThen (ho : o.pools.Sound) (h : step.Safe) : (o.andThen step).pools.Sound := by
  cases hf : o.fault
  case none   => exact pools_andThen hf ▸ h _ ho
  case some e => rw [andThen_of_fault hf]; exact ho

theorem inOrder (h : ∀ step ∈ steps, step.Safe) : (inOrder steps).Safe := by
  induction steps <;> intro s hs
  case nil => exact hs
  case cons step steps hi =>
    have ⟨h₁, h₂⟩ := List.forall_mem_cons.mp h
    exact andThen (h₁ s hs) (hi h₂)

theorem seed : (seed n i).Safe := fun s hs =>
  pools_seed s n i ▸ hs.run [.seed n.text i]

theorem entry {text : Text} : (entry n text).Safe := fun s hs => by
  simp only [Loading.entry]
  split
  case h_1 => exact hs
  case h_2 => exact seed s hs

theorem range {r : Document.Range} : (range n r).Safe := fun s hs => by
  simp only [Loading.range]
  split
  case h_1 => exact hs
  case h_2 => exact seed s hs

theorem document {input : Document.Input} : (document input).Safe := fun s hs => by
  simp only [Loading.document]
  split
  case h_1 => exact hs
  case h_2 => exact hs
  case h_3 d _ =>
    refine andThen (inOrder (fun step h => ?_) s hs) fun _ hs => hs
    have ⟨_, _, h⟩ := List.mem_flatMap.mp h
    have ⟨_, _, h⟩ := List.mem_map.mp h
    exact h ▸ range

theorem documentFile {files : Files} {p : Path} : (documentFile maxDepth files p).Safe := fun s hs => by
  simp only [Loading.documentFile]
  split
  case h_1 => exact hs
  case h_2 => exact document s hs

theorem settings {files : Files} {c : Settings} : (settings maxDepth files c).Safe := fun s hs => by
  refine andThen (inOrder (fun step h => ?_) s hs) ?_
  · have ⟨_, _, h⟩ := List.mem_map.mp h
    exact h ▸ entry
  · split
    case h_1 => exact fun _ hs => hs
    case h_2 => exact documentFile

end Step.Safe

end Loading

namespace PoolSet

-- The pools that come out of empty ones by operations and by loading, failed or not.
inductive Reachable : PoolSet → Prop
  | empty : Reachable .empty
  | after {s} (o : Operation) : Reachable s → Reachable (s.after o)
  | document {s} (input : Document.Input) : Reachable s → Reachable (Loading.document input s).pools
  | settings {s} (maxDepth : Nat) (files : Files) (c : Settings) :
    Reachable s → Reachable (Loading.settings maxDepth files c s).pools

theorem Reachable.sound {s : PoolSet} (h : s.Reachable) : s.Sound := by
  induction h
  case empty           => exact .empty
  case after o _ hs    => exact hs.run [o]
  case document _ hs   => exact Loading.Step.Safe.document _ hs
  case settings hs     => exact Loading.Step.Safe.settings _ hs

end PoolSet

end AddressSpace
