import AddressSpace.Loading
import AddressSpace.Proofs.Address.Host
import AddressSpace.Proofs.Allocator.Canonical

/-!
Which allocator an operation on the pools reaches. It is told by the operation alone: by the pool that
it names, and by the family that it names or that its addresses belong to. The allocator then does what
it would have done on its own, and an operation that reaches none is refused.
-/

namespace AddressSpace

theorem PoolName.ofText?_text (n : PoolName) : ofText? n.text = some n := by
  cases n <;> decide

theorem PoolSet.named_text (n : PoolName) : named n.text = .ok n := by
  simp [named, PoolName.ofText?_text]

theorem Family.ofOctetCount?_eq_some_iff {n : Nat} {f : Family} :
    Family.ofOctetCount? n = some f ↔ n = f.octetCount := by
  constructor
  · intro h
    simpa [eq_comm] using List.find?_some h
  · rintro rfl
    cases f <;> rfl

namespace Allocator

variable {t : Allocator} {first last : Address.Source} {i : Interval}

theorem stretch_octets (h : i.first.length = i.last.length) (hp : 0 < i.first.length) :
    stretch (.octets i.first) (.octets i.last) = .ok i :=
  stretch_eq_ok_iff.mpr ⟨Address.Source.resolve_octets hp, Address.Source.resolve_octets (h ▸ hp), h⟩

-- Edits look at their sources only to find the stretch between them.
theorem add_eq_of_stretch (h : stretch first last = .ok i) (hp : 0 < i.first.length) :
    t.add (.octets i.first) (.octets i.last) = t.add first last := by
  simp only [add, h, stretch_octets (length_eq_of_stretch h) hp]

theorem remove_eq_of_stretch (h : stretch first last = .ok i) (hp : 0 < i.first.length) :
    t.remove (.octets i.first) (.octets i.last) = t.remove first last := by
  simp only [remove, h, stretch_octets (length_eq_of_stretch h) hp]

end Allocator

namespace Pool

open Allocator (stretch)

-- The family that a call names, or that the one length of its addresses belongs to.
def Call.family? : Call → Option Family
  | .add first last | .remove first last =>
    match stretch first last with
    | .ok i    => Family.ofOctetCount? i.first.length
    | .error _ => none
  | .release a =>
    match a.resolve with
    | .ok x    => Family.ofOctetCount? x.length
    | .error _ => none
  | .onFamily v _ =>
    match family v with
    | .ok f    => some f
    | .error _ => none

-- The call as an allocator takes it.
def Call.bare : Call → Allocator.Call
  | .add first last    => .add first last
  | .remove first last => .remove first last
  | .release a         => .release a
  | .onFamily _ call   => call

variable {p : Pool} {c : Call} {f : Family} {first last : Address.Source}

theorem octetCount_pos (f : Family) : 0 < f.octetCount := by
  cases f <;> decide

-- An edit reaches a family if both of its addresses have the length of the family's.
theorem family?_add_eq_some_iff : (Call.add first last).family? = some f ↔
    ∃ x y, first.resolve = .ok x ∧ last.resolve = .ok y
      ∧ x.length = f.octetCount ∧ y.length = f.octetCount := by
  simp only [Call.family?]
  constructor
  · intro h
    split at h
    case h_1 i hs =>
      have ⟨hf, hl, he⟩ := Allocator.stretch_eq_ok_iff.mp hs
      have hk := Family.ofOctetCount?_eq_some_iff.mp h
      exact ⟨i.first, i.last, hf, hl, hk, he ▸ hk⟩
    case h_2 => cases h
  · intro ⟨x, y, hx, hy, hk, hl⟩
    have hs : stretch first last = .ok ⟨x, y⟩ :=
      Allocator.stretch_eq_ok_iff.mpr ⟨hx, hy, hk.trans hl.symm⟩
    rw [hs]
    exact Family.ofOctetCount?_eq_some_iff.mpr hk

theorem family?_release (a : Address.Source) : (Call.release a).family? = (Call.add a a).family? := by
  simp only [Call.family?, Allocator.stretch_self]
  cases a.resolve <;> rfl

theorem route_eq_ok {i : Interval} (hs : stretch first last = .ok i)
    (hf : Family.ofOctetCount? i.first.length = some f) : route first last = .ok (f, i) := by
  simp [route, hs, hf]

theorem add_eq_of_family? (h : (Call.add first last).family? = some f) :
    p.add first last = ((p.allocator f).add first last).map (p.setAllocator f) := by
  simp only [Call.family?] at h
  split at h
  case h_1 i hs =>
    have hp : 0 < i.first.length := Family.ofOctetCount?_eq_some_iff.mp h ▸ octetCount_pos f
    simp only [add, route_eq_ok hs h, Outcome.ok_bind, Allocator.add_eq_of_stretch hs hp]
    cases (p.allocator f).add first last <;> rfl
  case h_2 => cases h

theorem remove_eq_of_family? (h : (Call.remove first last).family? = some f) : p.remove first last
    = ((p.allocator f).remove first last).map fun (b, t) => (b, p.setAllocator f t) := by
  simp only [Call.family?] at h
  split at h
  case h_1 i hs =>
    have hp : 0 < i.first.length := Family.ofOctetCount?_eq_some_iff.mp h ▸ octetCount_pos f
    simp only [remove, route_eq_ok hs h, Outcome.ok_bind, Allocator.remove_eq_of_stretch hs hp]
    cases (p.allocator f).remove first last <;> rfl
  case h_2 => cases h

theorem route_eq_error (h : (Call.add first last).family? = none) :
    ∃ fault, route first last = .error fault := by
  simp only [Call.family?] at h
  split at h
  case h_1 i hs => exact ⟨.address ⟨.octets i.first, .noFamily⟩, by simp [route, hs, h]⟩
  case h_2 e hs => exact ⟨e, by simp [route, hs]⟩

-- A call does with the allocator that it reaches what the bare call does, and leaves the other one.
theorem perform_eq_of_family? (h : c.family? = some f) : p.perform c
    = (((p.allocator f).perform c.bare).map fun (answer, t) => (answer, p.setAllocator f t)).mapError
      .allocator := by
  cases c
  case add first last =>
    simp only [perform, Call.bare, Allocator.perform, add_eq_of_family? h]
    cases (p.allocator f).add first last <;> rfl
  case remove first last =>
    simp only [perform, Call.bare, Allocator.perform, remove_eq_of_family? h]
    cases (p.allocator f).remove first last <;> rfl
  case release a =>
    rw [family?_release] at h
    simp only [perform, Call.bare, Allocator.perform, Allocator.release, add_eq_of_family? h]
    cases (p.allocator f).add a a <;> rfl
  case onFamily v call =>
    simp only [Call.family?] at h
    split at h <;> cases h
    case h_1 hf =>
      simp only [perform, Call.bare, hf, Outcome.ok_bind]
      cases (p.allocator f).perform call <;> rfl

theorem perform_eq_error (h : c.family? = none) : ∃ fault, p.perform c = .error fault := by
  cases c
  case add first last =>
    have ⟨e, he⟩ := route_eq_error h
    exact ⟨.allocator e, by simp [perform, add, he]⟩
  case remove first last =>
    have ⟨e, he⟩ := route_eq_error h
    exact ⟨.allocator e, by simp [perform, remove, he]⟩
  case release a =>
    have ⟨e, he⟩ := route_eq_error (family?_release a ▸ h)
    exact ⟨.allocator e, by simp [perform, add, he]⟩
  case onFamily v call =>
    simp only [Call.family?] at h
    split at h
    case h_1 => cases h
    case h_2 e he => exact ⟨e, by simp [perform, he]⟩

end Pool

end AddressSpace
