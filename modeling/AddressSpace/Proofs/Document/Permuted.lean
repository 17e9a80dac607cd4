import AddressSpace.Proofs.Document.Checked
import Mathlib.Data.List.Perm.Basic

/-!
Documents that list the same ranges in another order. Each range is checked on its own, so such documents
pass their checks together, and then hold the same ranges.
-/

namespace AddressSpace

-- The same value, or a list with the same items in another order.
inductive Json.Permuted : Json → Json → Prop
  | refl {v} : Permuted v v
  | items {vs vs'} (h : vs.Perm vs') : Permuted (.arr vs) (.arr vs')

namespace Document

-- The same value, or an object that lists the same items for each pool, in any order.
inductive Permuted : Json → Json → Prop
  | refl {v} : Permuted v v
  | lists {members members'} (h : ∀ n, Option.Rel Json.Permuted (member? members n) (member? members' n)) :
    Permuted (.obj members) (.obj members')

variable {members members' : List (Text × Json)} {items items' : List Json} {v v' : Json} {n : PoolName}
variable {rs : List Range} {d : Document} {input input' : Input}

theorem exists_perm_of_map_eq (h : items.map Range.ofJson = rs.map .ok) (hp : items.Perm items') :
    ∃ rs', rs.Perm rs' ∧ items'.map Range.ofJson = rs'.map .ok := by
  have hp : (items'.map Range.ofJson).Perm (rs.map .ok) := h ▸ (hp.symm.map Range.ofJson)
  have ⟨rs', he, hr⟩ := (congrFun₂ (List.eq_map_comp_perm Except.ok) _ _).mpr hp
  exact ⟨rs', hr.symm, he⟩

theorem rangesOf_of_permuted (h : Option.Rel Json.Permuted (member? members n) (member? members' n))
    (hr : rangesOf members n = .ok rs) : ∃ rs', rangesOf members' n = .ok rs' ∧ rs.Perm rs' := by
  cases rangesOf_eq_ok_iff.mp hr
  case inl hn =>
    rw [hn.left] at h
    cases hm : member? members' n <;> rw [hm] at h <;> cases h
    exact ⟨[], rangesOf_eq_ok_iff.mpr (.inl ⟨hm, rfl⟩), hn.right ▸ .refl _⟩
  case inr hl =>
    obtain ⟨items, hi, he⟩ := hl
    rw [hi] at h
    cases hm : member? members' n <;> rw [hm] at h <;> cases h
    case some v hv =>
      cases hv
      case refl => exact ⟨rs, rangesOf_eq_ok_iff.mpr (.inr ⟨items, hm, he⟩), .refl _⟩
      case items items' hp =>
        have ⟨rs', hr', he'⟩ := exists_perm_of_map_eq he hp
        exact ⟨rs', rangesOf_eq_ok_iff.mpr (.inr ⟨items', hm, he'⟩), hr'⟩

theorem ofJson_of_permuted (h : Permuted v v') (hd : ofJson v = .ok d) :
    ∃ d', ofJson v' = .ok d' ∧ ∀ n, (d.get n).Perm (d'.get n) := by
  cases h
  case refl => exact ⟨d, hd, fun _ => .refl _⟩
  case lists members members' h =>
    obtain ⟨_, he, hr⟩ := ofJson_eq_ok_iff.mp hd
    cases he
    choose rs hr' hp using fun n => rangesOf_of_permuted (h n) (hr n)
    refine ⟨.ofFn rs, ofJson_eq_ok_iff.mpr ⟨_, rfl, fun n => ?_⟩, fun n => ?_⟩
    · rw [PerPool.get_ofFn, hr']
    · rw [PerPool.get_ofFn]
      exact hp n

-- A document whose lists are in another order passes its check, with the same ranges.
theorem check_of_permuted (h : Option.Rel Permuted input.json? input'.json?) (hd : check input = .ok d) :
    ∃ d', check input' = .ok d' ∧ ∀ n, (d.get n).Perm (d'.get n) := by
  obtain ⟨v, hv, hd⟩ := check_eq_ok_iff.mp hd
  rw [hv] at h
  cases hv' : input'.json? <;> rw [hv'] at h <;> cases h
  case some v' h =>
    have ⟨d', hd', hp⟩ := ofJson_of_permuted h hd
    exact ⟨d', check_eq_ok_iff.mpr ⟨v', hv', hd'⟩, hp⟩

end Document

end AddressSpace
