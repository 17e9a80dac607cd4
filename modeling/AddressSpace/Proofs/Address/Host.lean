import AddressSpace.Address.Source
import AddressSpace.Proofs.Address.Value
import AddressSpace.Proofs.Text.Blank
import AddressSpace.Proofs.Text.Separated

/-!
Hosts that were read from text: how the text spells them, that the address has the length of the family,
when two of them are in order, and what the sources of addresses resolve to.
-/

namespace AddressSpace

theorem Family.octetCount_inj {f g : Family} (h : f.octetCount = g.octetCount) : f = g := by
  cases f <;> cases g <;> first | rfl | cases h

namespace Host

-- How a text spells a host. Only IPv6 addresses between colons have a scope.
inductive Spelled : Text → Host → Prop
  | dotted {cs octets} : dotted? cs = some octets →
    Spelled (Text.ofChars cs) { family := .v4, address := ⟨octets⟩ }
  | coloned {cs octets} : coloned? cs = some octets →
    Spelled (Text.ofChars cs) { family := .v6, address := ⟨octets⟩ }
  | linked {cs octets} {scope : Text} : coloned? cs = some octets →
    Spelled (Text.ofChars cs ++ .char '%' :: scope) { family := .v6, address := ⟨octets⟩, scope }

variable {t : Text} {cs : List Char} {octets : List UInt8} {h k : Host}

theorem length_of_dotted (h : dotted? cs = some octets) : octets.length = 4 := by
  simp only [dotted?, Option.bind_eq_bind, Option.bind_eq_some_iff] at h
  have ⟨_, _, h⟩ := h
  split at h <;> cases h
  assumption

theorem length_of_coloned (h : coloned? cs = some octets) : octets.length = 16 := by
  simp only [coloned?] at h
  split at h
  case h_1 =>
    simp only [Option.bind_eq_bind, Option.bind_eq_some_iff] at h
    have ⟨_, _, h⟩ := h
    split at h <;> cases h
    assumption
  case h_2 =>
    simp only [Option.bind_eq_bind, Option.bind_eq_some_iff] at h
    have ⟨high, _, low, _, h⟩ := h
    split at h <;> cases h
    simp only [List.length_append, List.length_replicate]
    omega

theorem spelled_of_ofChars (he : ofChars? cs = some h) : Spelled (Text.ofChars cs) h := by
  simp only [ofChars?] at he
  split at he
  case h_1 hd =>
    cases he
    exact .dotted hd
  case h_2 =>
    obtain ⟨octets, hc, rfl⟩ := Option.map_eq_some_iff.mp he
    exact .coloned hc

-- Whatever is read is spelled in one of these ways.
theorem spelled_of_ofText (he : ofText? t = some h) : Spelled t h := by
  simp only [ofText?] at he
  split at he
  case isTrue => cases he
  case isFalse =>
    rcases Text.cut_cases (.char '%') t with ⟨_, ht⟩ | ⟨body, scope, _, rfl, ht⟩
    all_goals
      simp only [ht, Option.bind_eq_bind, Option.bind_eq_some_iff] at he
      obtain ⟨cs, hc, he⟩ := he
      rw [Text.chars?_eq_some_iff] at hc
      subst hc
    case inl => exact spelled_of_ofChars he
    case inr =>
      split at he
      case isTrue => cases he
      case isFalse =>
        obtain ⟨octets, hc, rfl⟩ := Option.map_eq_some_iff.mp he
        exact .linked hc

theorem length_of_ofText (he : ofText? t = some h) : h.address.length = h.family.octetCount := by
  cases spelled_of_ofText he
  case dotted hd              => exact length_of_dotted hd
  case coloned hc | linked hc => exact length_of_coloned hc

theorem length_eq_iff_family_eq {u : Text} (hh : ofText? t = some h) (hk : ofText? u = some k) :
    h.address.length = k.address.length ↔ h.family = k.family := by
  rw [length_of_ofText hh, length_of_ofText hk]
  exact ⟨Family.octetCount_inj, congrArg Family.octetCount⟩

theorem family_of_ofText_of_scope {scope : Text} (he : ofText? t = some h) (hs : h.scope = some scope) :
    h.family = .v6 := by
  cases spelled_of_ofText he
  case dotted           => cases hs
  case coloned | linked => rfl

-- Hosts of one family that differ in their scopes are not IPv4 hosts, which have none.
theorem family_of_scope_ne {u : Text} (hh : ofText? t = some h) (hk : ofText? u = some k)
    (hf : h.family = k.family) (hs : h.scope ≠ k.scope) : h.family = .v6 := by
  cases hn : h.scope
  case some => exact family_of_ofText_of_scope hh hn
  case none =>
    have ⟨_, hk'⟩ := Option.ne_none_iff_exists'.mp (hn ▸ hs).symm
    exact hf ▸ family_of_ofText_of_scope hk hk'

theorem not_inOrder (he : h.address = k.address) (hs : h.scope ≠ k.scope) : ¬ h.inOrder k := by
  simp [inOrder, he, hs, Address.lt_iff_value_lt]

-- Only scopes can put hosts with their addresses in order out of order.
theorem le_iff_inOrder_or (hl : h.address.length = k.address.length) :
    h.address.value ≤ k.address.value ↔ h.inOrder k ∨ h.address = k.address ∧ h.scope ≠ k.scope := by
  simp only [inOrder, Bool.or_eq_true, decide_eq_true_eq, Address.lt_iff_value_lt hl]
  by_cases he : h.address = k.address
  case pos =>
    simp only [he, le_refl, lt_irrefl, true_and, false_or, true_iff]
    exact em _
  case neg =>
    have hv : h.address.value ≠ k.address.value := fun hv => he (Address.eq_of_value_eq hl hv)
    simp only [he, false_and, or_false]
    exact ⟨fun hle => lt_of_le_of_ne hle hv, le_of_lt⟩

-- Scopes aside, hosts that are in order have their addresses in order.
theorem le_of_inOrder (hl : h.address.length = k.address.length) (ho : h.inOrder k) :
    h.address.value ≤ k.address.value :=
  (le_iff_inOrder_or hl).mpr (.inl ho)

theorem inOrder_of_le (hl : h.address.length = k.address.length) (hs : h.scope = k.scope)
    (hle : h.address.value ≤ k.address.value) : h.inOrder k :=
  ((le_iff_inOrder_or hl).mp hle).resolve_right fun hne => hne.right hs

-- Hosts with equal addresses are in order only on one link.
theorem inOrder_iff (hl : h.address.length = k.address.length) : h.inOrder k ↔
    h.address.value < k.address.value ∨ h.address.value = k.address.value ∧ h.scope = k.scope := by
  have he : h.address = k.address ↔ h.address.value = k.address.value :=
    ⟨congrArg Address.value, Address.eq_of_value_eq hl⟩
  simp [inOrder, Address.lt_iff_value_lt hl, he]

end Host

namespace Address.Source

theorem resolve_octets {a : Address} (h : 0 < a.length) : (octets a).resolve = .ok a := by
  simp [resolve, octets_ne_nil h]

theorem resolve_text {t : Text} {h : Host} (ht : Text.trim t = t)
    (he : Host.ofText? t = some h) : (text t).resolve = .ok h.address := by
  simp [resolve, ht, he]

theorem resolve_text_eq_ok_iff {t : Text} {a : Address} :
    (text t).resolve = .ok a ↔ ∃ h, Host.ofText? (Text.trim t) = some h ∧ h.address = a := by
  simp only [resolve]
  cases Host.ofText? (Text.trim t) <;> simp

-- Text spells addresses of the families alone.
theorem length_of_resolve_text {t : Text} {a : Address} (h : (text t).resolve = .ok a) :
    ∃ f : Family, a.length = f.octetCount := by
  obtain ⟨k, hk, rfl⟩ := resolve_text_eq_ok_iff.mp h
  exact ⟨k.family, Host.length_of_ofText hk⟩

end Address.Source

end AddressSpace
