import AddressSpace.Proofs.Address.Distinct

/-!
The normal form of the text of an address is the text that is printed. An IPv4 address has no other spelling,
as its four numbers may not have zeros in front; the many spellings of an IPv6 address all come down to it.
-/

namespace AddressSpace

variable {t u : Text} {cs : List Char} {octets : List UInt8} {x : UInt8} {a b : Address} {h : Host}

namespace Host

-- A number of an IPv4 address has the one spelling in which it is printed.
theorem eq_toDigits_of_octet (ho : octet? cs = some x) : cs = Nat.toDigits 10 x.toNat := by
  simp only [octet?, Option.bind_eq_bind, Option.bind_eq_some_iff] at ho
  obtain ⟨ds, hm, ho⟩ := ho
  split at ho <;> cases ho
  case isFalse hc =>
    simp only [not_or, not_and, not_not, not_lt] at hc
    obtain ⟨hn, _, hz, hle⟩ := hc
    obtain ⟨hd, hcs⟩ := Text.eq_map_of_mapM (fun _ _ => Text.digitChar_of_digit?) hm
    have hx : (UInt8.ofNat (Text.ofDigits 10 ds)).toNat = Text.ofDigits 10 ds :=
      UInt8.toNat_ofNat_of_lt' (Nat.lt_succ_of_le hle)
    rw [hx, Text.toDigits_ofDigits (by decide) hd hn hz, hcs]

theorem eq_dotted_of_dotted (hd : dotted? cs = some octets) : cs = Address.dotted octets := by
  simp only [dotted?, Option.bind_eq_bind, Option.bind_eq_some_iff] at hd
  obtain ⟨octets, hm, hd⟩ := hd
  split at hd <;> cases hd
  obtain ⟨_, hs⟩ := Text.eq_map_of_mapM (p := fun _ => True) (fun _ _ ho => ⟨trivial, eq_toDigits_of_octet ho⟩) hm
  rw [Address.dotted, ← hs, Text.join_split]

theorem eq_text_of_ofText (he : ofText? t = some h) (hf : h.family = .v4) : t = Text.ofString h.address.text := by
  cases spelled_of_ofText he
  case dotted octets hd =>
    have hc : Address.chars ⟨octets⟩ = Address.dotted octets := Address.chars_eq (f := .v4) (length_of_dotted hd)
    rw [Address.ofString_text, hc, eq_dotted_of_dotted hd]
  case coloned | linked => cases hf

end Host

namespace Address

theorem text_eq_trim_of_resolve (h : (Source.text t).resolve = .ok a) (hl : a.length = 4) :
    Text.ofString a.text = Text.trim t := by
  obtain ⟨k, hk, rfl⟩ := Source.resolve_text_eq_ok_iff.mp h
  have hf : k.family = .v4 := Family.octetCount_inj ((Host.length_of_ofText hk).symm.trans hl)
  exact (Host.eq_text_of_ofText hk hf).symm

theorem length_of_resolve (h : (Source.text t).resolve = .ok a) : a.length = 4 ∨ a.length = 16 := by
  obtain ⟨f, hf⟩ := Source.length_of_resolve_text h
  cases f
  case v4 => exact .inl hf
  case v6 => exact .inr hf

-- Text that spells an address of four octets is what is printed for it, blanks around it aside. Whatever the
-- address, the printed text spells it as well; so two texts spell one address just when the same text is
-- printed for both, and for four octets just when they differ in nothing but the blanks around them.
theorem printed_is_normal (t u : Text) (a b : Address) (ht : (Source.text t).resolve = .ok a)
    (hu : (Source.text u).resolve = .ok b) :
    (a.length = 4 ∨ a.length = 16)
    ∧ (a.length = 4 → Text.ofString a.text = Text.trim t)
    ∧ (Source.text (Text.ofString a.text)).resolve = .ok a
    ∧ (a = b ↔ a.text = b.text)
    ∧ (a.length = 4 → (a = b ↔ Text.trim t = Text.trim u)) := by
  obtain ⟨f, hf⟩ := Source.length_of_resolve_text ht
  refine ⟨length_of_resolve ht, text_eq_trim_of_resolve ht, resolve_text hf, text_inj.symm, fun hl => ⟨?_, ?_⟩⟩
  · rintro rfl
    rw [← text_eq_trim_of_resolve ht hl, text_eq_trim_of_resolve hu hl]
  · intro he
    obtain ⟨h, hh, rfl⟩ := Source.resolve_text_eq_ok_iff.mp ht
    obtain ⟨k, hk, rfl⟩ := Source.resolve_text_eq_ok_iff.mp hu
    rw [he, hk] at hh
    cases hh
    rfl

-- One address in upper case, with zeros in front of its groups and left out at another place, with its end in
-- dots and with a scope, and the same address as it is printed; and an IPv4 address among blanks.
theorem printed_is_normal_of_mixed :
    let t : Text := " FE80:0000::00A:0.0.0.1%eth0"
    let u : Text := "fe80::a:0:1"
    let v : Text := " 10.0.0.1 "
    let a : Address := ⟨[0xfe, 0x80, 0, 0, 0, 0, 0, 0, 0, 0, 0, 10, 0, 0, 0, 1]⟩
    let b : Address := ⟨[10, 0, 0, 1]⟩
    (Source.text t).resolve = .ok a ∧ (Source.text u).resolve = .ok a ∧ (Source.text v).resolve = .ok b
    ∧ a.length = 16 ∧ (Source.text (Text.ofString a.text)).resolve = .ok a ∧ Text.ofString a.text = u
    ∧ b.length = 4 ∧ Text.ofString b.text = Text.trim v ∧ a.text ≠ b.text := by
  intro t u v a b
  have ht : (Source.text t).resolve = .ok a := by rfl
  have hu : (Source.text u).resolve = .ok a := by rfl
  have hv : (Source.text v).resolve = .ok b := by rfl
  have ⟨_, _, ha, _, _⟩ := printed_is_normal t u a a ht hu
  have ⟨_, hb, _, hne, _⟩ := printed_is_normal v t b a hv ht
  refine ⟨ht, hu, hv, rfl, ha, by decide +kernel, rfl, hb rfl, fun he => ?_⟩
  exact absurd (hne.mpr he.symm) (by decide)

end Address

end AddressSpace
