import AddressSpace.Address.Text
import AddressSpace.Proofs.Address.Host
import AddressSpace.Proofs.Text.Digits
import AddressSpace.Proofs.Text.Separated

/-!
The printed text of an address spells that address. Octets and groups are read back one by one; the double
colon of a compressed text is the only one in it, and stands for the groups of zero that were left out.
-/

namespace AddressSpace

open Text (join split)

variable {c : Char} {cs rest part : List Char} {parts : List (List Char)} {octets : List UInt8}
variable {g b n : Nat} {gs : List Nat} {a : Address} {f : Family}

/-! ### What is printed -/

namespace Text

def digitChars : List Char :=
  "0123456789abcdef".toList

theorem mem_digitChars (hb : 1 < b) (hb' : b ≤ 16) (h : c ∈ Nat.toDigits b n) : c ∈ digitChars := by
  obtain ⟨d, hd, rfl⟩ := exists_digit_of_mem hb h
  have hc : ∀ d < 16, d.digitChar ∈ digitChars := by decide
  exact hc d (by omega)

end Text

namespace Address

theorem mem_dotted (h : c ∈ dotted octets) : c ∈ '.' :: Text.digitChars := by
  rcases Text.mem_of_mem_join h with h | ⟨_, hp, hc⟩
  · exact List.mem_singleton.mp h ▸ .head _
  · obtain ⟨x, _, rfl⟩ := List.mem_map.mp hp
    exact .tail _ (Text.mem_digitChars (by decide) (by decide) hc)

theorem mem_joinGroups (h : c ∈ joinGroups gs) : c ∈ ':' :: Text.digitChars := by
  rcases Text.mem_of_mem_join h with h | ⟨_, hp, hc⟩
  · exact List.mem_singleton.mp h ▸ .head _
  · obtain ⟨x, _, rfl⟩ := List.mem_map.mp hp
    exact .tail _ (Text.mem_digitChars (by decide) (by decide) hc)

theorem zeroRun_spec (gs : List Nat) : ∃ post, gs = List.replicate (zeroRun gs) 0 ++ post := by
  fun_induction zeroRun gs
  case case1 rest hi =>
    obtain ⟨post, hp⟩ := hi
    exact ⟨post, by rw [List.replicate_succ, List.cons_append, ← hp]⟩
  case case2 gs _ => exact ⟨gs, rfl⟩

theorem longestRun_spec (gs : List Nat) : ∃ pre post,
    gs = pre ++ (List.replicate (longestRun gs).2 0 ++ post) ∧ pre.length = (longestRun gs).1 := by
  induction gs
  case nil => exact ⟨[], [], rfl, rfl⟩
  case cons g gs hi =>
    simp only [longestRun]
    split
    case isTrue =>
      have ⟨post, hp⟩ := zeroRun_spec (g :: gs)
      exact ⟨[], post, hp, rfl⟩
    case isFalse =>
      obtain ⟨pre, post, hp, hl⟩ := hi
      exact ⟨g :: pre, post, by simp [← hp], by simp [hl]⟩

-- Either all groups are written, or a run of zeros is left out at a double colon.
theorem compressed_spec (gs : List Nat) : compressed gs = joinGroups gs ∨ ∃ pre size post, 0 < size
    ∧ gs = pre ++ (List.replicate size 0 ++ post)
    ∧ compressed gs = joinGroups pre ++ ':' :: ':' :: joinGroups post := by
  obtain ⟨pre, post, hg, hl⟩ := longestRun_spec gs
  by_cases hs : (longestRun gs).2 < 2
  case pos => exact .inl (by simp [compressed, hs])
  case neg =>
    generalize hr : longestRun gs = r at hg hl hs
    refine .inr ⟨pre, r.2, post, by omega, hg, ?_⟩
    have ht : gs.take r.1 = pre := by simp [hg, ← hl]
    have hd : gs.drop (r.1 + r.2) = post := by simp [hg, ← hl, ← List.drop_drop]
    simp [compressed, hr, hs, ht, hd]

theorem mem_compressed (h : c ∈ compressed gs) : c ∈ ':' :: Text.digitChars := by
  rcases compressed_spec gs with he | ⟨pre, size, post, _, _, he⟩ <;> rw [he] at h
  · exact mem_joinGroups h
  · simp only [List.mem_append, List.mem_cons] at h
    rcases h with h | rfl | rfl | h
    · exact mem_joinGroups h
    · exact .head _
    · exact .head _
    · exact mem_joinGroups h

/-! ### Octets in groups -/

-- The octets of groups.
def ungroup (gs : List Nat) : List UInt8 :=
  gs.flatMap fun g => [.ofNat (g / 256), .ofNat g]

@[simp]
theorem length_ungroup (gs : List Nat) : (ungroup gs).length = 2 * gs.length := by
  induction gs
  case nil => rfl
  case cons g gs hi => simp_all [ungroup]; omega

theorem ungroup_append (gs gs' : List Nat) : ungroup (gs ++ gs') = ungroup gs ++ ungroup gs' :=
  List.flatMap_append

theorem ungroup_zeros (n : Nat) : ungroup (List.replicate n 0) = List.replicate (2 * n) 0 := by
  induction n
  case zero => rfl
  case succ n hi => simp_all [ungroup, List.replicate_succ, Nat.mul_add]

theorem ungroup_cons (x y : UInt8) (gs : List Nat) :
    ungroup ((x.toNat * 256 + y.toNat) :: gs) = x :: y :: ungroup gs := by
  have hx : (x.toNat * 256 + y.toNat) / 256 = x.toNat := by
    have := y.toNat_lt
    omega
  have hy : UInt8.ofNat (x.toNat * 256 + y.toNat) = y := UInt8.toNat_inj.mp (by simp)
  simp [ungroup, hx, hy]

-- An odd octet at the end would belong to no group.
theorem ungroup_groups {n : Nat} (h : octets.length = 2 * n) : ungroup (groups octets) = octets := by
  induction n generalizing octets
  case zero => simp [List.eq_nil_of_length_eq_zero h, groups, ungroup]
  case succ n hi =>
    match octets with
    | x :: y :: rest =>
      have hr : rest.length = 2 * n := by simpa [Nat.mul_add] using h
      rw [groups, ungroup_cons, hi hr]

theorem length_groups {n : Nat} (h : octets.length = 2 * n) : (groups octets).length = n := by
  have := congrArg List.length (ungroup_groups h)
  rw [length_ungroup, h] at this
  omega

theorem lt_of_mem_groups (h : g ∈ groups octets) : g < 0x10000 := by
  fun_induction groups octets
  case case1 x y rest hi =>
    rcases List.mem_cons.mp h with rfl | h
    · have := x.toNat_lt
      have := y.toNat_lt
      omega
    · exact hi h
  case case2 => cases h

end Address

namespace Host

/-! ### Single numbers -/

theorem octet?_toDigits (x : UInt8) : octet? (Nat.toDigits 10 x.toNat) = some x := by
  obtain ⟨ds, hm, hs⟩ := Text.spells_toDigits (by decide) Text.digit?_digitChar x.toNat
  have hx := x.toNat_lt
  have hl : ds.length ≤ 3 := hs.length ▸ (Nat.length_toDigits_le_iff (by decide) (by decide)).mpr (by omega)
  have hz : ¬ (ds.head? = some 0 ∧ ds ≠ [0]) := fun h => h.right (hs.leading h.left)
  have hc : ¬ (ds = [] ∨ 3 < ds.length ∨ (ds.head? = some 0 ∧ ds ≠ [0]) ∨ 255 < x.toNat) := by
    have := hs.ne_nil
    simp only [this, hz, false_or]
    omega
  simp [octet?, hm, hs.value, hc]

theorem group?_toDigits (h : g < 0x10000) : group? (Nat.toDigits 16 g) = some (Address.ungroup [g]) := by
  obtain ⟨ds, hm, hs⟩ := Text.spells_toDigits (by decide) Text.hexDigit?_digitChar g
  have hl : ds.length ≤ 4 := hs.length ▸ (Nat.length_toDigits_le_iff (by decide) (by decide)).mpr (by omega)
  have hc : ¬ (ds = [] ∨ 4 < ds.length) := by
    have := hs.ne_nil
    simp only [this, false_or]
    omega
  simp [group?, hm, hs.value, hc, Address.ungroup]

/-! ### Double colons -/

theorem atDoubleColon?_cons (h : c = ':' → rest.head? ≠ some ':') :
    atDoubleColon? (c :: rest) = (atDoubleColon? rest).map fun (before, after) => (c :: before, after) := by
  rw [atDoubleColon?]
  intro rest' hc hr
  exact h hc (by simp [hr])

theorem atDoubleColon?_append (h : ':' ∉ part) :
    atDoubleColon? (part ++ rest) = (atDoubleColon? rest).map fun (before, after) => (part ++ before, after) := by
  induction part
  case nil => simp
  case cons c part hi =>
    simp only [List.mem_cons, not_or] at h
    have hc : c = ':' → (part ++ rest).head? ≠ some ':' := fun he => absurd he.symm h.left
    simp [atDoubleColon?_cons hc, hi h.right, Function.comp_def]

-- No double colon is made where parts are joined.
theorem atDoubleColon?_join (h : ∀ part ∈ parts, part ≠ [] ∧ ':' ∉ part) :
    atDoubleColon? (join [':'] parts ++ rest) =
      (atDoubleColon? rest).map fun (before, after) => (join [':'] parts ++ before, after) := by
  fun_induction join [':'] parts
  case case1 => simp
  case case2 => exact atDoubleColon?_append (h _ (.head _)).right
  case case3 part parts hp hi =>
    obtain ⟨h₁, h₂⟩ := List.forall_mem_cons.mp h
    have hd : (join [':'] parts ++ rest).head? ≠ some ':' := by
      cases parts
      case nil => exact absurd rfl hp
      case cons q parts =>
        obtain ⟨hq, hc⟩ := h₂ q (.head _)
        rw [List.head?_append, Text.head?_join hq, List.head?_eq_some_head hq, Option.some_or]
        exact fun he => hc (Option.some.inj he ▸ List.head_mem hq)
    simp [atDoubleColon?_append h₁.right, atDoubleColon?_cons fun _ => hd, hi h₂, Function.comp_def]

theorem colon_not_mem_toDigits : ':' ∉ Nat.toDigits 16 g := fun h =>
  absurd (Text.mem_digitChars (by decide) (by decide) h) (by decide)

theorem point_not_mem_toDigits (hb : 1 < b) (hb' : b ≤ 16) : '.' ∉ Nat.toDigits b n := fun h =>
  absurd (Text.mem_digitChars hb hb' h) (by decide)

theorem atDoubleColon?_joinGroups (gs : List Nat) (rest : List Char) :
    atDoubleColon? (Address.joinGroups gs ++ rest) =
    (atDoubleColon? rest).map fun (before, after) => (Address.joinGroups gs ++ before, after) :=
  atDoubleColon?_join fun part hp => by
    obtain ⟨g, _, rfl⟩ := List.mem_map.mp hp
    exact ⟨Nat.toDigits_ne_nil, colon_not_mem_toDigits⟩

/-! ### Whole texts -/

theorem dotted?_dotted (h : octets.length = 4) : dotted? (Address.dotted octets) = some octets := by
  have hs : split '.' (Address.dotted octets) = octets.map fun x => Nat.toDigits 10 x.toNat := by
    refine Text.split_join (by simpa using List.ne_nil_of_length_pos (by omega)) fun part hp => ?_
    obtain ⟨x, _, rfl⟩ := List.mem_map.mp hp
    exact point_not_mem_toDigits (by decide) (by decide)
  have hm : (octets.map fun x => Nat.toDigits 10 x.toNat).mapM octet? = some (octets.map id) :=
    Text.mapM_map fun x _ => octet?_toDigits x
  simp [dotted?, hs, hm, h]

theorem dotted?_of_not_mem (h : '.' ∉ cs) : dotted? cs = none := by
  simp only [dotted?, Text.split_of_not_mem h]
  cases ho : octet? cs <;> simp [ho]

theorem split_joinGroups (h : gs ≠ []) : split ':' (Address.joinGroups gs) = gs.map (Nat.toDigits 16) := by
  refine Text.split_join (by simpa using h) fun part hp => ?_
  obtain ⟨g, _, rfl⟩ := List.mem_map.mp hp
  exact colon_not_mem_toDigits

theorem sideParts_joinGroups : sideParts (Address.joinGroups gs) = gs.map (Nat.toDigits 16) := by
  by_cases h : gs = []
  case pos => simp [h, sideParts, Address.joinGroups, join]
  case neg =>
    have hn : Address.joinGroups gs ≠ [] := by
      refine Text.join_ne_nil (by simpa using h) fun part hp => ?_
      obtain ⟨g, _, rfl⟩ := List.mem_map.mp hp
      exact Nat.toDigits_ne_nil
    simp [sideParts, hn, split_joinGroups h]

theorem head?_toDigits (h : ∀ g ∈ gs, g < 0x10000) :
    head? (gs.map (Nat.toDigits 16)) = some (Address.ungroup gs) := by
  have hm := Text.mapM_map fun g hg => group?_toDigits (h g hg)
  simp [head?, hm, Address.ungroup, List.flatMap_def]

theorem tail?_toDigits (h : ∀ g ∈ gs, g < 0x10000) :
    tail? (gs.map (Nat.toDigits 16)) = some (Address.ungroup gs) := by
  induction gs
  case nil => rfl
  case cons g gs hi =>
    have ⟨h₁, h₂⟩ := List.forall_mem_cons.mp h
    cases gs
    case nil =>
      have hp : '.' ∉ Nat.toDigits 16 g := point_not_mem_toDigits (by decide) (by decide)
      simp [tail?, hp, group?_toDigits h₁]
    case cons => 
      simp_all [tail?, group?_toDigits h₁, Address.ungroup]

theorem coloned?_compressed (hl : gs.length = 8) (h : ∀ g ∈ gs, g < 0x10000) :
    coloned? (Address.compressed gs) = some (Address.ungroup gs) := by
  rcases Address.compressed_spec gs with he | ⟨pre, size, post, hs, hg, he⟩
  · have hd : atDoubleColon? (Address.joinGroups gs) = none := by
      simpa [atDoubleColon?] using atDoubleColon?_joinGroups gs []
    have hn : gs ≠ [] := List.ne_nil_of_length_pos (by omega)
    simp [coloned?, he, hd, split_joinGroups hn, tail?_toDigits h, hl]
  · have hd := atDoubleColon?_joinGroups pre (':' :: ':' :: Address.joinGroups post)
    simp only [atDoubleColon?, Option.map_some, List.append_nil] at hd
    subst hg
    simp only [List.mem_append, or_imp, forall_and] at h
    simp only [List.length_append, List.length_replicate] at hl
    have hz : 16 - (2 * pre.length + 2 * post.length) = 2 * size := by omega
    simp [coloned?, he, hd, sideParts_joinGroups, head?_toDigits h.left, tail?_toDigits h.right.right,
      Address.ungroup_append, Address.ungroup_zeros, hz]
    omega

end Host

/-! ### Addresses -/

namespace Address

-- What addresses of the families are printed with.
def textChars : List Char :=
  '.' :: ':' :: Text.digitChars

theorem chars_eq (h : a.length = f.octetCount) : a.chars = match f with
    | .v4 => dotted a.octets
    | .v6 => compressed (groups a.octets) := by
  have hf : Family.ofOctetCount? a.length = some f := by rw [h]; cases f <;> rfl
  simp only [chars, hf]
  cases f <;> rfl

theorem mem_textChars (h : a.length = f.octetCount) (hc : c ∈ a.chars) : c ∈ textChars := by
  rw [chars_eq h] at hc
  cases f
  case v4 => exact (List.mem_cons.mp (mem_dotted hc)).elim (· ▸ .head _) fun hc => .tail _ (.tail _ hc)
  case v6 => exact .tail _ (mem_compressed hc)

theorem ofChars?_chars (h : a.length = f.octetCount) : Host.ofChars? a.chars = some { family := f, address := a } := by
  rw [chars_eq h]
  cases f
  case v4 => simp [Host.ofChars?, Host.dotted?_dotted h]
  case v6 =>
    have hp : '.' ∉ compressed (groups a.octets) := fun hc => absurd (mem_compressed hc) (by decide)
    have hg := Host.coloned?_compressed (length_groups (n := 8) h) fun _ => lt_of_mem_groups
    simp [Host.ofChars?, Host.dotted?_of_not_mem hp, hg, ungroup_groups (n := 8) h]

theorem ofString_text (a : Address) : Text.ofString a.text = Text.ofChars a.chars := by
  simp [Text.ofString, text]

theorem mem_text {c : CodePoint} (h : a.length = f.octetCount) (hc : c ∈ Text.ofString a.text) :
    ∃ d ∈ textChars, c = .char d := by
  rw [ofString_text, Text.ofChars] at hc
  obtain ⟨d, hd, rfl⟩ := List.mem_map.mp hc
  exact ⟨d, mem_textChars h hd, rfl⟩

theorem not_mem_text (h : a.length = f.octetCount) (hc : c ∉ textChars) :
    .char c ∉ Text.ofString a.text := fun hm => by
  obtain ⟨d, hd, he⟩ := mem_text h hm
  exact hc (CodePoint.char.inj he ▸ hd)

theorem not_isBlank_of_mem_text (h : a.length = f.octetCount) : ∀ c ∈ Text.ofString a.text, ¬ Text.isBlank c := by
  intro c hc
  obtain ⟨d, hd, rfl⟩ := mem_text h hc
  have hb : textChars.all fun d => !Text.isBlank (.char d) := by decide
  simpa using List.all_eq_true.mp hb d hd

-- The text of an address spells the address, with no scope.
theorem ofText?_text (h : a.length = f.octetCount) :
    Host.ofText? (Text.ofString a.text) = some { family := f, address := a } := by
  have hs := not_mem_text (c := '/') h (by decide)
  have hc := Text.cut_of_not_mem (not_mem_text (c := '%') h (by decide))
  rw [Host.ofText?, if_neg hs, hc]
  simp [ofString_text, ofChars?_chars h]

theorem text_ne_nil (h : a.length = f.octetCount) : Text.ofString a.text ≠ [] := fun he => by
  have hn : Host.ofText? [] = none := by rfl
  simpa [he, hn] using ofText?_text h

theorem trim_text (h : a.length = f.octetCount) : Text.trim (Text.ofString a.text) = Text.ofString a.text :=
  Text.trim_of_not_blank (not_isBlank_of_mem_text h)

theorem resolve_text (h : a.length = f.octetCount) : (Source.text (Text.ofString a.text)).resolve = .ok a :=
  Source.resolve_text (trim_text h) (ofText?_text h)

end Address

end AddressSpace
