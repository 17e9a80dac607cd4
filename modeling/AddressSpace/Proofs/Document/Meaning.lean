import AddressSpace.Proofs.Json.Limits
import AddressSpace.Proofs.Loading.DocumentFile
import AddressSpace.Proofs.Loading.Spellings

/-!
What a pool document is: which values are documents, and which ranges they hold. Members of other names
have no influence, a document that is written out is read again, and a text is read like the value that it
spells.
-/

namespace AddressSpace.Document

open Loading (Spell)
open Json.Grammar (Spells arrays digitsOf nested ones wrapped)

/-! ### What a value gives -/

-- An object gives a range by two bounds that spell addresses of one family. The first address is below the
-- second one, or both are the same address of the same scope.
inductive Range.Given : Json → Range → Prop
  | object {members first last h k} (hfirst : Json.find? "start" members = some (.str first))
    (hlast : Json.find? "end" members = some (.str last)) (spell : Spell first last h k)
    (family : h.family = k.family)
    (order : h.address.value < k.address.value ∨ h.address.value = k.address.value ∧ h.scope = k.scope) :
    Given (.obj members) { first := Text.trim first, last := Text.trim last }

-- The value taken for a pool. A pool without a member has no ranges.
def taken (members : List (Text × Json)) (n : PoolName) : Json :=
  (member? members n).getD (.arr [])

-- An object gives a document if it has a list of ranges for each pool.
inductive Gives : Json → Document → Prop
  | object {members d}
    (lists : ∀ n, ∃ items, taken members n = .arr items ∧ List.Forall₂ Range.Given items (d.get n)) :
    Gives (.obj members) d

/-! ### What has no influence -/

-- The same value, or two objects with the same bounds.
inductive Range.Alike : Json → Json → Prop
  | refl {v} : Alike v v
  | object {members members'} (first : Json.find? "start" members = Json.find? "start" members')
    (last : Json.find? "end" members = Json.find? "end" members') : Alike (.obj members) (.obj members')

inductive Ranges.Alike : Json → Json → Prop
  | refl {v} : Alike v v
  | items {items items'} (h : List.Forall₂ Range.Alike items items') : Alike (.arr items) (.arr items')

-- The same value, or two objects with alike lists under all names of the pools' lists.
inductive Alike : Json → Json → Prop
  | refl {v} : Alike v v
  | object {members members'} (h : ∀ n, ∀ name ∈ listNames n,
      Option.Rel Ranges.Alike (Json.find? name members) (Json.find? name members')) :
    Alike (.obj members) (.obj members')

/-! ### Documents that are written out -/

def Range.toJson (r : Range) : Json :=
  Loading.object r.first r.last

-- The value of a document, with a name for the list of each pool.
def toJson (names : PoolName → String) (d : Document) : Json :=
  .obj (PoolName.all.map fun n => (Text.ofString (names n), .arr ((d.get n).map Range.toJson)))

variable {members members' : List (Text × Json)} {items items' : List Json} {v v' : Json} {n m : PoolName}
variable {r : Range} {rs : List Range} {d : Document} {names : PoolName → String} {cs : List Char}

theorem Range.ofJson_eq_ok_iff_given : Range.ofJson v = .ok r ↔ Range.Given v r := by
  constructor
  · intro h
    cases v <;> simp only [Range.ofJson, Checked.fail_ne_ok] at h
    case obj members =>
      obtain ⟨_, _, _, _, hf, hl, s, hfam, ho, rfl⟩ := Loading.range_eq_ok_iff.mp h
      exact .object hf hl s hfam ((Host.inOrder_iff (s.length_eq_iff.mpr hfam)).mp ho)
  · intro h
    cases h
    case object hf hl s hfam ho =>
      exact Loading.range_eq_ok_iff.mpr
        ⟨_, _, _, _, hf, hl, s, hfam, (Host.inOrder_iff (s.length_eq_iff.mpr hfam)).mpr ho, rfl⟩

theorem rangesOf_eq_ok_iff_given : rangesOf members n = .ok rs ↔
    ∃ items, taken members n = .arr items ∧ List.Forall₂ Range.Given items rs := by
  have hm (items : List Json) : items.map Range.ofJson = rs.map .ok ↔ List.Forall₂ Range.Given items rs := by
    rw [← List.forall₂_eq_eq_eq, List.forall₂_map_left_iff, List.forall₂_map_right_iff]
    simp only [Range.ofJson_eq_ok_iff_given]
  simp only [rangesOf_eq_ok_iff, hm, taken]
  cases member? members n
  case none   => simp [eq_comm]
  case some v => simp

theorem ofJson_eq_ok_iff_gives : ofJson v = .ok d ↔ Gives v d := by
  simp only [ofJson_eq_ok_iff, rangesOf_eq_ok_iff_given]
  constructor
  · rintro ⟨members, rfl, h⟩
    exact .object h
  · rintro ⟨h⟩
    exact ⟨_, rfl, h⟩

theorem read_value_eq_ok_iff : read (.value v) = .ok d ↔ Gives v d := by
  rw [read, Outcome.mapError_eq_ok_iff, check, ofJson_eq_ok_iff_gives]

theorem Range.ofJson_of_alike (h : Range.Alike v v') : Range.ofJson v = Range.ofJson v' := by
  cases h
  case refl            => rfl
  case object hf hl => simp [Range.ofJson, bound, hf, hl]

theorem rangesFrom_of_alike {index : Nat} (h : List.Forall₂ Range.Alike items items') :
    rangesFrom index items = rangesFrom index items' := by
  induction h generalizing index
  case nil          => rfl
  case cons h _ hi => simp only [rangesFrom, Range.ofJson_of_alike h, hi]

theorem rangesOf_of_alike (h : ∀ name ∈ listNames n,
    Option.Rel Ranges.Alike (Json.find? name members) (Json.find? name members')) :
    rangesOf members n = rangesOf members' n := by
  have hk := h n.key (.head _)
  have ho := h n.option (.tail _ (.head _))
  -- The dashed key comes first, so the other name counts only where it is missing on both sides.
  simp only [rangesOf]
  cases he : Json.find? n.key members <;> cases he' : Json.find? n.key members' <;> rw [he, he'] at hk <;> cases hk
  case some.some hk =>
    cases hk
    case refl    => rfl
    case items h => simp only [rangesFrom_of_alike h]
  case none.none =>
    cases hf : Json.find? n.option members <;> cases hf' : Json.find? n.option members' <;>
      rw [hf, hf'] at ho <;> cases ho
    case some.some ho =>
      cases ho
      case refl    => rfl
      case items h => simp only [Option.map_some, rangesFrom_of_alike h]

theorem ofJson_of_alike (h : Alike v v') : ofJson v = ofJson v' := by
  cases h
  case refl     => rfl
  case object h => simp only [ofJson, rangesOf_of_alike (h _)]

theorem read_of_alike (h : Alike v v') : read (.value v') = read (.value v) := by
  simp only [read, check, ofJson_of_alike h]

/-! ### Documents that are written out are read again -/

-- A range that was read is given by its own texts.
theorem Range.Given.toJson (h : Range.Given v r) : Range.Given r.toJson r := by
  cases h
  case object first last h k hf hl s hfam ho =>
    have s' : Spell (Text.trim first) (Text.trim last) h k :=
      ⟨(Text.trim_trim first).symm ▸ s.first, (Text.trim_trim last).symm ▸ s.last⟩
    have hg : Range.Given (.obj [("start", .str (Text.trim first)), ("end", .str (Text.trim last))])
        ⟨Text.trim (Text.trim first), Text.trim (Text.trim last)⟩ := .object rfl rfl s' hfam ho
    rwa [Text.trim_trim, Text.trim_trim] at hg

theorem find?_map (name : String) (f : PoolName → Json) (ns : List PoolName) :
    Json.find? name (ns.map fun n => (Text.ofString (names n), f n)) = (ns.find? (names · = name)).map f := by
  induction ns
  case nil => rfl
  case cons n ns hi =>
    by_cases h : names n = name
    case pos => simp [Json.find?, h]
    case neg => simpa [Json.find?, h, Text.ofString_inj] using hi

theorem find?_names (hn : ∀ n, names n ∈ listNames n) {name : String} (h : name ∈ listNames n) :
    PoolName.all.find? (names · = name) = if names n = name then some n else none := by
  cases hf : PoolName.all.find? (names · = name)
  case none =>
    have := List.find?_eq_none.mp hf n (PoolName.mem_all n)
    simp_all
  case some m =>
    have hm : names m = name := by simpa using List.find?_some hf
    have he : n = m := eq_of_mem_listNames h (hm ▸ hn m)
    simp [he, hm]

-- Where every list has one of its names, it is taken for its pool.
theorem taken_map (hn : ∀ n, names n ∈ listNames n) (f : PoolName → Json) (n : PoolName) :
    taken (PoolName.all.map fun n => (Text.ofString (names n), f n)) n = f n := by
  simp only [taken, member?, find?_map, find?_names hn (n := n) (.head _), find?_names hn (n := n) (.tail _ (.head _))]
  have hs := hn n
  simp only [listNames, List.mem_cons, List.not_mem_nil, or_false] at hs
  by_cases hk : names n = n.key
  case pos => rw [if_pos hk]; rfl
  case neg => rw [if_neg hk, if_pos (hs.resolve_left hk)]; rfl

theorem forall₂_toJson (h : List.Forall₂ Range.Given items rs) :
    List.Forall₂ Range.Given (rs.map Range.toJson) rs := by
  induction h
  case nil         => exact .nil
  case cons h _ hi => exact .cons h.toJson hi

theorem gives_toJson (h : Gives v d) (hn : ∀ n, names n ∈ listNames n) : Gives (d.toJson names) d := by
  cases h
  case object lists =>
    refine .object fun n => ⟨_, taken_map hn _ n, ?_⟩
    have ⟨_, _, hg⟩ := lists n
    exact forall₂_toJson hg

/-! ### Texts -/

theorem read_text_of_spells (h : Spells Json.Dialect.strict.maxDepth cs v) :
    read (.text (.ofChars cs)) = read (.value v) := by
  rw [read, check_text_of_read (Json.Grammar.read_of_spells h)]
  rfl

-- A value is read if it gives a document, and as the document that it gives, whatever it holds under other
-- names. A document that is written out, with any of its names for each list, is read as itself, and a text
-- that stays within the limits of its reader is read like the value that it spells.
theorem read_iff_gives (v : Json) :
    (∀ d, read (.value v) = .ok d ↔ Gives v d)
    ∧ (∀ v', Alike v v' → read (.value v') = read (.value v))
    ∧ (∀ d names, read (.value v) = .ok d → (∀ n, names n ∈ listNames n) →
      read (.value (d.toJson names)) = .ok d)
    ∧ ∀ cs, Spells Json.Dialect.strict.maxDepth cs v →
      read (.text (.ofChars cs)) = read (.value v) :=
  ⟨fun _ => read_value_eq_ok_iff, fun _ => read_of_alike,
    fun _ _ hd hn => read_value_eq_ok_iff.mpr (gives_toJson (read_value_eq_ok_iff.mp hd) hn),
    fun _ => read_text_of_spells⟩

-- A range with members of other names beside its bounds and its list.
theorem read_iff_gives_of_oneRange :
    let range (members : List (Text × Json)) : Json := .obj [("pod-ip-pool", .arr [.obj members])]
    let v := range [("start", .str "10.0.0.1"), ("end", .str "10.0.0.2")]
    let v' := range [("end", .str "10.0.0.2"), ("gateway", .null), ("start", .str "10.0.0.1")]
    let d : Document := .ofFn fun
      | .pod => [⟨"10.0.0.1", "10.0.0.2"⟩]
      | _    => []
    read (.value v) = .ok d ∧ Gives v d ∧ Alike v v' ∧ read (.value v') = .ok d
    ∧ (∀ n, n.option ∈ listNames n) ∧ read (.value (d.toJson PoolName.option)) = .ok d
    ∧ Spells Json.Dialect.strict.maxDepth Loading.oneRange.toList v
    ∧ read (.text Loading.oneRange) = .ok d := by
  intro range v v' d
  have hd : read (.value v) = .ok d := rfl
  have ha : Alike v v' := by
    refine .object fun n name hn => ?_
    cases n <;> simp only [listNames, List.mem_cons, List.not_mem_nil, or_false] at hn <;> rcases hn with rfl | rfl
    all_goals first | exact .none | exact .some (.items (.cons (.object rfl rfl) .nil))
  have hn (n : PoolName) : n.option ∈ listNames n := .tail _ (.head _)
  obtain ⟨hgives, halike, hwritten, htext⟩ := read_iff_gives v
  exact ⟨hd, (hgives d).mp hd, ha, (halike v' ha).trans hd, hn, hwritten d _ hd hn, Loading.spells_oneRange,
    (htext _ Loading.spells_oneRange).trans hd⟩

/-! ### Texts beyond the limits -/

theorem read_text_of_unread {fault : Json.Fault} (h : Json.read .strict cs = .error fault) :
    read (.text (.ofChars cs)) = .error (.issues [⟨[], .notJson⟩]) := by
  simp only [read, check, Text.chars?_ofChars, h]
  rfl

-- Both texts have a value, which is a document without ranges, and both are refused.
theorem read_text_beyond_limits :
    let number : Json.Numeral := ⟨false, digitsOf (ones Text.maxDigits), some [5], none⟩
    ∀ p ∈ [(nested 249, arrays 249),
        (wrapped (ones Text.maxDigits ++ ['.', '5']), .number number.value)],
      Json.read (.lenient Json.usualDepth) p.1 = .ok (.obj [("x", p.2)])
      ∧ read (.value (.obj [("x", p.2)])) = .ok (.ofFn fun _ => [])
      ∧ read (.text (.ofChars p.1)) = .error (.issues [⟨[], .notJson⟩]) := by
  intro number p hp
  have hlevels : 249 + 1 < Json.usualDepth := by decide
  have hpos : 0 < Json.usualDepth := by decide
  have hnested := Json.Grammar.read_nested (n := 249) (by decide) hlevels
  have hwidth : Text.maxDigits < number.width := by simp [number, Json.Numeral.width, digitsOf, ones]
  have hlong := Json.Grammar.read_wrapped_of_long (Json.Grammar.numeric_ones Text.maxDigits) rfl hwidth hpos
  simp only [List.mem_cons, List.not_mem_nil, or_false] at hp
  rcases hp with rfl | rfl
  · exact ⟨hnested.right, rfl, read_text_of_unread hnested.left⟩
  · exact ⟨hlong.right, rfl, read_text_of_unread hlong.left⟩

end AddressSpace.Document
