import AddressSpace.Loading
import AddressSpace.Proofs.Address.Host
import AddressSpace.Proofs.Interval
import AddressSpace.Proofs.Outcome

/-!
What a pool document holds once it has been checked: every range of every pool names a stretch of
addresses of one family, with its bounds in order.
-/

namespace AddressSpace.Document

namespace Checked

variable {α β γ : Type} {c : Checked α} {d : Checked β} {f : α → β → γ}

@[simp]
theorem under_eq_ok_iff {step : Step} {a : α} : c.under step = .ok a ↔ c = .ok a := by
  cases c <;> simp [under]

theorem both_eq_ok_iff {x : γ} : both f c d = .ok x ↔ ∃ a b, c = .ok a ∧ d = .ok b ∧ f a b = x := by
  cases c <;> cases d <;> simp [both]

@[simp]
theorem fail_ne_ok {cause : Cause} {a : α} : fail cause ≠ .ok a :=
  nofun

end Checked

variable {members : List (Text × Json)} {items : List Json} {v : Json} {d : Document}
variable {r : Range} {rs : List Range} {n : PoolName} {f : Family} {i : Interval}

-- A bound is kept as it was read, without the blanks around it.
theorem bound_eq_ok_iff {name : String} {b : Text × Host} : bound name members = .ok b ↔
    ∃ t, Json.find? name members = some (.str t) ∧ b.1 = Text.trim t ∧ Host.ofText? b.1 = some b.2 := by
  obtain ⟨u, h⟩ := b
  simp only [bound, Checked.under_eq_ok_iff]
  split
  case h_1 hn => simp [hn]
  case h_2 t hn =>
    simp only [hn, Option.some.injEq, Json.str.injEq, exists_eq_left']
    split
    case h_1 g hg =>
      simp only [Except.ok.injEq, Prod.mk.injEq]
      refine ⟨fun ⟨hu, he⟩ => ⟨hu.symm, by rw [← hu, hg, he]⟩, fun ⟨hu, he⟩ => ⟨hu.symm, ?_⟩⟩
      rw [hu, hg] at he
      exact Option.some.inj he
    case h_2 hg => simp +contextual [hg]
  case h_3 w hw hn => simpa [hn] using fun t ht => absurd ht (hw t)

theorem ordered_eq_ok_iff {first last : Text × Host} : ordered first last = .ok r ↔
    first.2.family = last.2.family ∧ first.2.inOrder last.2 ∧ r = { first := first.1, last := last.1 } := by
  simp only [ordered]
  split
  case isTrue h => simp [h]
  case isFalse h =>
    have h := not_not.mp h
    split
    case isTrue ho  => simp [h, ho, eq_comm]
    case isFalse ho => simp [ho]

-- The range names a stretch of a family.
structure Range.Names (f : Family) (i : Interval) (r : Range) : Prop where
  stretch : Loading.stretch r = .ok i
  fits    : i.Fits f.octetCount

theorem Range.names_of_ofJson (h : Range.ofJson v = .ok r) : ∃ f i, r.Names f i := by
  cases v <;> simp only [Range.ofJson, Checked.fail_ne_ok] at h
  case obj members =>
    cases hb : Checked.both Prod.mk (bound "start" members) (bound "end" members) <;>
      simp only [hb, Outcome.ok_bind, Outcome.error_bind, reduceCtorEq] at h
    case ok bounds =>
      have ⟨first, last, hf, hl, he⟩ := Checked.both_eq_ok_iff.mp hb
      subst he
      have ⟨t, _, hft, hfh⟩ := bound_eq_ok_iff.mp hf
      have ⟨u, _, hlt, hlh⟩ := bound_eq_ok_iff.mp hl
      have ⟨hfam, hord, hr⟩ := ordered_eq_ok_iff.mp h
      have hrf := Address.Source.resolve_text (hft ▸ Text.trim_trim t) hfh
      have hrl := Address.Source.resolve_text (hlt ▸ Text.trim_trim u) hlh
      have hlen := Host.length_of_ofText hfh
      have hlen' := hfam ▸ Host.length_of_ofText hlh
      refine ⟨first.2.family, { first := first.2.address, last := last.2.address }, ?_, ?_⟩
      · simp [Loading.stretch, hr, hrf, hrl]
      · exact ⟨hlen, hlen', Host.le_of_inOrder (hlen.trans hlen'.symm) hord⟩

theorem rangesFrom_eq_ok_iff {index : Nat} : rangesFrom index items = .ok rs ↔
    items.map Range.ofJson = rs.map .ok := by
  induction items generalizing index rs
  case nil => cases rs <;> simp [rangesFrom]
  case cons v items hi =>
    simp only [rangesFrom, Checked.both_eq_ok_iff, Checked.under_eq_ok_iff, hi]
    cases rs <;> simp

-- The names that the list of a pool may have.
def listNames (n : PoolName) : List String :=
  [n.key, n.option]

-- No name belongs to two pools.
theorem eq_of_mem_listNames {m : PoolName} {name : String} (hn : name ∈ listNames n) (hm : name ∈ listNames m) :
    n = m := by
  simp only [listNames, List.mem_cons, List.not_mem_nil, or_false] at hn hm
  cases n <;> cases m
  all_goals first | rfl | (rcases hn with rfl | rfl <;> exact absurd hm (by decide))

-- The member of a document that holds the list of a pool.
def member? (members : List (Text × Json)) (n : PoolName) : Option Json :=
  Json.find? n.key members <|> Json.find? n.option members

theorem rangesOf_eq_ok_iff : rangesOf members n = .ok rs ↔ (member? members n = none ∧ rs = [])
    ∨ ∃ items, member? members n = some (.arr items) ∧ items.map Range.ofJson = rs.map .ok := by
  simp only [rangesOf, member?]
  cases Json.find? n.key members
  case some v => cases v <;> simp [rangesFrom_eq_ok_iff]
  case none =>
    cases Json.find? n.option members
    case some v => cases v <;> simp [rangesFrom_eq_ok_iff]
    case none   => simp [eq_comm]

theorem names_of_rangesOf (h : rangesOf members n = .ok rs) : ∀ r ∈ rs, ∃ f i, r.Names f i := by
  intro r hr
  cases rangesOf_eq_ok_iff.mp h
  case inl h =>
    rw [h.right] at hr
    cases hr
  case inr h =>
    have ⟨_, _, hm⟩ := h
    have ⟨v, _, hv⟩ := List.mem_map.mp (hm ▸ List.mem_map_of_mem hr)
    exact Range.names_of_ofJson hv

theorem ofJson_eq_ok_iff : ofJson v = .ok d ↔
    ∃ members, v = .obj members ∧ ∀ n, rangesOf members n = .ok (d.get n) := by
  cases v <;> simp [ofJson]
  case obj members =>
    simp only [Checked.both_eq_ok_iff]
    constructor
    · rintro ⟨_, _, ⟨p, s, hp, hs, rfl⟩, ⟨t, u, ht, hu, rfl⟩, rfl⟩ n
      cases n
      case pod           => exact hp
      case service       => exact hs
      case staticService => exact ht
      case nodeService   => exact hu
    · intro h
      exact ⟨_, _, ⟨_, _, h .pod, h .service, rfl⟩, ⟨_, _, h .staticService, h .nodeService, rfl⟩, rfl⟩

-- The value that an input stands for: a text is read first.
def Input.json? : Input → Option Json
  | .value v => some v
  | .text t => (Text.chars? t).bind fun cs => (Json.read .strict cs).toOption

theorem check_eq_ok_iff {input : Input} : check input = .ok d ↔ ∃ v, input.json? = some v ∧ ofJson v = .ok d := by
  cases input
  case value => simp [check, Input.json?]
  case text t =>
    simp only [check, Input.json?]
    cases Text.chars? t
    case none => simp
    case some cs =>
      simp only [Option.bind_some]
      cases Json.read .strict cs <;> simp [Except.toOption]

-- In a document that passed its check, no range is left without a stretch.
theorem names_of_check {input : Input} (h : check input = .ok d) :
    ∀ n, ∀ r ∈ d.get n, ∃ f i, r.Names f i := by
  have ⟨_, _, hv⟩ := check_eq_ok_iff.mp h
  have ⟨_, _, hm⟩ := ofJson_eq_ok_iff.mp hv
  exact fun n => names_of_rangesOf (hm n)

end AddressSpace.Document
