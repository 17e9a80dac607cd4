import AddressSpace.Proofs.Document.Checked
import AddressSpace.Proofs.Json.Whole

/-!
Which issues of a document can be put into words that UTF-8 can write. The bounds of a range are repeated
as they are when the range is refused for its families or its order, and halves of surrogate pairs with
them. JSON text has no such halves, so all issues of a document that is read from text can be written.
-/

namespace AddressSpace.Document

-- The bounds that the wording of an issue repeats as they are.
def Cause.repeated : Cause → List Text
  | .bounds (.mixed first last _ _) | .bounds (.reversed first last) => [first, last]
  | _ => []

-- The bounds that an issue repeats can be written.
def Issue.Writable (i : Issue) : Prop :=
  ∀ t ∈ i.cause.repeated, t.Whole

-- The wording of an issue can be written just when the bounds that it repeats can.
theorem Issue.writeFault?_eq_none_iff {i : Issue} : i.cause.writeFault? = none ↔ i.Writable := by
  simp only [Writable]
  cases i.cause <;> simp only [Cause.writeFault?, Cause.repeated, List.not_mem_nil, false_implies,
    implies_true]
  case bounds fault =>
    rw [Text.Utf8.writeFault?_eq_none_iff]
    cases fault <;> simp [BoundFault.message, Text.whole_quoted]

-- A refusal comes with its issues, unless one of them cannot be written.
theorem Refusal.ofIssues_cases (is : List Issue) :
    (Refusal.ofIssues is = .issues is ∧ ∀ i ∈ is, i.Writable)
    ∨ ((∃ f, Refusal.ofIssues is = .unwritable f) ∧ ∃ i ∈ is, ¬ i.Writable) := by
  simp only [Refusal.ofIssues]
  cases hf : is.findSome? fun i => i.cause.writeFault?
  case none =>
    have hw := List.findSome?_eq_none_iff.mp hf
    exact .inl ⟨rfl, fun i hi => Issue.writeFault?_eq_none_iff.mp (hw i hi)⟩
  case some f =>
    obtain ⟨i, hi, hw⟩ := List.exists_of_findSome?_eq_some hf
    refine .inr ⟨⟨f, rfl⟩, i, hi, fun hn => ?_⟩
    simp [Issue.writeFault?_eq_none_iff.mpr hn] at hw

/-! ### Checks of values without halves -/

namespace Checked

variable {α β γ : Type} {c : Checked α} {d : Checked β}

-- Whatever a check finds can be written.
def Writable (c : Checked α) : Prop :=
  ∀ i ∈ c.issues, i.Writable

theorem Writable.ok (a : α) : Writable (.ok a) :=
  nofun

theorem Writable.fail {cause : Cause} (h : ∀ t ∈ cause.repeated, t.Whole) :
    Writable (fail cause : Checked α) :=
  fun _ hi => List.mem_singleton.mp hi ▸ h

theorem Writable.silent {cause : Cause} (h : cause.repeated = []) :
    Writable (Checked.fail cause : Checked α) :=
  .fail (h ▸ List.forall_mem_nil _)

theorem Writable.under (h : c.Writable) (step : Step) : (c.under step).Writable := by
  cases c
  case ok => exact h
  case error is =>
    intro i hi
    have ⟨j, hj, he⟩ := List.mem_map.mp hi
    exact he ▸ h j hj

theorem Writable.both (hc : c.Writable) (hd : d.Writable) (f : α → β → γ) : (both f c d).Writable := by
  cases c <;> cases d
  case ok.ok       => exact nofun
  case ok.error    => exact hd
  case error.ok    => exact hc
  case error.error => exact fun i hi => (List.mem_append.mp hi).elim (hc i) (hd i)

theorem Writable.bind {f : α → Checked β} (hc : c.Writable) (hf : ∀ a, c = .ok a → (f a).Writable) :
    Writable (c >>= f) := by
  cases c
  case ok a  => exact hf a rfl
  case error => exact hc

end Checked

open Checked (Writable)

variable {members : List (Text × Json)} {items : List Json} {v : Json}

theorem writable_bound (name : String) (members : List (Text × Json)) :
    Writable (bound name members) := by
  simp only [bound]
  refine Writable.under ?_ _
  split
  case h_2 => split <;> first | exact .ok _ | exact .silent rfl
  all_goals exact .silent rfl

-- Both bounds are read before they are compared, and only the comparison repeats them.
theorem writable_range (hv : v.Whole) : Writable (Range.ofJson v) := by
  cases hv
  case obj members _ hm =>
    refine ((writable_bound "start" members).both (writable_bound "end" members) Prod.mk).bind ?_
    intro bounds hb
    have whole {name : String} {b : Text × Host} (h : bound name members = .ok b) : b.1.Whole := by
      obtain ⟨t, ht, hb, _⟩ := bound_eq_ok_iff.mp h
      cases Json.whole_find? ht hm
      case str ht => exact hb ▸ ht.trim
    obtain ⟨first, last, hf, hl, rfl⟩ := Checked.both_eq_ok_iff.mp hb
    have hw : ∀ t ∈ [first.1, last.1], t.Whole := by simp [whole hf, whole hl]
    simp only [ordered]
    repeat' split
    all_goals first | exact .ok _ | exact .fail hw
  all_goals exact .silent rfl

theorem writable_rangesFrom {index : Nat} (h : ∀ v ∈ items, v.Whole) :
    Writable (rangesFrom index items) := by
  induction items generalizing index
  case nil => exact .ok _
  case cons v items hi =>
    have ⟨h₁, h₂⟩ := List.forall_mem_cons.mp h
    exact ((writable_range h₁).under _).both (hi h₂) _

theorem writable_rangesOf (hm : ∀ m ∈ members, m.2.Whole) (n : PoolName) :
    Writable (rangesOf members n) := by
  simp only [rangesOf]
  split
  case h_1 => exact .ok _
  case h_2 key items hf =>
    obtain ⟨k, hk⟩ : ∃ k, Json.find? k members = some (.arr items) := by
      split at hf
      case h_1 hv =>
        cases hf
        exact ⟨_, hv⟩
      case h_2 =>
        obtain ⟨_, hv, he⟩ := Option.map_eq_some_iff.mp hf
        cases he
        exact ⟨_, hv⟩
    cases Json.whole_find? hk hm
    case arr hi => exact (writable_rangesFrom hi).under _
  case h_3 => exact Writable.under (.silent rfl) _

theorem writable_ofJson (hv : v.Whole) : Writable (ofJson v) := by
  cases hv
  case obj hm =>
    have h := writable_rangesOf hm
    exact ((h .pod).both (h .service) _).both ((h .staticService).both (h .nodeService) _) _
  all_goals exact .silent rfl

theorem writable_check_text (t : Text) : Writable (check (.text t)) := by
  simp only [check]
  split
  case h_1 => exact .silent rfl
  case h_2 =>
    split
    case h_1 hr => exact writable_ofJson (Json.whole_of_read rfl hr)
    case h_2    => exact .silent rfl

end AddressSpace.Document
