import AddressSpace.Text.Blank
import AddressSpace.Text.Utf8
import Mathlib.Data.List.DropRight

/-!
Text that is made of characters, with no half of a surrogate pair in it: just what UTF-8 can write. Text
in quotes is always of that kind.
-/

namespace AddressSpace

namespace Text

variable {t u : Text} {c : CodePoint}

def Whole (t : Text) : Prop :=
  ∀ c ∈ t, ¬ c.isHalf

@[simp]
theorem whole_nil : Whole [] :=
  nofun

@[simp]
theorem whole_cons_iff : Whole (c :: t) ↔ ¬ c.isHalf ∧ t.Whole :=
  List.forall_mem_cons

@[simp]
theorem whole_append_iff : Whole (t ++ u) ↔ t.Whole ∧ u.Whole := by
  simp [Whole, or_imp, forall_and]

@[simp]
theorem whole_ofChars (cs : List Char) : (ofChars cs).Whole := by
  simp [Whole, ofChars, CodePoint.isHalf]

@[simp]
theorem whole_ofString (s : String) : (ofString s).Whole :=
  whole_ofChars s.toList

theorem ofString_inj {s t : String} : ofString s = ofString t ↔ s = t := by
  refine ⟨fun h => ?_, congrArg ofString⟩
  have hc := congrArg chars? h
  simp only [ofString, chars?_ofChars, Option.some.injEq] at hc
  exact String.toList_inj.mp hc

theorem Whole.sublist (h : t.Whole) (hs : u.Sublist t) : u.Whole := fun c hc =>
  h c (hs.subset hc)

theorem Whole.trim (h : t.Whole) : (trim t).Whole := by
  refine h.sublist (.trans ?_ (List.dropWhile_sublist isBlank))
  exact (List.rdropWhile_prefix isBlank (trimStart t)).sublist

theorem Utf8.writeFaultFrom_eq_none_iff {place : Nat} :
    writeFaultFrom place (fun _ => false) t = none ↔ t.Whole := by
  induction t generalizing place
  case nil => simp [writeFaultFrom]
  case cons c t hi => cases c <;> simp [writeFaultFrom, CodePoint.isHalf, hi]

theorem Utf8.writeFault?_eq_none_iff : writeFault? t = none ↔ t.Whole :=
  writeFaultFrom_eq_none_iff

-- In quotes a half is shown by its number, as it does not print.
theorem whole_escape (quote : Char) (c : CodePoint) : (escape quote c).Whole := by
  cases c
  case char c =>
    simp only [escape]
    repeat' split
    all_goals simp [CodePoint.isHalf]
  case half n => simp [escape, isPrintable]

theorem whole_quoted (t : Text) : (quoted t).Whole := by
  have hq (quote : Char) : Whole [.char quote] := by simp [CodePoint.isHalf]
  have ht (quote : Char) : Whole (t.flatMap (escape quote)) := by
    intro c hc
    have ⟨d, _, hd⟩ := List.mem_flatMap.mp hc
    exact whole_escape quote d c hd
  simp only [quoted, whole_append_iff]
  exact ⟨⟨hq _, ht _⟩, hq _⟩

end Text

end AddressSpace
