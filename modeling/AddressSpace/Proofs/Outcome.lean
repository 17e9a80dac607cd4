/-!
Chains of steps that may fail: what a step that succeeds or fails makes of the rest of its chain.
-/

namespace AddressSpace.Outcome

variable {ε ε' α β : Type}

@[simp]
theorem ok_bind (a : α) (f : α → Except ε β) : (Except.ok a >>= f) = f a :=
  rfl

@[simp]
theorem error_bind (e : ε) (f : α → Except ε β) : (Except.error e >>= f) = .error e :=
  rfl

theorem bind_eq_ok_iff {x : Except ε α} {f : α → Except ε β} {b : β} :
    (x >>= f) = .ok b ↔ ∃ a, x = .ok a ∧ f a = .ok b := by
  cases x <;> simp

@[simp]
theorem pure_eq_ok (a : α) : (pure a : Except ε α) = .ok a :=
  rfl

@[simp]
theorem throw_eq_error (e : ε) : (throw e : Except ε α) = .error e :=
  rfl

@[simp]
theorem map_ok (f : α → β) (a : α) : Except.map f (.ok a : Except ε α) = .ok (f a) :=
  rfl

@[simp]
theorem map_error (f : α → β) (e : ε) : Except.map f (.error e : Except ε α) = .error e :=
  rfl

@[simp]
theorem mapError_ok (g : ε → ε') (a : α) : Except.mapError g (.ok a) = .ok a :=
  rfl

@[simp]
theorem mapError_error (g : ε → ε') (e : ε) :
    Except.mapError g (.error e : Except ε α) = .error (g e) :=
  rfl

theorem mapError_eq_ok_iff {g : ε → ε'} {x : Except ε α} {a : α} :
    x.mapError g = .ok a ↔ x = .ok a := by
  cases x <;> simp

theorem eq_ok_of_toOption {x : Except ε α} {a : α} (h : x.toOption = some a) : x = .ok a := by
  cases x
  case error e => cases h
  case ok b    => exact congrArg _ (Option.some.inj h)

theorem not_forall_ok_iff {f : α → Except ε β} {as : List α} :
    (¬ ∀ a ∈ as, ∃ x, f a = .ok x) ↔ ∃ a ∈ as, ∃ e, f a = .error e := by
  simp only [Classical.not_forall, exists_prop]
  refine exists_congr fun a => and_congr_right fun _ => ?_
  cases f a <;> simp

-- Of several attempts that do not all succeed, one is the first to fail.
theorem exists_first_error {f : α → Except ε β} {as : List α} (h : ∃ a ∈ as, ∃ e, f a = .error e) :
    ∃ before a after e, as = before ++ a :: after ∧ (∀ b ∈ before, ∃ x, f b = .ok x) ∧ f a = .error e := by
  induction as
  case nil => simp at h
  case cons a as hi =>
    cases ha : f a
    case error e => exact ⟨[], a, as, e, rfl, nofun, ha⟩
    case ok x =>
      have ht : ∃ a ∈ as, ∃ e, f a = .error e := by simpa [ha] using h
      obtain ⟨before, b, after, e, rfl, hb, he⟩ := hi ht
      exact ⟨a :: before, b, after, e, rfl, List.forall_mem_cons.mpr ⟨⟨x, ha⟩, hb⟩, he⟩

end AddressSpace.Outcome
