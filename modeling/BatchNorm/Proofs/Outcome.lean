import BatchNorm.Failure

/-!
# Operations that succeed

An operation in steps gives a result exactly when each step does, and a check
passes exactly when its condition holds. These are the rules by which the proofs
take operations apart. A refusal never gives a result, and it is one of a setting
where the numbers in its message are short enough to be written
(`refuse_eq_configuration`).
-/

set_option autoImplicit false

namespace BatchNorm

@[simp] theorem ok_bind {α β : Type} (a : α) (f : α → Except Failure β) :
    (Except.ok a >>= f) = f a := rfl

@[simp] theorem error_bind {α β : Type} (e : Failure) (f : α → Except Failure β) :
    (Except.error e >>= f) = .error e := rfl

@[simp] theorem pure_eq_ok {α : Type} (a : α) : (pure a : Except Failure α) = .ok a := rfl

@[simp] theorem map_ok {α β : Type} (f : α → β) (a : α) :
    (f <$> (Except.ok a : Except Failure α)) = .ok (f a) := rfl

theorem bind_eq_ok_iff {α β : Type} {x : Except Failure α} {f : α → Except Failure β} {b : β} :
    (x >>= f) = .ok b ↔ ∃ a, x = .ok a ∧ f a = .ok b := by
  cases x with
  | error e => simp
  | ok a => simp

theorem map_eq_ok_iff {α β : Type} {x : Except Failure α} {f : α → β} {b : β} :
    (f <$> x) = .ok b ↔ ∃ a, x = .ok a ∧ f a = b := by
  cases x with
  | error e => exact ⟨nofun, nofun⟩
  | ok a => simp

theorem map_map {α β γ : Type} (f : α → β) (g : β → γ) (x : Except Failure α) :
    (x.map f).map g = x.map fun a => g (f a) := by
  cases x with
  | error e => rfl
  | ok a => rfl

/-! ## Refusals -/

theorem refuse_eq_configuration {α : Type} {fault : Fault}
    (h : ∀ n ∈ fault.integers, Integer.isWritable n = true) :
    (refuse fault : Except Failure α) = .error (.configuration fault) :=
  if_pos (List.all_eq_true.mpr h)

theorem refuse_eq_misuse {α : Type} {fault : Fault}
    (h : ∃ n ∈ fault.integers, Integer.isWritable n = false) :
    (refuse fault : Except Failure α) = misuse .integerTooLong := by
  obtain ⟨n, hn, hlong⟩ := h
  refine if_neg fun hall => ?_
  rw [List.all_eq_true.mp hall n hn] at hlong
  cases hlong

/-- A refusal is about the setting, or there is no message for it. -/
theorem refuse_cases {α : Type} (fault : Fault) :
    (refuse fault : Except Failure α) = .error (.configuration fault) ∨
      (refuse fault : Except Failure α) = misuse .integerTooLong := by
  unfold refuse
  split
  · exact Or.inl rfl
  · exact Or.inr rfl

/-- A refusal is the same failure whatever there was to be the result. -/
theorem exists_refuse_eq_error (fault : Fault) :
    ∃ e, ∀ {α : Type}, (refuse fault : Except Failure α) = .error e := by
  unfold refuse
  split
  · exact ⟨_, rfl⟩
  · exact ⟨_, rfl⟩

@[simp] theorem refuse_ne_ok {α : Type} (fault : Fault) (a : α) : refuse fault ≠ .ok a := by
  rcases refuse_cases (α := α) fault with h | h
  · rw [h]
    exact nofun
  · rw [h]
    exact nofun

@[simp] theorem refuse_bind {α β : Type} (fault : Fault) (f : α → Except Failure β) :
    (refuse fault >>= f) = refuse fault := by
  unfold refuse
  split
  · rfl
  · rfl

/-! ## Checks -/

theorem require_eq_ok {condition : Prop} [Decidable condition] {fault : Fault} (h : condition) :
    require condition fault = .ok () := if_pos h

theorem require_eq_ok_iff {condition : Prop} [Decidable condition] {fault : Fault} {u : Unit} :
    require condition fault = .ok u ↔ condition := by
  by_cases h : condition
  · exact iff_of_true (require_eq_ok h) h
  · refine iff_of_false (fun hok => ?_) h
    rw [require, if_neg h] at hok
    exact refuse_ne_ok fault u hok

/-- A list of steps of which each is known to succeed. -/
theorem mapM_eq_ok {α β : Type} {f : α → Except Failure β} {g : α → β} {xs : List α}
    (h : ∀ x ∈ xs, f x = .ok (g x)) : xs.mapM f = .ok (xs.map g) := by
  induction xs with
  | nil => rfl
  | cons x xs ih =>
      rw [List.mapM_cons, h x List.mem_cons_self, ok_bind,
        ih fun y hy => h y (List.mem_cons_of_mem x hy)]
      rfl

end BatchNorm
