import Mathlib.Data.List.Forall2

/-!
# Steps that may stop

A walk is a sequence of steps each of which may stop it with a fault. A
sequence comes to an end exactly when all its steps do, one after the other,
and these lemmas say so for the ways in which the walks are put together:
one step after another, a step followed by a plain function, and the same
step for every entry of a list.
-/

namespace LambdaSharing

variable {ε α β γ : Type}

@[simp] theorem ok_bind (x : α) (f : α → Except ε β) : (Except.ok x >>= f) = f x := rfl

@[simp] theorem error_bind (e : ε) (f : α → Except ε β) :
    ((Except.error e : Except ε α) >>= f) = .error e := rfl

@[simp] theorem map_ok (f : α → β) (x : α) :
    Except.map f (Except.ok x : Except ε α) = .ok (f x) := rfl

@[simp] theorem map_error (f : α → β) (e : ε) :
    Except.map f (Except.error e : Except ε α) = .error e := rfl

@[simp] theorem pure_eq (x : α) : (pure x : Except ε α) = .ok x := rfl

/-- Two steps come to an end if the first does and then the second. -/
theorem bind_eq_ok_iff {x : Except ε α} {f : α → Except ε β} {y : β} :
    (x >>= f) = .ok y ↔ ∃ v, x = .ok v ∧ f v = .ok y := by
  cases x <;> simp

/-- Two steps stop if the first does, or else the second. -/
theorem bind_eq_error_iff {x : Except ε α} {f : α → Except ε β} {e : ε} :
    (x >>= f) = .error e ↔ x = .error e ∨ ∃ v, x = .ok v ∧ f v = .error e := by
  cases x <;> simp

/-- A plain function does not stop anything. -/
theorem map_eq_ok_iff {x : Except ε α} {f : α → β} {y : β} :
    x.map f = .ok y ↔ ∃ v, x = .ok v ∧ f v = y := by
  cases x <;> simp

/-- A plain function at the end may as well come with what precedes. -/
theorem map_of_bind (x : Except ε α) (f : α → Except ε β) (g : β → γ) :
    (x >>= f).map g = x >>= fun v => (f v).map g := by
  cases x <;> rfl

/-- Two plain functions are one. -/
theorem map_of_map (x : Except ε α) (f : α → β) (g : β → γ) :
    (x.map f).map g = x.map fun v => g (f v) := by
  cases x <;> rfl

/-- A step for every entry of a list comes to an end if it does for each. -/
theorem mapM_eq_ok_iff {f : α → Except ε β} {xs : List α} {ys : List β} :
    xs.mapM f = .ok ys ↔ List.Forall₂ (fun x y => f x = .ok y) xs ys := by
  induction xs generalizing ys with
  | nil => cases ys <;> simp
  | cons x xs ih =>
    rw [List.mapM_cons]
    simp only [bind_eq_ok_iff, ih, pure_eq, Except.ok.injEq]
    constructor
    · rintro ⟨y, hy, ys, hys, rfl⟩
      exact .cons hy hys
    · intro h
      cases h with
      | cons hy hys => exact ⟨_, hy, _, hys, rfl⟩

/-- A step for every entry of a list stops at the first entry for which it
does, with the fault that it meets there. -/
theorem exists_first_of_mapM_error {f : α → Except ε β} {xs : List α} {e : ε}
    (h : xs.mapM f = .error e) :
    ∃ (i : Nat) (x : α), xs[i]? = some x ∧ f x = .error e ∧
      ∀ j < i, ∀ y, xs[j]? = some y → ∃ v, f y = .ok v := by
  induction xs with
  | nil => cases h
  | cons x xs ih =>
    rw [List.mapM_cons, bind_eq_error_iff] at h
    rcases h with hx | ⟨v, hv, hrest⟩
    · exact ⟨0, x, rfl, hx, fun j hj => absurd hj (Nat.not_lt_zero j)⟩
    · rcases bind_eq_error_iff.1 hrest with hxs | ⟨vs, -, hpure⟩
      · obtain ⟨i, y, hy, hfault, hbefore⟩ := ih hxs
        refine ⟨i + 1, y, hy, hfault, fun j hj z hz => ?_⟩
        cases j with
        | zero =>
          obtain rfl := Option.some.inj hz
          exact ⟨v, hv⟩
        | succ j => exact hbefore j (Nat.lt_of_succ_lt_succ hj) z hz
      · cases hpure

/-- A step for every entry of a list comes to an end if each does, whatever
with. -/
theorem mapM_isOk_iff {f : α → Except ε β} {xs : List α} :
    (∃ ys, xs.mapM f = .ok ys) ↔ ∀ x ∈ xs, ∃ y, f x = .ok y := by
  simp only [mapM_eq_ok_iff]
  induction xs with
  | nil => simp
  | cons x xs ih =>
    rw [List.forall_mem_cons, ← ih]
    constructor
    · rintro ⟨_, h⟩
      cases h with
      | cons hy hys => exact ⟨⟨_, hy⟩, _, hys⟩
    · rintro ⟨⟨y, hy⟩, ys, hys⟩
      exact ⟨y :: ys, .cons hy hys⟩

end LambdaSharing
