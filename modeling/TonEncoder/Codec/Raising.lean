import Mathlib.Data.List.Basic

/-! # Computations that can raise

A computation gives a value or raises an exception, and a list of them runs until the
first exception.

* `mapM_eq_ok_iff`: the results, when no element raises;
* `mapM_eq_error_iff`: the exception is that of the first element that raises.
-/

namespace Raising

variable {α β ε : Type}

/-! ## One after another -/

/-- A computation that raises nothing gives a value to what follows it. -/
theorem bind_eq_ok {x : Except ε α} {g : α → Except ε β} {b : β} (h : x >>= g = .ok b) :
    ∃ a, x = .ok a ∧ g a = .ok b := by
  cases x with
  | error e => cases h
  | ok a => exact ⟨a, rfl, h⟩

/-! ## Over a list -/

variable {f : α → Except ε β}

/-- The results, when nothing is raised. -/
theorem mapM_eq_ok_iff {xs : List α} {ys : List β} :
    xs.mapM f = .ok ys ↔ xs.map f = ys.map .ok := by
  induction xs generalizing ys with
  | nil => cases ys <;> simp [pure, Except.pure]
  | cons x xs ih =>
      rw [List.mapM_cons, List.map_cons]
      cases hx : f x with
      | error e => cases ys <;> simp [bind, Except.bind]
      | ok y =>
          cases hrest : xs.mapM f with
          | error e =>
              have hnot : ∀ rest : List β, ¬ xs.map f = rest.map .ok := by
                intro rest
                rw [← ih, hrest]
                simp
              cases ys <;> simp [bind, Except.bind, hnot]
          | ok rest =>
              cases ys with
              | nil => simp [bind, Except.bind, pure, Except.pure]
              | cons y' ys => simp [bind, Except.bind, pure, Except.pure, ← ih, hrest]

/-- What is raised is what the first element raises that raises anything. -/
theorem mapM_eq_error_iff {xs : List α} {e : ε} :
    xs.mapM f = .error e ↔
      ∃ before x after, xs = before ++ x :: after ∧
        (∀ x' ∈ before, ∃ y, f x' = .ok y) ∧ f x = .error e := by
  induction xs with
  | nil => simp [pure, Except.pure]
  | cons x xs ih =>
      rw [List.mapM_cons]
      cases hx : f x with
      | error e' =>
          constructor
          · intro h
            cases h
            exact ⟨[], x, xs, rfl, by simp, hx⟩
          · rintro ⟨before, x', after, hsplit, hbefore, hraise⟩
            cases before with
            | nil =>
                obtain ⟨rfl, rfl⟩ := List.cons.inj hsplit
                rw [hx] at hraise
                cases hraise
                rfl
            | cons first before =>
                -- the first element gives no result
                obtain ⟨rfl, rfl⟩ := List.cons.inj hsplit
                rcases hbefore x (by simp) with ⟨y, hy⟩
                rw [hx] at hy
                cases hy
      | ok y =>
          have hrest : (Except.ok y >>= fun y => do
              let ys ← xs.mapM f
              pure (y :: ys)) = .error e ↔ xs.mapM f = .error e := by
            cases xs.mapM f with
            | error e' => simp [bind, Except.bind]
            | ok ys => simp [bind, Except.bind, pure, Except.pure]
          rw [hrest, ih]
          constructor
          · rintro ⟨before, x', after, rfl, hbefore, hraise⟩
            refine ⟨x :: before, x', after, rfl, ?_, hraise⟩
            intro x'' hmem
            rcases List.mem_cons.mp hmem with rfl | hmem
            · exact ⟨y, hx⟩
            · exact hbefore x'' hmem
          · rintro ⟨before, x', after, hsplit, hbefore, hraise⟩
            cases before with
            | nil =>
                obtain ⟨rfl, rfl⟩ := List.cons.inj hsplit
                rw [hx] at hraise
                cases hraise
            | cons first before =>
                obtain ⟨rfl, rfl⟩ := List.cons.inj hsplit
                exact ⟨before, x', after, rfl,
                  fun x'' hmem => hbefore x'' (by simp [hmem]), hraise⟩

end Raising
