import Mathlib.Tactic

/-! # Runs of a step function

A system is a step function: an action leads from a state to the next one, or is
not possible there. A run takes a list of actions.

* `run_invariant`: what every step keeps, every run keeps;
* `Along`: what holds in all states of a run, and `run_invariant_along` for steps that
  rely on it;
* `run_le`: what every step lets grow, every run lets grow;
* `run_simulation`: a run of a system that another one follows step by step;
* `sum_add_eq`: where one of several threads moves, what there is in all of them.
-/

namespace Steps

variable {σ τ α : Type*} (step : σ → α → Option σ)

/-- The actions one after the other. -/
def run : σ → List α → Option σ
  | s, [] => some s
  | s, a :: as => (step s a).bind fun s' => run s' as

variable {step} {s s' : σ}

theorem run_cons_eq_some_iff {a : α} {as : List α} :
    run step s (a :: as) = some s' ↔ ∃ m, step s a = some m ∧ run step m as = some s' :=
  Option.bind_eq_some_iff

theorem run_append_eq_some_iff {as bs : List α} :
    run step s (as ++ bs) = some s' ↔ ∃ m, run step s as = some m ∧ run step m bs = some s' := by
  induction as generalizing s with
  | nil => simp [run]
  | cons a as ih =>
      simp only [List.cons_append, run_cons_eq_some_iff, ih]
      constructor
      · rintro ⟨m, hstep, m', hrun, hrest⟩
        exact ⟨m', ⟨m, hstep, hrun⟩, hrest⟩
      · rintro ⟨m', ⟨m, hstep, hrun⟩, hrest⟩
        exact ⟨m, hstep, m', hrun, hrest⟩

/-- Induction over a run. -/
theorem run_invariant {Inv : σ → Prop} (hstep : ∀ s a s', Inv s → step s a = some s' → Inv s')
    {as : List α} (hrun : run step s as = some s') (h : Inv s) : Inv s' := by
  induction as generalizing s with
  | nil =>
      cases hrun
      exact h
  | cons a as ih =>
      rcases run_cons_eq_some_iff.mp hrun with ⟨m, hfirst, hrest⟩
      exact ih hrest (hstep s a m h hfirst)

/-- What holds in all states of a run. -/
def Along (step : σ → α → Option σ) (P : σ → Prop) : σ → List α → Prop
  | s, [] => P s
  | s, a :: as => P s ∧ ∀ m, step s a = some m → Along step P m as

theorem Along.last {P : σ → Prop} {as : List α} (h : Along step P s as)
    (hrun : run step s as = some s') : P s' := by
  induction as generalizing s with
  | nil =>
      cases hrun
      exact h
  | cons a as ih =>
      rcases run_cons_eq_some_iff.mp hrun with ⟨m, hfirst, hrest⟩
      exact ih (h.2 m hfirst) hrest

/-- Induction over a run where the steps rely on what holds along it. -/
theorem run_invariant_along {P Inv : σ → Prop}
    (hstep : ∀ s a s', P s → Inv s → step s a = some s' → Inv s') {as : List α}
    (halong : Along step P s as) (hrun : run step s as = some s') (h : Inv s) : Inv s' := by
  induction as generalizing s with
  | nil =>
      cases hrun
      exact h
  | cons a as ih =>
      rcases run_cons_eq_some_iff.mp hrun with ⟨m, hfirst, hrest⟩
      exact ih (halong.2 m hfirst) hrest (hstep s a m halong.1 h hfirst)

/-- A preorder that every step respects under an invariant. -/
theorem run_le {Inv : σ → Prop} (le : σ → σ → Prop) (hrefl : ∀ s, le s s)
    (htrans : ∀ {a b c}, le a b → le b c → le a c)
    (hstep : ∀ s a s', Inv s → step s a = some s' → Inv s' ∧ le s s')
    {as : List α} (hrun : run step s as = some s') (h : Inv s) : le s s' := by
  induction as generalizing s with
  | nil =>
      cases hrun
      exact hrefl _
  | cons a as ih =>
      rcases run_cons_eq_some_iff.mp hrun with ⟨m, hfirst, hrest⟩
      rcases hstep s a m h hfirst with ⟨hm, hle⟩
      exact htrans hle (ih hrest hm)

/-- A system that another one can follow step by step, it can follow on every
run. -/
theorem run_simulation {spec : τ → α → Option τ} {R : σ → τ → Prop}
    (hstep : ∀ s t a s', R s t → step s a = some s' → ∃ t', spec t a = some t' ∧ R s' t')
    {as : List α} {t : τ} (hrun : run step s as = some s') (h : R s t) :
    ∃ t', run spec t as = some t' ∧ R s' t' := by
  induction as generalizing s t with
  | nil =>
      cases hrun
      exact ⟨t, rfl, h⟩
  | cons a as ih =>
      rcases run_cons_eq_some_iff.mp hrun with ⟨m, hfirst, hrest⟩
      rcases hstep s t a m h hfirst with ⟨t₁, hspec, hm⟩
      rcases ih hrest hm with ⟨t', hrun', h'⟩
      exact ⟨t', run_cons_eq_some_iff.mpr ⟨t₁, hspec, hrun'⟩, h'⟩

/-- A sum over all threads, of which one has moved. -/
theorem sum_add_eq {M ι : Type*} [AddCommMonoid M] [Fintype ι] [DecidableEq ι] {f g : ι → M} {i : ι}
    (h : ∀ j ≠ i, g j = f j) : ∑ j, g j + f i = ∑ j, f j + g i := by
  have hothers : ∑ j ∈ Finset.univ.erase i, g j = ∑ j ∈ Finset.univ.erase i, f j :=
    Finset.sum_congr rfl fun j hj => h j (Finset.ne_of_mem_erase hj)
  rw [← Finset.add_sum_erase _ g (Finset.mem_univ i), ← Finset.add_sum_erase _ f (Finset.mem_univ i),
    hothers]
  exact add_right_comm .. |>.trans (by abel)

end Steps
