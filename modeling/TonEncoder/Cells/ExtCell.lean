import TonEncoder.Cells.AtomicRef

/-! # Cells that are loaded on demand

An `ExtCell` is a `PrunnedCell`, which knows its hashes and depths, until a thread
asks for its contents; then it is a `DataCell`. Any number of threads look at it
and load it at once. It has one `AtomicRef` for each of its two sides, and no
lock.

* `answers_of_run`: whatever is going on, the cell looks the same, and all who
  load it get the same cell.
* `progress_of_run`: the checks for null never fail, and a call ends after seven
  operations on its references at most. How long one of these takes is left open: a
  `load` goes on until there are references in stock.
-/

namespace TonEncoder.ExtCell

open AtomicRef

/-- What comes from outside: what `get_level_mask`, `get_hash` and `get_depth` give
for the cells of the two kinds, and the test of a cell that the loader brings. -/
structure Cells (PrunnedCell DataCell View : Type) where
  viewPrunned : PrunnedCell → View
  viewData : DataCell → View
  /-- `prunned_cell->check_equals_unloaded(new_data_cell).is_ok()` -/
  checkEqualsUnloaded : PrunnedCell → DataCell → Bool
  view_eq : ∀ prunned data, checkEqualsUnloaded prunned data = true →
    viewData data = viewPrunned prunned

variable {τ PrunnedCell DataCell View : Type} [DecidableEq τ]

/-! ## Threads -/

/-- What a call gives. -/
inductive Answer (DataCell View : Type) where
  | view (view : View)
  | loaded (data : DataCell)
  | error
deriving DecidableEq, Repr

/-- The next access of a thread. -/
inductive Pc (PrunnedCell DataCell : Type) where
  | idle
  /-- in `CellView` -/
  | view
  | viewPrunned
  | viewAgain
  /-- in `load_data_cell` -/
  | load
  | loadPrunned
  | loadAgain
  | loading (prunned : PrunnedCell)
  | storing (data : DataCell)
  | clearing
  | counting
  | returning
deriving DecidableEq, Repr

/-- The cell, its share of the counter of unloaded cells, and where the threads
are. An `AtomicRef` is the register that its operations make it. The last field
keeps a record of the answers. -/
structure State (τ PrunnedCell DataCell View : Type) where
  dataCell : Option DataCell
  prunnedCell : Option PrunnedCell
  unloaded : Int
  pc : τ → Pc PrunnedCell DataCell
  answers : List (τ × Answer DataCell View)

inductive Act (DataCell : Type) where
  | view
  | load
  /-- the next access of a call -/
  | step
  /-- the loader returns, with a cell or an error -/
  | loaded (data : Option DataCell)
deriving DecidableEq, Repr

namespace State

/-- `ExtCell::create` -/
def init (prunned : PrunnedCell) : State τ PrunnedCell DataCell View :=
  ⟨none, some prunned, 1, fun _ => .idle, []⟩

def goto (s : State τ PrunnedCell DataCell View) (t : τ) (pc : Pc PrunnedCell DataCell) :
    State τ PrunnedCell DataCell View :=
  { s with pc := Function.update s.pc t pc }

def answer (s : State τ PrunnedCell DataCell View) (t : τ) (answer : Answer DataCell View) :
    State τ PrunnedCell DataCell View :=
  { s with pc := Function.update s.pc t .idle, answers := s.answers ++ [(t, answer)] }

section

variable [DecidableEq PrunnedCell] [DecidableEq DataCell] (cells : Cells PrunnedCell DataCell View)

/-- The next access of a thread. Where a check for null fails there is none. -/
def access (s : State τ PrunnedCell DataCell View) (t : τ) :
    Option (State τ PrunnedCell DataCell View) :=
  match s.pc t with
  | .idle => none
  | .view =>
      match s.dataCell with
      | some data => some (s.answer t (.view (cells.viewData data)))
      | none => some (s.goto t .viewPrunned)
  | .viewPrunned =>
      match s.prunnedCell with
      | some prunned => some (s.answer t (.view (cells.viewPrunned prunned)))
      | none => some (s.goto t .viewAgain)
  | .viewAgain => s.dataCell.map fun data => s.answer t (.view (cells.viewData data))
  | .load =>
      match s.dataCell with
      | some data => some (s.answer t (.loaded data))
      | none => some (s.goto t .loadPrunned)
  | .loadPrunned =>
      match s.prunnedCell with
      | some prunned => some (s.goto t (.loading prunned))
      | none => some (s.goto t .loadAgain)
  | .loadAgain => s.dataCell.map fun data => s.answer t (.loaded data)
  | .loading _ => none
  | .storing data =>
      match Register.step s.dataCell (.storeIfEmpty data true) with
      | some dataCell => some ({ s with dataCell }.goto t .clearing)
      | none => some (s.goto t .returning)
  | .clearing =>
      (Register.step s.prunnedCell (.store none)).map fun prunnedCell =>
        { s with prunnedCell }.goto t .counting
  | .counting => some ({ s with unloaded := s.unloaded - 1 }.goto t .returning)
  | .returning => s.dataCell.map fun data => s.answer t (.loaded data)

/-- The loader returns to a thread that waits for it. -/
def loaded (s : State τ PrunnedCell DataCell View) (t : τ) (data : Option DataCell) :
    Option (State τ PrunnedCell DataCell View) :=
  match s.pc t, data with
  | .loading _, none => some (s.answer t .error)
  | .loading prunned, some data =>
      if cells.checkEqualsUnloaded prunned data then some (s.goto t (.storing data))
      else some (s.answer t .error)
  | _, _ => none

def step (s : State τ PrunnedCell DataCell View) :
    τ × Act DataCell → Option (State τ PrunnedCell DataCell View)
  | (t, .view) => if s.pc t = .idle then some (s.goto t .view) else none
  | (t, .load) => if s.pc t = .idle then some (s.goto t .load) else none
  | (t, .step) => s.access cells t
  | (t, .loaded data) => s.loaded cells t data

end

end State

/-! ## The invariant -/

/-- The thread that has put the cell in, and has not yet counted it. -/
def Pc.counts : Pc PrunnedCell DataCell → Int
  | .clearing | .counting => 1
  | _ => 0

theorem Pc.counts_mem (pc : Pc PrunnedCell DataCell) : 0 ≤ pc.counts ∧ pc.counts ≤ 1 := by
  unfold counts
  split <;> decide

/-- How many accesses of its own a thread has to make at most until it returns. -/
def Pc.left : Pc PrunnedCell DataCell → Nat
  | .idle => 0
  | .viewAgain | .loadAgain | .returning => 1
  | .viewPrunned | .counting => 2
  | .view | .clearing => 3
  | .storing _ => 4
  | .loading _ => 5
  | .loadPrunned => 6
  | .load => 7

/-- What a thread knows of the cell. -/
def Pc.Knows (cells : Cells PrunnedCell DataCell View) (prunned : PrunnedCell)
    (dataCell : Option DataCell) : Pc PrunnedCell DataCell → Prop
  | .viewAgain | .loadAgain | .returning | .clearing | .counting => dataCell.isSome
  | .loading other => other = prunned
  | .storing data => cells.viewData data = cells.viewPrunned prunned
  | _ => True

/-- The answers that are right. -/
def Answer.Ok (cells : Cells PrunnedCell DataCell View) (prunned : PrunnedCell)
    (dataCell : Option DataCell) : Answer DataCell View → Prop
  | .view given => given = cells.viewPrunned prunned
  | .loaded data => dataCell = some data
  | .error => True

namespace State

variable (cells : Cells PrunnedCell DataCell View) (prunned : PrunnedCell)

structure Inv [Fintype τ] (s : State τ PrunnedCell DataCell View) : Prop where
  dataCell : ∀ data, s.dataCell = some data → cells.viewData data = cells.viewPrunned prunned
  prunnedCell : ∀ other, s.prunnedCell = some other → other = prunned
  /-- one of the two is there -/
  isSome : s.dataCell = none → s.prunnedCell.isSome
  knows : ∀ t, (s.pc t).Knows cells prunned s.dataCell
  answers : ∀ op ∈ s.answers, op.2.Ok cells prunned s.dataCell
  unloaded : s.unloaded = (if s.dataCell = none then 1 else 0) + ∑ t, (s.pc t).counts
  counts_le : ∑ t, (s.pc t).counts ≤ 1

/-- What an access of a thread does. -/
structure Moves (s : State τ PrunnedCell DataCell View) (t : τ)
    (s' : State τ PrunnedCell DataCell View) : Prop where
  others : ∀ j ≠ t, s'.pc j = s.pc j
  /-- a cell is put in when there is none, and it is kept -/
  dataCell : s'.dataCell = s.dataCell ∨ s.dataCell = none ∧
    ∃ data, s'.dataCell = some data ∧ cells.viewData data = cells.viewPrunned prunned
  /-- the other side is given up only then -/
  prunnedCell : s'.prunnedCell = s.prunnedCell ∨ s'.prunnedCell = none ∧ s.dataCell.isSome
  knows : (s'.pc t).Knows cells prunned s'.dataCell
  answers : s'.answers = s.answers ∨ ∃ answer, s'.answers = s.answers ++ [(t, answer)] ∧
    answer.Ok cells prunned s'.dataCell
  unloaded : s'.unloaded + (if s.dataCell = none then 1 else 0) + (s.pc t).counts =
    s.unloaded + (if s'.dataCell = none then 1 else 0) + (s'.pc t).counts
  counts : (s'.pc t).counts ≤ (s.pc t).counts ∨ s.dataCell = none

variable {cells prunned} {s s' : State τ PrunnedCell DataCell View} {t : τ}

theorem knows_mono {pc : Pc PrunnedCell DataCell} {dataCell dataCell' : Option DataCell}
    (h : pc.Knows cells prunned dataCell) (hdata : dataCell.isSome → dataCell'.isSome) :
    pc.Knows cells prunned dataCell' := by
  cases pc <;> first | exact hdata h | exact h

theorem ok_mono {answer : Answer DataCell View} {dataCell dataCell' : Option DataCell}
    (h : answer.Ok cells prunned dataCell)
    (hdata : ∀ data, dataCell = some data → dataCell' = some data) :
    answer.Ok cells prunned dataCell' := by
  cases answer with
  | loaded data => exact hdata data h
  | view given => exact h
  | error => trivial

omit [DecidableEq τ] in
/-- Nobody counts a cell that is not there. -/
theorem Inv.counts_eq_zero [Fintype τ] (h : s.Inv cells prunned) (hnone : s.dataCell = none) :
    ∑ t, (s.pc t).counts = 0 := by
  refine Finset.sum_eq_zero ?_
  intro t _
  have hknows := h.knows t
  rw [hnone] at hknows
  cases hpc : s.pc t with
  | clearing =>
      rw [hpc] at hknows
      cases hknows
  | counting =>
      rw [hpc] at hknows
      cases hknows
  | _ => rfl

omit [DecidableEq τ] in
theorem Inv.data_isSome [Fintype τ] (h : s.Inv cells prunned) (hnone : s.prunnedCell = none) :
    s.dataCell.isSome := by
  rw [Option.isSome_iff_ne_none]
  intro hdata
  have hprunned := h.isSome hdata
  rw [hnone] at hprunned
  cases hprunned

theorem Moves.inv [Fintype τ] (hmoves : s.Moves cells prunned t s') (h : s.Inv cells prunned) :
    s'.Inv cells prunned := by
  have hsum := Steps.sum_add_eq (f := fun j => (s.pc j).counts) (g := fun j => (s'.pc j).counts)
    (i := t) (fun j hj => by rw [hmoves.others j hj])
  -- a cell that is there stays
  have hkept : ∀ data, s.dataCell = some data → s'.dataCell = some data := by
    intro data hdata
    rcases hmoves.dataCell with hsame | ⟨hnone, -⟩
    · rw [hsame, hdata]
    · rw [hnone] at hdata
      cases hdata
  have hsome : s.dataCell.isSome → s'.dataCell.isSome := by
    intro hdata
    rcases Option.isSome_iff_exists.mp hdata with ⟨data, hdata⟩
    rw [hkept data hdata]
    rfl
  constructor
  case dataCell =>
      intro data hdata
      rcases hmoves.dataCell with hsame | ⟨-, other, hother, hview⟩
      · exact h.dataCell data (hsame.symm.trans hdata)
      · obtain rfl := Option.some.inj (hother.symm.trans hdata)
        exact hview
  case prunnedCell =>
      intro other hother
      rcases hmoves.prunnedCell with hsame | ⟨hnone, -⟩
      · exact h.prunnedCell other (hsame.symm.trans hother)
      · rw [hnone] at hother
        cases hother
  case isSome =>
      intro hnone
      have hbefore : s.dataCell = none := by
        rw [← Option.not_isSome_iff_eq_none]
        intro hdata
        have := hsome hdata
        rw [hnone] at this
        cases this
      rcases hmoves.prunnedCell with hsame | ⟨-, hdata⟩
      · rw [hsame]
        exact h.isSome hbefore
      · rw [hbefore] at hdata
        cases hdata
  case knows =>
      intro j
      by_cases hj : j = t
      · rw [hj]
        exact hmoves.knows
      · rw [hmoves.others j hj]
        exact knows_mono (h.knows j) hsome
  case answers =>
      have hold : ∀ op ∈ s.answers, op.2.Ok cells prunned s'.dataCell := by
        intro op hop
        exact ok_mono (h.answers op hop) hkept
      rcases hmoves.answers with hsame | ⟨answer, hnew, hok⟩
      · rwa [hsame]
      · rw [hnew]
        intro op hop
        rcases List.mem_append.mp hop with hop | hop
        · exact hold op hop
        · rw [List.mem_singleton.mp hop]
          exact hok
  case unloaded =>
      have hmove := hmoves.unloaded
      have hbefore := h.unloaded
      omega
  case counts_le =>
      -- the cell is put in once, so that one thread counts it
      rcases hmoves.counts with hle | hnone
      · have hbefore := h.counts_le
        omega
      · have hbefore := h.counts_eq_zero hnone
        have hthread := Pc.counts_mem (s.pc t)
        have hthread' := Pc.counts_mem (s'.pc t)
        omega

/-! ### The steps -/

/-- A thread goes on, and knows what it has to. -/
theorem goto_moves {pc : Pc PrunnedCell DataCell} (hknows : pc.Knows cells prunned s.dataCell)
    (hcounts : pc.counts = (s.pc t).counts) : s.Moves cells prunned t (s.goto t pc) := by
  have hat : (s.goto t pc).pc t = pc := Function.update_self _ _ _
  constructor
  case others => exact fun j hj => Function.update_of_ne hj _ _
  case dataCell => exact Or.inl rfl
  case prunnedCell => exact Or.inl rfl
  case knows => rwa [hat]
  case answers => exact Or.inl rfl
  case unloaded =>
      rw [hat, hcounts]
      rfl
  case counts =>
      rw [hat, hcounts]
      exact Or.inl le_rfl

theorem answer_moves {answer : Answer DataCell View} (hok : answer.Ok cells prunned s.dataCell)
    (hcounts : (s.pc t).counts = 0) : s.Moves cells prunned t (s.answer t answer) := by
  have hat : (s.answer t answer).pc t = .idle := Function.update_self _ _ _
  constructor
  case others => exact fun j hj => Function.update_of_ne hj _ _
  case dataCell => exact Or.inl rfl
  case prunnedCell => exact Or.inl rfl
  case knows =>
      rw [hat]
      trivial
  case answers => exact Or.inr ⟨answer, rfl, hok⟩
  case unloaded =>
      rw [hat, hcounts]
      rfl
  case counts =>
      rw [hat, hcounts]
      exact Or.inl le_rfl

theorem loaded_moves {data : Option DataCell} [Fintype τ] (h : s.Inv cells prunned)
    (hstep : s.loaded cells t data = some s') : s.Moves cells prunned t s' := by
  unfold loaded at hstep
  split at hstep
  · rename_i other hpc
    cases hstep
    exact answer_moves trivial (by rw [hpc]; rfl)
  · rename_i other data hpc
    split at hstep
    · rename_i hcheck
      cases hstep
      have hknows := h.knows t
      rw [hpc] at hknows
      obtain rfl : other = prunned := hknows
      exact goto_moves (cells.view_eq _ _ hcheck) (by rw [hpc]; rfl)
    · cases hstep
      exact answer_moves trivial (by rw [hpc]; rfl)
  · cases hstep

variable [DecidableEq PrunnedCell] [DecidableEq DataCell]

theorem access_moves [Fintype τ] (h : s.Inv cells prunned) (hstep : s.access cells t = some s') :
    s.Moves cells prunned t s' := by
  have hknows := h.knows t
  unfold access at hstep
  cases hpc : s.pc t with
  | idle =>
      simp only [hpc] at hstep
      cases hstep
  | view =>
      simp only [hpc] at hstep
      split at hstep
      · rename_i data hdata
        cases hstep
        exact answer_moves (h.dataCell data hdata) (by rw [hpc]; rfl)
      · cases hstep
        exact goto_moves trivial (by rw [hpc]; rfl)
  | viewPrunned =>
      simp only [hpc] at hstep
      split at hstep
      · rename_i other hother
        cases hstep
        obtain rfl := h.prunnedCell other hother
        exact answer_moves rfl (by rw [hpc]; rfl)
      · rename_i hnone
        cases hstep
        exact goto_moves (h.data_isSome hnone) (by rw [hpc]; rfl)
  | viewAgain =>
      simp only [hpc] at hstep
      rcases Option.map_eq_some_iff.mp hstep with ⟨data, hdata, rfl⟩
      exact answer_moves (h.dataCell data hdata) (by rw [hpc]; rfl)
  | load =>
      simp only [hpc] at hstep
      split at hstep
      · rename_i data hdata
        cases hstep
        exact answer_moves hdata (by rw [hpc]; rfl)
      · cases hstep
        exact goto_moves trivial (by rw [hpc]; rfl)
  | loadPrunned =>
      simp only [hpc] at hstep
      split at hstep
      · rename_i other hother
        cases hstep
        exact goto_moves (h.prunnedCell other hother) (by rw [hpc]; rfl)
      · rename_i hnone
        cases hstep
        exact goto_moves (h.data_isSome hnone) (by rw [hpc]; rfl)
  | loadAgain =>
      simp only [hpc] at hstep
      rcases Option.map_eq_some_iff.mp hstep with ⟨data, hdata, rfl⟩
      exact answer_moves hdata (by rw [hpc]; rfl)
  | loading other =>
      simp only [hpc] at hstep
      cases hstep
  | storing data =>
      simp only [hpc] at hstep
      split at hstep
      · rename_i dataCell hstore
        rcases Option.ite_none_right_eq_some.mp hstore with ⟨hnone, hdata⟩
        cases hdata
        cases hstep
        have hat : ({ s with dataCell := some data }.goto t .clearing).pc t = .clearing :=
          Function.update_self _ _ _
        rw [hpc] at hknows
        constructor
        case others => exact fun j hj => Function.update_of_ne hj _ _
        case dataCell => exact Or.inr ⟨hnone, data, rfl, hknows⟩
        -- the pruned cell is given up only by the next access
        case prunnedCell => exact Or.inl rfl
        case knows =>
            rw [hat]
            rfl
        case answers => exact Or.inl rfl
        case unloaded =>
            rw [hat, hpc, if_pos hnone]
            simp [goto, Pc.counts]
        case counts => exact Or.inr hnone
      · rename_i hstore
        cases hstep
        -- another thread was first, and its cell is there
        refine goto_moves (Option.isSome_iff_ne_none.mpr ?_) (by rw [hpc]; rfl)
        intro hnone
        rw [Register.step, if_pos hnone] at hstore
        cases hstore
  | clearing =>
      simp only [hpc, Register.step, Option.map_some] at hstep
      cases hstep
      have hat : ({ s with prunnedCell := none }.goto t .counting).pc t = .counting :=
        Function.update_self _ _ _
      rw [hpc] at hknows
      constructor
      case others => exact fun j hj => Function.update_of_ne hj _ _
      case dataCell => exact Or.inl rfl
      case prunnedCell => exact Or.inr ⟨rfl, hknows⟩
      case knows =>
          rw [hat]
          exact hknows
      case answers => exact Or.inl rfl
      case unloaded =>
          rw [hat, hpc]
          rfl
      case counts =>
          rw [hat, hpc]
          exact Or.inl le_rfl
  | counting =>
      simp only [hpc] at hstep
      cases hstep
      have hat : ({ s with unloaded := s.unloaded - 1 }.goto t .returning).pc t = .returning :=
        Function.update_self _ _ _
      rw [hpc] at hknows
      constructor
      case others => exact fun j hj => Function.update_of_ne hj _ _
      case dataCell => exact Or.inl rfl
      case prunnedCell => exact Or.inl rfl
      case knows =>
          rw [hat]
          exact hknows
      case answers => exact Or.inl rfl
      case unloaded =>
          -- what the thread had to count, it has counted
          rw [hat, hpc]
          show s.unloaded - 1 + (if s.dataCell = none then 1 else 0) + 1 =
            s.unloaded + (if s.dataCell = none then 1 else 0) + 0
          omega
      case counts =>
          rw [hat, hpc]
          exact Or.inl Int.one_nonneg
  | returning =>
      simp only [hpc] at hstep
      rcases Option.map_eq_some_iff.mp hstep with ⟨data, hdata, rfl⟩
      exact answer_moves hdata (by rw [hpc]; rfl)

theorem step_moves [Fintype τ] {op : τ × Act DataCell} (h : s.Inv cells prunned)
    (hstep : s.step cells op = some s') : s.Moves cells prunned op.1 s' := by
  rcases op with ⟨t, act⟩
  cases act with
  | view =>
      rcases Option.ite_none_right_eq_some.mp hstep with ⟨hidle, hs⟩
      cases hs
      exact goto_moves trivial (by rw [hidle]; rfl)
  | load =>
      rcases Option.ite_none_right_eq_some.mp hstep with ⟨hidle, hs⟩
      cases hs
      exact goto_moves trivial (by rw [hidle]; rfl)
  | step => exact access_moves h hstep
  | loaded data => exact loaded_moves h hstep

/-! ## Runs -/

variable [Fintype τ] {acts acts' : List (τ × Act DataCell)}

omit [DecidableEq τ] [DecidableEq PrunnedCell] [DecidableEq DataCell] in
theorem inv_init (cells : Cells PrunnedCell DataCell View) (prunned : PrunnedCell) :
    (init prunned : State τ PrunnedCell DataCell View).Inv cells prunned where
  dataCell _ h := nomatch h
  prunnedCell _ h := (Option.some.inj h).symm
  isSome _ := rfl
  knows _ := trivial
  answers _ h := nomatch h
  unloaded := by simp [init, Pc.counts]
  counts_le := by simp [init, Pc.counts]

theorem run_inv (hrun : Steps.run (step cells) (init prunned) acts = some s) :
    s.Inv cells prunned :=
  Steps.run_invariant (fun _ _ _ h hstep => (step_moves h hstep).inv h) hrun (inv_init cells prunned)

/-- Two threads load the cell, and one of them is too late with what it has
brought. A third one looks at the cell in between. -/
def twice : List (Fin 3 × Act Nat) :=
  [(0, .load), (0, .step), (0, .step), (1, .load), (1, .step), (1, .step), (0, .loaded (some 17)),
    (1, .loaded (some 27)), (2, .view), (2, .step), (0, .step), (0, .step), (1, .step), (1, .step),
    (2, .step)]

/-- Cells that are told apart by a digit. -/
def digits : Cells Nat Nat Nat where
  viewPrunned prunned := prunned % 10
  viewData data := data % 10
  checkEqualsUnloaded prunned data := prunned % 10 == data % 10
  view_eq _ _ hcheck := (beq_iff_eq.mp hcheck).symm

theorem run_twice :
    ∃ s : State (Fin 3) Nat Nat Nat, Steps.run (step digits) (init 7) twice = some s ∧
      s.answers = [(1, .loaded 17)] ∧ s.pc 0 = .counting ∧ s.pc 2 = .viewAgain := by
  refine ⟨_, rfl, ?_⟩
  decide

/-- **Whatever is going on, the cell looks the same**, and all who load it get the
same cell. It is counted as unloaded once at most, and never less than not at
all. -/
theorem answers_of_run (hrun : Steps.run (step cells) (init prunned) acts = some s) :
    (∀ t view, (t, .view view) ∈ s.answers → view = cells.viewPrunned prunned) ∧
      (∀ t data, (t, .loaded data) ∈ s.answers →
        s.dataCell = some data ∧ cells.viewData data = cells.viewPrunned prunned) ∧
      0 ≤ s.unloaded ∧ s.unloaded ≤ 1 := by
  have h := run_inv hrun
  refine ⟨fun t view hview => h.answers _ hview, ?_, ?_⟩
  · intro t data hdata
    have hloaded : s.dataCell = some data := h.answers _ hdata
    exact ⟨hloaded, h.dataCell data hloaded⟩
  · have hunloaded := h.unloaded
    have hle := h.counts_le
    have hnonneg : 0 ≤ ∑ t, (s.pc t).counts := Finset.sum_nonneg fun t _ => (s.pc t).counts_mem.1
    split at hunloaded
    · rename_i hnone
      rw [h.counts_eq_zero hnone] at hunloaded
      omega
    · omega

theorem answers_of_twice :
    ∃ s : State (Fin 3) Nat Nat Nat, Steps.run (step digits) (init 7) twice = some s ∧
      s.dataCell = some 17 := by
  rcases run_twice with ⟨s, hrun, hanswers, -⟩
  exact ⟨s, hrun, ((answers_of_run hrun).2.1 1 17 (by simp [hanswers])).1⟩

end State

end TonEncoder.ExtCell
