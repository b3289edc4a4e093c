import TonEncoder.Codec.Steps

/-! # References that threads share

`AtomicRefLockfree` holds a reference to a counted object, and threads load and
replace it without locks. To take a reference a thread has to read the pointer
and count itself, which are two loads of two words; in between the object could
go. So the pointer comes with a stock of references that were counted
beforehand, in one word with it, and `load` takes one of these.

* `State.step` has the accesses to memory, one by one, for any number of threads.
* `Counted` is the account of an object: its counter, which has 32 bits, is the number
  of references that there are to it, wherever they are. It is kept while there are
  fewer than 2 ^ 32 (`run_counted`).
* `Inv` is what holds without that: what is in the words, and the operations in the
  order in which they took effect.
-/

namespace TonEncoder.AtomicRef

variable {Obj τ : Type} [DecidableEq Obj] [DecidableEq τ]

/-! ## Words -/

/-- `Ptr`: a pointer, and how many references are in stock. -/
structure Ptr (Obj : Type) where
  ptr : Option Obj
  refCnt : Nat
deriving DecidableEq, Repr

namespace Ptr

def null : Ptr Obj := ⟨none, 0⟩

/-- The references to an object that a word stands for: the stock and one more. -/
def owns (p : Ptr Obj) (obj : Obj) : Nat := if p.ptr = some obj then p.refCnt + 1 else 0

/-- The words that are stored. -/
structure Ok (p : Ptr Obj) : Prop where
  null : p.ptr = none → p.refCnt = 0
  /-- far from the 16 bits there are for it -/
  lt : p.refCnt < 150

@[simp] theorem owns_null (obj : Obj) : (null : Ptr Obj).owns obj = 0 := by
  simp [null, owns]

theorem owns_none (refCnt : Nat) (obj : Obj) : (⟨none, refCnt⟩ : Ptr Obj).owns obj = 0 := rfl

theorem owns_some (obj : Obj) (refCnt : Nat) :
    (⟨some obj, refCnt⟩ : Ptr Obj).owns obj = refCnt + 1 := if_pos rfl

theorem owns_of_ne {obj other : Obj} (h : other ≠ obj) (refCnt : Nat) :
    (⟨some obj, refCnt⟩ : Ptr Obj).owns other = 0 := if_neg (by simpa using h.symm)

omit [DecidableEq Obj] in
theorem ok_null : (null : Ptr Obj).Ok := ⟨fun _ => rfl, Nat.succ_pos _⟩

end Ptr

/-- `BATCH_SIZE` -/
def batchSize : Nat := 100

/-! ## The register -/

/-- The operations with their results. -/
inductive Op (Obj : Type) where
  | getUnsafe (result : Option Obj)
  | load (result : Option Obj)
  | extract (result : Option Obj)
  | storeIfEmpty (desired : Obj) (result : Bool)
  | store (ref : Option Obj)
deriving DecidableEq, Repr

/-- What an `AtomicRef` is meant to be: a register that has a reference or none. -/
def Register.step (value : Option Obj) : Op Obj → Option (Option Obj)
  | .getUnsafe result | .load result => if result = value then some value else none
  | .extract result => if result = value then some none else none
  | .storeIfEmpty desired true => if value = none then some (some desired) else none
  | .storeIfEmpty _ false => if value = none then none else some value
  | .store ref => some ref

/-! ## Threads -/

/-- The next access of a thread. The arguments are its local variables. -/
inductive Pc (Obj : Type) where
  | idle
  | load
  | loadCas (obj : Obj) (refCnt : Nat)
  | tryReserve (obj : Obj)
  | reserve (obj : Obj)
  | reserveCas (obj : Obj) (refCnt : Nat)
  | reserveRelease (obj : Obj)
  | extract
  | extractRelease (obj : Obj) (refCnt : Nat)
  | storeIfEmpty (desired : Obj)
  | storeIfEmptyCas (desired : Obj) (refCnt : Nat)
  | storeIfEmptyRelease (desired : Obj)
  | storeAcquire (obj : Obj)
  | store (new : Ptr Obj)
  | storeCas (new seen : Ptr Obj)
  | storeRelease (ref : Option Obj) (obj : Obj) (refCnt : Nat)
deriving DecidableEq, Repr

namespace Pc

/-- The references that a thread has counted and has not given away. -/
def owned : Pc Obj → Ptr Obj
  | tryReserve obj => ⟨some obj, 0⟩
  | reserve obj | reserveCas obj _ | reserveRelease obj => ⟨some obj, batchSize⟩
  | extractRelease obj refCnt => ⟨some obj, refCnt⟩
  | storeIfEmpty desired | storeIfEmptyCas desired _ | storeIfEmptyRelease desired =>
      ⟨some desired, batchSize⟩
  | storeAcquire obj => ⟨some obj, 0⟩
  | store new | storeCas new _ => new
  | storeRelease _ obj refCnt => ⟨some obj, refCnt⟩
  | _ => .null

omit [DecidableEq Obj] in
theorem owned_idle : (idle : Pc Obj).owned = .null := rfl

/-- An operation that has taken effect and not returned. -/
def pending : Pc Obj → List (Op Obj)
  | tryReserve obj | reserve obj | reserveCas obj _ | reserveRelease obj => [.load (some obj)]
  | extractRelease obj _ => [.extract (some obj)]
  | storeIfEmptyRelease desired => [.storeIfEmpty desired false]
  | storeRelease ref _ _ => [.store ref]
  | _ => []

/-- What a thread knows of its local variables. -/
def Ok : Pc Obj → Prop
  | loadCas _ refCnt => 0 < refCnt
  | reserveCas _ refCnt => refCnt < batchSize / 2
  | store new | storeCas new _ => new.Ok
  | _ => True

end Pc

/-! ## The state -/

/-- The memory, the number of `Ref`s outside, and where the threads are. The counter
`cnt_` of an object wraps around. The last two fields keep a record: of the operations
as they took effect, and as they returned. -/
structure State (τ Obj : Type) where
  ptr : Ptr Obj
  cnt : Obj → BitVec 32
  alive : Obj → Bool
  refs : Obj → Nat
  pc : τ → Pc Obj
  log : List (τ × Op Obj)
  returns : List (τ × Op Obj)

/-- What can happen next. -/
inductive Act (Obj : Type) where
  /-- an object is made, at an address that is free -/
  | create (obj : Obj)
  /-- a `Ref` is copied -/
  | copy (obj : Obj)
  /-- a `Ref` is destroyed -/
  | drop (obj : Obj)
  /-- the pointer is loaded and nothing is counted -/
  | getUnsafe
  | load
  | extract
  | storeIfEmpty (desired : Obj)
  | store (ref : Option Obj)
  /-- the next access of an operation, where a `compare_exchange_weak` may fail for
  no reason -/
  | step (fails : Bool)
deriving DecidableEq, Repr

namespace State

/-- Before anything has been made. -/
def init (τ Obj : Type) : State τ Obj :=
  ⟨.null, fun _ => 0, fun _ => false, fun _ => 0, fun _ => .idle, [], []⟩

def goto (s : State τ Obj) (t : τ) (pc : Pc Obj) : State τ Obj :=
  { s with pc := Function.update s.pc t pc }

/-- An operation takes effect. -/
def commit (s : State τ Obj) (t : τ) (op : Op Obj) (ptr : Ptr Obj) : State τ Obj :=
  { s with ptr, log := s.log ++ [(t, op)] }

/-- An operation returns. -/
def ret (s : State τ Obj) (t : τ) (op : Op Obj) : State τ Obj :=
  { s with pc := Function.update s.pc t .idle, returns := s.returns ++ [(t, op)] }

/-- A `Ref` more. -/
def addRef (s : State τ Obj) (obj : Obj) : State τ Obj :=
  { s with refs := Function.update s.refs obj (s.refs obj + 1) }

/-- `acquire_shared`, of an object that is alive. -/
def acquireShared (s : State τ Obj) (obj : Obj) (cnt : Nat) : Option (State τ Obj) :=
  if s.alive obj then
    some { s with cnt := Function.update s.cnt obj (s.cnt obj + BitVec.ofNat 32 cnt) }
  else none

/-- `release_shared`, of an object that is alive. It goes when the counter was `cnt`. -/
def releaseShared (s : State τ Obj) (obj : Obj) (cnt : Nat) : Option (State τ Obj) :=
  if s.alive obj then
    some { s with
      cnt := Function.update s.cnt obj (s.cnt obj - BitVec.ofNat 32 cnt)
      alive := Function.update s.alive obj (s.cnt obj != BitVec.ofNat 32 cnt) }
  else none

/-- The loop of `load`, after `ptr_` has been loaded. -/
def loadTest (s : State τ Obj) (t : τ) : State τ Obj :=
  match s.ptr.ptr with
  | none => (s.commit t (.load none) s.ptr).ret t (.load none)
  | some obj => if s.ptr.refCnt = 0 then s.goto t .load else s.goto t (.loadCas obj s.ptr.refCnt)

/-- The loop of `try_reserve`, after `ptr_` has been loaded. -/
def reserveTest (s : State τ Obj) (t : τ) (obj : Obj) : State τ Obj :=
  if s.ptr.ptr = some obj ∧ s.ptr.refCnt < batchSize / 2 then
    s.goto t (.reserveCas obj s.ptr.refCnt)
  else
    s.goto t (.reserveRelease obj)

/-- The loop of `store_if_empty`, after `ptr_` has been loaded. -/
def storeIfEmptyTest (s : State τ Obj) (t : τ) (desired : Obj) : State τ Obj :=
  match s.ptr.ptr with
  | none => s.goto t (.storeIfEmptyCas desired s.ptr.refCnt)
  | some _ => (s.commit t (.storeIfEmpty desired false) s.ptr).goto t (.storeIfEmptyRelease desired)

/-- The next access of a thread, and what it does until the one after it. -/
def access (s : State τ Obj) (t : τ) (fails : Bool) : Option (State τ Obj) :=
  match s.pc t with
  | .idle => none
  | .load => some (s.loadTest t)
  | .loadCas obj refCnt =>
      if s.ptr = ⟨some obj, refCnt⟩ ∧ fails = false then
        let s := s.commit t (.load (some obj)) ⟨some obj, refCnt - 1⟩
        if refCnt - 1 < batchSize / 2 then some (s.goto t (.tryReserve obj))
        else some ((s.ret t (.load (some obj))).addRef obj)
      else
        some (s.loadTest t)
  | .tryReserve obj => (s.acquireShared obj batchSize).map fun s => s.goto t (.reserve obj)
  | .reserve obj => some (s.reserveTest t obj)
  | .reserveCas obj refCnt =>
      if s.ptr = ⟨some obj, refCnt⟩ ∧ fails = false then
        some (({ s with ptr := ⟨some obj, refCnt + batchSize⟩ }.ret t (.load (some obj))).addRef obj)
      else
        some (s.reserveTest t obj)
  | .reserveRelease obj =>
      (s.releaseShared obj batchSize).map fun s => (s.ret t (.load (some obj))).addRef obj
  | .extract =>
      let s' := s.commit t (.extract s.ptr.ptr) .null
      match s.ptr.ptr with
      | none => some (s'.ret t (.extract none))
      | some obj =>
          if s.ptr.refCnt ≠ 0 then some (s'.goto t (.extractRelease obj s.ptr.refCnt))
          else some ((s'.ret t (.extract (some obj))).addRef obj)
  | .extractRelease obj refCnt =>
      (s.releaseShared obj refCnt).map fun s => (s.ret t (.extract (some obj))).addRef obj
  | .storeIfEmpty desired => some (s.storeIfEmptyTest t desired)
  | .storeIfEmptyCas desired refCnt =>
      if s.ptr = ⟨none, refCnt⟩ ∧ fails = false then
        some ((s.commit t (.storeIfEmpty desired true) ⟨some desired, batchSize⟩).ret t
          (.storeIfEmpty desired true))
      else
        some (s.storeIfEmptyTest t desired)
  | .storeIfEmptyRelease desired =>
      (s.releaseShared desired (batchSize + 1)).map fun s => s.ret t (.storeIfEmpty desired false)
  | .storeAcquire obj =>
      (s.acquireShared obj batchSize).map fun s => s.goto t (.store ⟨some obj, batchSize⟩)
  | .store new => some (s.goto t (.storeCas new s.ptr))
  | .storeCas new seen =>
      if s.ptr = seen ∧ fails = false then
        let s' := s.commit t (.store new.ptr) new
        match seen.ptr with
        | none => some (s'.ret t (.store new.ptr))
        | some obj => some (s'.goto t (.storeRelease new.ptr obj seen.refCnt))
      else
        some (s.goto t (.storeCas new s.ptr))
  | .storeRelease ref obj refCnt =>
      (s.releaseShared obj (refCnt + 1)).map fun s => s.ret t (.store ref)

def step (s : State τ Obj) : τ × Act Obj → Option (State τ Obj)
  | (_, .create obj) =>
      if s.alive obj = false then
        some ({ s with
          cnt := Function.update s.cnt obj 1
          alive := Function.update s.alive obj true }.addRef obj)
      else
        none
  | (_, .copy obj) =>
      if 0 < s.refs obj then (s.acquireShared obj 1).map fun s => s.addRef obj else none
  | (_, .drop obj) =>
      if 0 < s.refs obj then
        { s with refs := Function.update s.refs obj (s.refs obj - 1) }.releaseShared obj 1
      else
        none
  | (t, .getUnsafe) =>
      if s.pc t = .idle then
        some ((s.commit t (.getUnsafe s.ptr.ptr) s.ptr).ret t (.getUnsafe s.ptr.ptr))
      else
        none
  | (t, .load) => if s.pc t = .idle then some (s.goto t .load) else none
  | (t, .extract) => if s.pc t = .idle then some (s.goto t .extract) else none
  | (t, .storeIfEmpty desired) =>
      if s.pc t = .idle ∧ 0 < s.refs desired then
        (s.acquireShared desired (batchSize + 1)).map fun s => s.goto t (.storeIfEmpty desired)
      else
        none
  | (t, .store none) => if s.pc t = .idle then some (s.goto t (.store .null)) else none
  | (t, .store (some obj)) =>
      if s.pc t = .idle ∧ 0 < s.refs obj then
        some ({ s with refs := Function.update s.refs obj (s.refs obj - 1) }.goto t
          (.storeAcquire obj))
      else
        none
  | (t, .step fails) => s.access t fails

/-! ## The account -/

/-- The references to an object: the `Ref`s, those that the word stands for, and what
the threads have. -/
def references [Fintype τ] (s : State τ Obj) (obj : Obj) : Nat :=
  s.refs obj + s.ptr.owns obj + ∑ t, (s.pc t).owned.owns obj

/-- The account of the objects. -/
structure Counted [Fintype τ] (s : State τ Obj) : Prop where
  cnt : ∀ obj, s.cnt obj = BitVec.ofNat 32 (s.references obj)
  alive : ∀ obj, s.alive obj = true ↔ 0 < s.references obj

/-- What the words are, and that the operations are those of a register. -/
structure Inv (s : State τ Obj) : Prop where
  ptr : s.ptr.Ok
  pc : ∀ t, (s.pc t).Ok
  log : Steps.run Register.step none (s.log.map Prod.snd) = some s.ptr.ptr
  returns : ∀ t, s.log.filter (·.1 = t) =
    s.returns.filter (·.1 = t) ++ (s.pc t).pending.map (t, ·)

/-- The references within reach of a thread that is at `pc`. -/
def near (s : State τ Obj) (pc : Pc Obj) (obj : Obj) : Nat :=
  s.refs obj + s.ptr.owns obj + pc.owned.owns obj

/-- What becomes of the counters, where the references within reach were `before` and
are `after`. -/
inductive Counts (s s' : State τ Obj) (before after : Obj → Nat) : Prop where
  | same (hcnt : s'.cnt = s.cnt) (halive : s'.alive = s.alive)
      (hafter : ∀ obj, after obj = before obj)
  | create (obj : Obj) (hfree : s.alive obj = false) (hcnt : s'.cnt = Function.update s.cnt obj 1)
      (halive : s'.alive = Function.update s.alive obj true)
      (hafter : ∀ other, after other = before other + if other = obj then 1 else 0)
  | acquire (obj : Obj) (cnt : Nat) (hsmall : cnt ≤ batchSize + 1) (hobj : s.alive obj = true)
      (hcnt : s'.cnt = Function.update s.cnt obj (s.cnt obj + BitVec.ofNat 32 cnt))
      (halive : s'.alive = s.alive)
      (hafter : ∀ other, after other = before other + if other = obj then cnt else 0)
  | release (obj : Obj) (cnt : Nat) (hobj : s.alive obj = true)
      (hcnt : s'.cnt = Function.update s.cnt obj (s.cnt obj - BitVec.ofNat 32 cnt))
      (halive : s'.alive = Function.update s.alive obj (s.cnt obj != BitVec.ofNat 32 cnt))
      (hbefore : ∀ other, before other = after other + if other = obj then cnt else 0)

/-- What an access of a thread does: what it takes from one place it puts into
another or gives back, and what takes effect is legal and returns later. -/
structure Moves (s : State τ Obj) (t : τ) (s' : State τ Obj) : Prop where
  others : ∀ j ≠ t, s'.pc j = s.pc j
  counts : s.Counts s' (s.near (s.pc t)) (s'.near (s'.pc t))
  ptr : s'.ptr.Ok
  pc : (s'.pc t).Ok
  ops : ∃ ops rets, s'.log = s.log ++ ops.map (t, ·) ∧ s'.returns = s.returns ++ rets.map (t, ·) ∧
    Steps.run Register.step s.ptr.ptr ops = some s'.ptr.ptr ∧
    (s.pc t).pending ++ ops = rets ++ (s'.pc t).pending

variable {s s' : State τ Obj} {t : τ}

omit [DecidableEq Obj] in
theorem filter_map_self (t : τ) (ops : List (Op Obj)) :
    (ops.map (t, ·)).filter (·.1 = t) = ops.map (t, ·) := by
  rw [List.filter_eq_self]
  intro op hop
  rcases List.mem_map.mp hop with ⟨op, -, rfl⟩
  exact decide_eq_true rfl

omit [DecidableEq Obj] in
theorem filter_map_of_ne {j : τ} (hj : j ≠ t) (ops : List (Op Obj)) :
    (ops.map (t, ·)).filter (·.1 = j) = [] := by
  rw [List.filter_eq_nil_iff]
  intro op hop
  rcases List.mem_map.mp hop with ⟨op, -, rfl⟩
  simpa using hj.symm

theorem Moves.inv (hmoves : s.Moves t s') (h : s.Inv) : s'.Inv := by
  rcases hmoves.ops with ⟨ops, rets, hlog, hreturns, hrun, hpending⟩
  constructor
  case ptr => exact hmoves.ptr
  case pc =>
      intro j
      by_cases hj : j = t
      · rw [hj]
        exact hmoves.pc
      · rw [hmoves.others j hj]
        exact h.pc j
  case log =>
      rw [hlog, List.map_append, Steps.run_append_eq_some_iff]
      refine ⟨s.ptr.ptr, h.log, ?_⟩
      rw [List.map_map]
      exact (congrArg _ (List.map_id _)).trans hrun
  case returns =>
      intro j
      have hreturned := h.returns j
      rw [hlog, hreturns, List.filter_append, List.filter_append, hreturned]
      by_cases hj : j = t
      · subst hj
        rw [filter_map_self, filter_map_self, List.append_assoc, List.append_assoc, ← List.map_append,
          ← List.map_append, hpending]
      · rw [filter_map_of_ne hj, filter_map_of_ne hj, hmoves.others j hj, List.append_nil,
          List.append_nil]

/-! ### The counters -/

section Counters

omit [DecidableEq τ]

/-- What a thread has is not all that there is. -/
theorem near_le_references [Fintype τ] (s : State τ Obj) (t : τ) (obj : Obj) :
    s.near (s.pc t) obj ≤ s.references obj := by
  have hsingle := Finset.single_le_sum (f := fun j => (s.pc j).owned.owns obj)
    (fun j _ => Nat.zero_le _) (Finset.mem_univ t)
  unfold near references
  omega

/-- At most one batch and a `Ref` are made at once. -/
theorem Counts.le {before after : Obj → Nat} (h : s.Counts s' before after) (obj : Obj) :
    after obj ≤ before obj + (batchSize + 1) := by
  cases h with
  | same _ _ hafter =>
      rw [hafter]
      omega
  | create _ _ _ _ hafter =>
      rw [hafter]
      split <;> omega
  | acquire _ _ hsmall _ _ _ hafter =>
      rw [hafter]
      split <;> omega
  | release _ _ _ _ _ hbefore =>
      rw [hbefore]
      omega

/-- The counter and the life of an object that has `n` references. -/
def CountedAt (s : State τ Obj) (obj : Obj) (n : Nat) : Prop :=
  s.cnt obj = BitVec.ofNat 32 n ∧ (s.alive obj = true ↔ 0 < n)

/-- **The account is kept**, up to the references out of reach, unless the counter has
wrapped around. -/
theorem Counts.countedAt {before after : Obj → Nat} (h : s.Counts s' before after) {obj : Obj}
    {rest : Nat} (hlt : rest + before obj < 2 ^ 32) (hcounted : s.CountedAt obj (rest + before obj)) :
    s'.CountedAt obj (rest + after obj) := by
  rcases hcounted with ⟨hcnt, halive⟩
  cases h with
  | same hcnt' halive' hafter =>
      rw [CountedAt, hcnt', halive', hafter]
      exact ⟨hcnt, halive⟩
  | create made hfree hcnt' halive' hafter =>
      rw [CountedAt, hcnt', halive', hafter]
      by_cases hobj : obj = made
      · -- there was no reference to an object that was not there
        subst hobj
        have hzero : rest + before obj = 0 := by simpa [hfree] using halive
        have hone : rest + (before obj + if obj = obj then 1 else 0) = 1 := by
          rw [if_pos rfl]
          omega
        rw [Function.update_self, Function.update_self, hone]
        exact ⟨rfl, by simp⟩
      · rw [Function.update_of_ne hobj, Function.update_of_ne hobj, if_neg hobj]
        exact ⟨hcnt, halive⟩
  | acquire held cnt _ hheld hcnt' halive' hafter =>
      rw [CountedAt, hcnt', halive', hafter]
      by_cases hobj : obj = held
      · subst hobj
        rw [Function.update_self, hcnt, if_pos rfl, ← Nat.add_assoc, ← BitVec.ofNat_add]
        refine ⟨rfl, ?_⟩
        have hpos := halive.mp hheld
        simp only [hheld, true_iff]
        omega
      · rw [Function.update_of_ne hobj, if_neg hobj]
        exact ⟨hcnt, halive⟩
  | release held cnt hheld hcnt' halive' hbefore =>
      rw [hbefore] at hlt hcnt halive
      rw [CountedAt, hcnt', halive']
      by_cases hobj : obj = held
      · subst hobj
        rw [if_pos rfl, ← Nat.add_assoc] at hlt hcnt halive
        have hlast : s.cnt obj = BitVec.ofNat 32 cnt ↔ rest + after obj = 0 := by
          rw [hcnt, ← BitVec.toNat_inj, BitVec.toNat_ofNat, BitVec.toNat_ofNat,
            Nat.mod_eq_of_lt hlt, Nat.mod_eq_of_lt (by omega)]
          omega
        rw [Function.update_self, Function.update_self]
        constructor
        · rw [hcnt, BitVec.ofNat_add, BitVec.add_sub_cancel]
        · rw [bne_iff_ne, ne_eq, hlast]
          omega
      · rw [if_neg hobj, Nat.add_zero] at hcnt halive
        rw [Function.update_of_ne hobj, Function.update_of_ne hobj]
        exact ⟨hcnt, halive⟩

end Counters

/-- The references out of reach of a thread stay where they are. -/
theorem Moves.references [Fintype τ] (hmoves : s.Moves t s') (obj : Obj) :
    ∃ rest, s.references obj = rest + s.near (s.pc t) obj ∧
      s'.references obj = rest + s'.near (s'.pc t) obj := by
  have hsum := Steps.sum_add_eq (f := fun j => (s.pc j).owned.owns obj)
    (g := fun j => (s'.pc j).owned.owns obj) (i := t) (fun j hj => by rw [hmoves.others j hj])
  have hle := near_le_references s t obj
  refine ⟨s.references obj - s.near (s.pc t) obj, ?_, ?_⟩
  · omega
  · unfold State.references near at *
    omega

theorem Moves.counted [Fintype τ] (hmoves : s.Moves t s') (hlt : ∀ obj, s.references obj < 2 ^ 32)
    (h : s.Counted) : s'.Counted := by
  have hall : ∀ obj, s'.CountedAt obj (s'.references obj) := by
    intro obj
    have hcounted : s.CountedAt obj (s.references obj) := ⟨h.cnt obj, h.alive obj⟩
    have hobj := hlt obj
    rcases hmoves.references obj with ⟨rest, hbefore, hafter⟩
    rw [hbefore] at hcounted hobj
    rw [hafter]
    exact hmoves.counts.countedAt hobj hcounted
  exact ⟨fun obj => (hall obj).1, fun obj => (hall obj).2⟩

/-! ### The accesses -/

/-- An access that leads to `pc`, with `ops` taking effect and `rets` returning. -/
theorem moves_of {pc : Pc Obj} (ops rets : List (Op Obj)) (hpc : s'.pc = Function.update s.pc t pc)
    (hptr : s'.ptr.Ok) (hok : pc.Ok) (hlog : s'.log = s.log ++ ops.map (t, ·))
    (hreturns : s'.returns = s.returns ++ rets.map (t, ·))
    (hrun : Steps.run Register.step s.ptr.ptr ops = some s'.ptr.ptr)
    (hpending : (s.pc t).pending ++ ops = rets ++ pc.pending)
    (hcounts : s.Counts s' (s.near (s.pc t)) (s'.near pc)) : s.Moves t s' := by
  have hat : s'.pc t = pc := by rw [hpc, Function.update_self]
  constructor
  case others =>
      intro j hj
      rw [hpc, Function.update_of_ne hj]
  case counts => rwa [hat]
  case ptr => exact hptr
  case pc => rwa [hat]
  case ops => exact ⟨ops, rets, hlog, hreturns, hrun, by rw [hat, hpending]⟩

/-- A thread goes on with what it has. -/
theorem goto_moves {pc : Pc Obj} (hptr : s.ptr.Ok) (hok : pc.Ok)
    (howned : pc.owned = (s.pc t).owned)
    (hpending : pc.pending = (s.pc t).pending) : s.Moves t (s.goto t pc) := by
  refine moves_of [] [] rfl hptr hok ?_ ?_ rfl ?_ ?_
  · exact (List.append_nil _).symm
  · exact (List.append_nil _).symm
  · rw [hpending, List.append_nil, List.nil_append]
  · refine .same rfl rfl ?_
    intro obj
    rw [near, howned]
    rfl

theorem loadTest_moves (hptr : s.ptr.Ok) (howned : (s.pc t).owned = .null)
    (hpending : (s.pc t).pending = []) : s.Moves t (s.loadTest t) := by
  unfold loadTest
  split
  · rename_i hnull
    refine moves_of [.load none] [.load none] rfl hptr trivial rfl rfl ?_ ?_ ?_
    · simp [hnull, Steps.run, Register.step, commit, ret]
    · rw [hpending]
      rfl
    · refine .same rfl rfl ?_
      intro obj
      rw [near, near, howned]
      rfl
  · rename_i obj hobj
    split
    · exact goto_moves hptr trivial howned.symm hpending.symm
    · rename_i hstock
      exact goto_moves hptr (Nat.pos_of_ne_zero hstock) howned.symm hpending.symm

theorem reserveTest_moves {obj : Obj} (hptr : s.ptr.Ok)
    (howned : (s.pc t).owned = ⟨some obj, batchSize⟩)
    (hpending : (s.pc t).pending = [.load (some obj)]) : s.Moves t (s.reserveTest t obj) := by
  unfold reserveTest
  split
  · rename_i htest
    exact goto_moves hptr htest.2 howned.symm hpending.symm
  · exact goto_moves hptr trivial howned.symm hpending.symm

theorem storeIfEmptyTest_moves {desired : Obj} (hptr : s.ptr.Ok)
    (howned : (s.pc t).owned = ⟨some desired, batchSize⟩) (hpending : (s.pc t).pending = []) :
    s.Moves t (s.storeIfEmptyTest t desired) := by
  unfold storeIfEmptyTest
  split
  · exact goto_moves hptr trivial howned.symm hpending.symm
  · rename_i obj hobj
    refine moves_of [.storeIfEmpty desired false] [] rfl hptr trivial rfl ?_ ?_ ?_ ?_
    · exact (List.append_nil _).symm
    · simp [hobj, Steps.run, Register.step, commit, goto]
    · rw [hpending]
      rfl
    · refine .same rfl rfl ?_
      intro obj
      rw [near, near, howned]
      rfl

omit [DecidableEq τ] in
theorem acquireShared_eq {obj : Obj} {cnt : Nat} (h : s.acquireShared obj cnt = some s') :
    s.alive obj = true ∧
      s' = { s with cnt := Function.update s.cnt obj (s.cnt obj + BitVec.ofNat 32 cnt) } := by
  rcases Option.ite_none_right_eq_some.mp h with ⟨halive, hs⟩
  exact ⟨halive, (Option.some.inj hs).symm⟩

omit [DecidableEq τ] in
theorem releaseShared_eq {obj : Obj} {cnt : Nat} (h : s.releaseShared obj cnt = some s') :
    s.alive obj = true ∧
      s' = { s with
        cnt := Function.update s.cnt obj (s.cnt obj - BitVec.ofNat 32 cnt)
        alive := Function.update s.alive obj (s.cnt obj != BitVec.ofNat 32 cnt) } := by
  rcases Option.ite_none_right_eq_some.mp h with ⟨halive, hs⟩
  exact ⟨halive, (Option.some.inj hs).symm⟩

/-- A thread that has one reference counts a batch. -/
theorem acquire_moves {obj : Obj} {pc : Pc Obj} (hptr : s.ptr.Ok) (hok : pc.Ok)
    (howned : (s.pc t).owned = ⟨some obj, 0⟩) (howned' : pc.owned = ⟨some obj, batchSize⟩)
    (hpending : pc.pending = (s.pc t).pending)
    (hstep : (s.acquireShared obj batchSize).map (fun s => s.goto t pc) = some s') :
    s.Moves t s' := by
  rcases Option.map_eq_some_iff.mp hstep with ⟨middle, hacquire, rfl⟩
  rcases acquireShared_eq hacquire with ⟨halive, rfl⟩
  refine moves_of [] [] rfl hptr hok (List.append_nil _).symm (List.append_nil _).symm rfl ?_ ?_
  · rw [hpending, List.append_nil, List.nil_append]
  · refine .acquire obj batchSize (Nat.le_succ _) halive rfl rfl ?_
    intro other
    by_cases hother : other = obj
    · subst hother
      simp only [near, goto, howned, howned', Ptr.owns_some, if_true]
      omega
    · simp only [near, goto, howned, howned', Ptr.owns_of_ne hother, if_neg hother]

/-- A thread gives back what it has, but for a `Ref` that it returns. -/
theorem release_addRef_moves {obj : Obj} {refCnt : Nat} {op : Op Obj} (hptr : s.ptr.Ok)
    (howned : (s.pc t).owned = ⟨some obj, refCnt⟩) (hpending : (s.pc t).pending = [op])
    (hstep : (s.releaseShared obj refCnt).map (fun s => (s.ret t op).addRef obj) = some s') :
    s.Moves t s' := by
  rcases Option.map_eq_some_iff.mp hstep with ⟨middle, hrelease, rfl⟩
  rcases releaseShared_eq hrelease with ⟨halive, rfl⟩
  refine moves_of [] [op] rfl hptr trivial (List.append_nil _).symm rfl rfl ?_ ?_
  · rw [hpending]
    rfl
  · refine .release obj refCnt halive rfl rfl ?_
    intro other
    by_cases hother : other = obj
    · subst hother
      simp only [near, ret, addRef, howned, Pc.owned_idle, Ptr.owns_some, Ptr.owns_null,
        Function.update_self, if_true]
      omega
    · simp only [near, ret, addRef, howned, Pc.owned_idle, Ptr.owns_of_ne hother, Ptr.owns_null,
        Function.update_of_ne hother, if_neg hother]

/-- A thread gives back all that it has. -/
theorem release_moves {obj : Obj} {refCnt : Nat} {op : Op Obj} (hptr : s.ptr.Ok)
    (howned : (s.pc t).owned = ⟨some obj, refCnt⟩) (hpending : (s.pc t).pending = [op])
    (hstep : (s.releaseShared obj (refCnt + 1)).map (fun s => s.ret t op) = some s') :
    s.Moves t s' := by
  rcases Option.map_eq_some_iff.mp hstep with ⟨middle, hrelease, rfl⟩
  rcases releaseShared_eq hrelease with ⟨halive, rfl⟩
  refine moves_of [] [op] rfl hptr trivial (List.append_nil _).symm rfl rfl ?_ ?_
  · rw [hpending]
    rfl
  · refine .release obj (refCnt + 1) halive rfl rfl ?_
    intro other
    by_cases hother : other = obj
    · subst hother
      simp only [near, ret, howned, Pc.owned_idle, Ptr.owns_some, Ptr.owns_null, if_true]
      omega
    · simp only [near, ret, howned, Pc.owned_idle, Ptr.owns_of_ne hother, Ptr.owns_null,
        if_neg hother]

/-- A `compare_exchange` of `load` takes one from the stock. -/
theorem loadCas_moves {obj : Obj} {refCnt : Nat} {fails : Bool} (hptr : s.ptr.Ok)
    (hok : (s.pc t).Ok) (hpc : s.pc t = .loadCas obj refCnt) (hstep : s.access t fails = some s') :
    s.Moves t s' := by
  simp only [access, hpc] at hstep
  rw [hpc] at hok
  split at hstep
  · rename_i hcas
    have hstock : 0 < refCnt := hok
    have hlt := hptr.lt
    rw [hcas.1] at hlt
    have hptr' : (⟨some obj, refCnt - 1⟩ : Ptr Obj).Ok :=
      ⟨(fun h => nomatch h), lt_of_le_of_lt (Nat.sub_le _ _) hlt⟩
    have hrun : Steps.run Register.step s.ptr.ptr [.load (some obj)] = some (some obj) := by
      simp [hcas.1, Steps.run, Register.step]
    split at hstep
    · -- the thread keeps what it took, to fill up the stock with it
      cases hstep
      refine moves_of [.load (some obj)] [] rfl hptr' trivial rfl (List.append_nil _).symm hrun ?_ ?_
      · rw [hpc]
        rfl
      · refine .same rfl rfl ?_
        intro other
        by_cases hother : other = obj
        · subst hother
          simp only [near, commit, goto, hpc, Pc.owned, hcas.1, Ptr.owns_some, Ptr.owns_null]
          omega
        · simp only [near, commit, goto, hpc, Pc.owned, hcas.1, Ptr.owns_of_ne hother,
            Ptr.owns_null]
    · cases hstep
      refine moves_of [.load (some obj)] [.load (some obj)] rfl hptr' trivial rfl rfl hrun ?_ ?_
      · rw [hpc]
        rfl
      · refine .same rfl rfl ?_
        intro other
        by_cases hother : other = obj
        · subst hother
          simp only [near, commit, ret, addRef, hpc, Pc.owned, hcas.1, Ptr.owns_some,
            Ptr.owns_null, Function.update_self]
          omega
        · simp only [near, commit, ret, addRef, hpc, Pc.owned, hcas.1, Ptr.owns_of_ne hother,
            Ptr.owns_null, Function.update_of_ne hother]
  · cases hstep
    exact loadTest_moves hptr (by rw [hpc]; rfl) (by rw [hpc]; rfl)

/-- That of `try_reserve` puts a batch into the stock. -/
theorem reserveCas_moves {obj : Obj} {refCnt : Nat} {fails : Bool} (hptr : s.ptr.Ok)
    (hok : (s.pc t).Ok) (hpc : s.pc t = .reserveCas obj refCnt)
    (hstep : s.access t fails = some s') : s.Moves t s' := by
  simp only [access, hpc] at hstep
  rw [hpc] at hok
  split at hstep
  · rename_i hcas
    -- the stock was less than half a batch, so that it stays within its 16 bits
    have hstock : refCnt < 50 := hok
    have hptr' : (⟨some obj, refCnt + batchSize⟩ : Ptr Obj).Ok := by
      refine ⟨(fun h => nomatch h), ?_⟩
      show refCnt + 100 < 150
      omega
    cases hstep
    refine moves_of [] [.load (some obj)] rfl hptr' trivial (List.append_nil _).symm rfl ?_ ?_ ?_
    · rw [hcas.1]
      rfl
    · rw [hpc]
      rfl
    · refine .same rfl rfl ?_
      intro other
      by_cases hother : other = obj
      · subst hother
        simp only [near, ret, addRef, hpc, Pc.owned, hcas.1, Ptr.owns_some, Ptr.owns_null,
          Function.update_self]
        omega
      · simp only [near, ret, addRef, hpc, Pc.owned, hcas.1, Ptr.owns_of_ne hother, Ptr.owns_null,
          Function.update_of_ne hother]
  · cases hstep
    exact reserveTest_moves hptr (by rw [hpc]; rfl) (by rw [hpc]; rfl)

/-- The exchange of `extract` takes all. -/
theorem extract_moves {fails : Bool} (hpc : s.pc t = .extract)
    (hstep : s.access t fails = some s') : s.Moves t s' := by
  simp only [access, hpc] at hstep
  have hrun : Steps.run Register.step s.ptr.ptr [.extract s.ptr.ptr] = some none := by
    simp [Steps.run, Register.step]
  rcases hword : s.ptr with ⟨_ | obj, refCnt⟩
  · simp only [hword, Option.some.injEq] at hstep hrun
    subst hstep
    refine moves_of [.extract none] [.extract none] rfl Ptr.ok_null trivial rfl rfl ?_ ?_ ?_
    · rw [hword]
      exact hrun
    · rw [hpc]
      rfl
    · refine .same rfl rfl ?_
      intro other
      simp only [near, commit, ret, hpc, Pc.owned, hword, Ptr.owns_none, Ptr.owns_null]
  · simp only [hword] at hstep hrun
    split at hstep
    · cases hstep
      refine moves_of [.extract (some obj)] [] rfl Ptr.ok_null trivial rfl (List.append_nil _).symm
        ?_ ?_ ?_
      · rw [hword]
        exact hrun
      · rw [hpc]
        rfl
      · -- the thread has the whole stock until it gives it back
        refine .same rfl rfl ?_
        intro other
        simp only [near, commit, goto, hpc, Pc.owned, hword, Ptr.owns_null]
        omega
    · rename_i hstock
      cases hstep
      refine moves_of [.extract (some obj)] [.extract (some obj)] rfl Ptr.ok_null trivial rfl rfl
        ?_ ?_ ?_
      · rw [hword]
        exact hrun
      · rw [hpc]
        rfl
      · refine .same rfl rfl ?_
        intro other
        have hzero : refCnt = 0 := by simpa using hstock
        by_cases hother : other = obj
        · subst hother
          simp only [near, commit, ret, addRef, hpc, Pc.owned, hword, hzero, Ptr.owns_some,
            Ptr.owns_null, Function.update_self]
        · simp only [near, commit, ret, addRef, hpc, Pc.owned, hword, Ptr.owns_of_ne hother,
            Ptr.owns_null, Function.update_of_ne hother]

/-- The `compare_exchange` of `store_if_empty` gives a batch away. -/
theorem storeIfEmptyCas_moves {desired : Obj} {refCnt : Nat} {fails : Bool} (hptr : s.ptr.Ok)
    (hpc : s.pc t = .storeIfEmptyCas desired refCnt) (hstep : s.access t fails = some s') :
    s.Moves t s' := by
  simp only [access, hpc] at hstep
  split at hstep
  · rename_i hcas
    have hptr' : (⟨some desired, batchSize⟩ : Ptr Obj).Ok :=
      ⟨(fun h => nomatch h), (show 100 < 150 by omega)⟩
    have hrun : Steps.run Register.step s.ptr.ptr [.storeIfEmpty desired true] =
        some (some desired) := by
      simp [hcas.1, Steps.run, Register.step]
    cases hstep
    refine moves_of [.storeIfEmpty desired true] [.storeIfEmpty desired true] rfl hptr' trivial rfl
      rfl hrun ?_ ?_
    · rw [hpc]
      rfl
    · refine .same rfl rfl ?_
      intro other
      simp only [near, commit, ret, hpc, Pc.owned, hcas.1, Ptr.owns_none, Ptr.owns_null]
      omega
  · cases hstep
    exact storeIfEmptyTest_moves hptr (by rw [hpc]; rfl) (by rw [hpc]; rfl)

/-- That of `store` gives a reference with its batch away, and has the old one. -/
theorem storeCas_moves {new seen : Ptr Obj} {fails : Bool} (hptr : s.ptr.Ok) (hok : (s.pc t).Ok)
    (hpc : s.pc t = .storeCas new seen) (hstep : s.access t fails = some s') : s.Moves t s' := by
  simp only [access, hpc] at hstep
  rw [hpc] at hok
  have hnew : new.Ok := hok
  split at hstep
  · rename_i hcas
    have hrun : Steps.run Register.step s.ptr.ptr [.store new.ptr] = some new.ptr := rfl
    rcases hseen : seen with ⟨_ | obj, refCnt⟩
    · simp only [hseen, Option.some.injEq] at hstep
      subst hstep
      refine moves_of [.store new.ptr] [.store new.ptr] rfl hnew trivial rfl rfl hrun ?_ ?_
      · rw [hpc]
        rfl
      · refine .same rfl rfl ?_
        intro other
        simp only [near, commit, ret, hpc, Pc.owned, hcas.1, hseen, Ptr.owns_none, Ptr.owns_null]
        omega
    · simp only [hseen, Option.some.injEq] at hstep
      subst hstep
      refine moves_of [.store new.ptr] [] rfl hnew trivial rfl (List.append_nil _).symm hrun ?_ ?_
      · rw [hpc]
        rfl
      · -- the new reference goes into the word and the old one comes out
        refine .same rfl rfl ?_
        intro other
        simp only [near, commit, goto, hpc, Pc.owned, hcas.1, hseen]
        omega
  · cases hstep
    exact goto_moves hptr hnew (by rw [hpc]; rfl) (by rw [hpc]; rfl)

/-- **Every access moves references from one place to another**, and keeps to the
register. -/
theorem access_moves (hptr : s.ptr.Ok) (hok : (s.pc t).Ok) {fails : Bool}
    (hstep : s.access t fails = some s') : s.Moves t s' := by
  cases hpc : s.pc t with
  | loadCas obj refCnt => exact loadCas_moves hptr hok hpc hstep
  | reserveCas obj refCnt => exact reserveCas_moves hptr hok hpc hstep
  | extract => exact extract_moves hpc hstep
  | storeIfEmptyCas desired refCnt => exact storeIfEmptyCas_moves hptr hpc hstep
  | storeCas new seen => exact storeCas_moves hptr hok hpc hstep
  | idle =>
      rw [access, hpc] at hstep
      cases hstep
  | load =>
      rw [access, hpc] at hstep
      cases hstep
      exact loadTest_moves hptr (by rw [hpc]; rfl) (by rw [hpc]; rfl)
  | tryReserve obj =>
      rw [access, hpc] at hstep
      refine acquire_moves hptr ?_ (by rw [hpc]; rfl) ?_ (by rw [hpc]; rfl) hstep
      · trivial
      · rfl
  | reserve obj =>
      rw [access, hpc] at hstep
      cases hstep
      exact reserveTest_moves hptr (by rw [hpc]; rfl) (by rw [hpc]; rfl)
  | reserveRelease obj =>
      rw [access, hpc] at hstep
      exact release_addRef_moves hptr (by rw [hpc]; rfl) (by rw [hpc]; rfl) hstep
  | extractRelease obj refCnt =>
      rw [access, hpc] at hstep
      exact release_addRef_moves hptr (by rw [hpc]; rfl) (by rw [hpc]; rfl) hstep
  | storeIfEmpty desired =>
      rw [access, hpc] at hstep
      cases hstep
      exact storeIfEmptyTest_moves hptr (by rw [hpc]; rfl) (by rw [hpc]; rfl)
  | storeIfEmptyRelease desired =>
      rw [access, hpc] at hstep
      exact release_moves hptr (by rw [hpc]; rfl) (by rw [hpc]; rfl) hstep
  | storeAcquire obj =>
      rw [access, hpc] at hstep
      have hnew : (⟨some obj, batchSize⟩ : Ptr Obj).Ok :=
        ⟨(fun h => nomatch h), (show 100 < 150 by omega)⟩
      refine acquire_moves hptr ?_ (by rw [hpc]; rfl) ?_ (by rw [hpc]; rfl) hstep
      · exact hnew
      · rfl
  | store new =>
      rw [access, hpc] at hstep
      cases hstep
      rw [hpc] at hok
      exact goto_moves hptr hok (by rw [hpc]; rfl) (by rw [hpc]; rfl)
  | storeRelease ref obj refCnt =>
      rw [access, hpc] at hstep
      exact release_moves hptr (by rw [hpc]; rfl) (by rw [hpc]; rfl) hstep

/-! ### The steps -/

/-- A step that leaves all threads where they are. -/
theorem client_moves (hptr : s.ptr.Ok) (hok : (s.pc t).Ok) {cnt : Obj → BitVec 32}
    {alive : Obj → Bool} {refs : Obj → Nat}
    (hcounts : s.Counts { s with cnt, alive, refs } (s.near (s.pc t))
      ({ s with cnt, alive, refs }.near (s.pc t))) : s.Moves t { s with cnt, alive, refs } :=
  moves_of [] [] (Function.update_eq_self t s.pc).symm hptr hok (List.append_nil _).symm
    (List.append_nil _).symm rfl (List.append_nil _) hcounts

omit [DecidableEq τ] in
/-- A `Ref` more. -/
theorem near_addRef (s : State τ Obj) (pc : Pc Obj) (obj other : Obj) :
    (s.addRef obj).near pc other = s.near pc other + if other = obj then 1 else 0 := by
  by_cases hother : other = obj
  · subst hother
    simp only [near, addRef, Function.update_self, if_true]
    omega
  · simp only [near, addRef, Function.update_of_ne hother, if_neg hother]
    rfl

theorem step_moves (hptr : s.ptr.Ok) (hok : (s.pc t).Ok) {act : Act Obj}
    (hstep : s.step (t, act) = some s') : s.Moves t s' := by
  cases act with
  | create obj =>
      rcases Option.ite_none_right_eq_some.mp hstep with ⟨hfree, hs⟩
      cases hs
      exact client_moves hptr hok
        (.create obj hfree rfl rfl (s.near_addRef (s.pc t) obj))
  | copy obj =>
      rcases Option.ite_none_right_eq_some.mp hstep with ⟨-, hs⟩
      rcases Option.map_eq_some_iff.mp hs with ⟨middle, hacquire, rfl⟩
      rcases acquireShared_eq hacquire with ⟨halive, rfl⟩
      exact client_moves hptr hok (.acquire obj 1 (Nat.succ_le_succ (Nat.zero_le _)) halive rfl rfl
        (s.near_addRef (s.pc t) obj))
  | drop obj =>
      rcases Option.ite_none_right_eq_some.mp hstep with ⟨hpos, hs⟩
      rcases releaseShared_eq hs with ⟨halive, rfl⟩
      refine client_moves hptr hok (.release obj 1 halive rfl rfl ?_)
      intro other
      by_cases hother : other = obj
      · subst hother
        simp only [near, Function.update_self, if_true]
        omega
      · simp only [near, Function.update_of_ne hother, if_neg hother]
        rfl
  | getUnsafe =>
      rcases Option.ite_none_right_eq_some.mp hstep with ⟨hidle, hs⟩
      cases hs
      refine moves_of [.getUnsafe s.ptr.ptr] [.getUnsafe s.ptr.ptr] rfl hptr trivial rfl rfl ?_ ?_ ?_
      · simp [Steps.run, Register.step, commit, ret]
      · rw [hidle]
        rfl
      · refine .same rfl rfl ?_
        intro obj
        rw [hidle]
        rfl
  | load =>
      rcases Option.ite_none_right_eq_some.mp hstep with ⟨hidle, hs⟩
      cases hs
      exact goto_moves hptr trivial (by rw [hidle]; rfl) (by rw [hidle]; rfl)
  | extract =>
      rcases Option.ite_none_right_eq_some.mp hstep with ⟨hidle, hs⟩
      cases hs
      exact goto_moves hptr trivial (by rw [hidle]; rfl) (by rw [hidle]; rfl)
  | storeIfEmpty desired =>
      rcases Option.ite_none_right_eq_some.mp hstep with ⟨⟨hidle, -⟩, hs⟩
      rcases Option.map_eq_some_iff.mp hs with ⟨middle, hacquire, rfl⟩
      rcases acquireShared_eq hacquire with ⟨halive, rfl⟩
      refine moves_of [] [] rfl hptr trivial (List.append_nil _).symm (List.append_nil _).symm rfl
        ?_ ?_
      · rw [hidle]
        rfl
      · refine .acquire desired (batchSize + 1) le_rfl halive rfl rfl ?_
        intro other
        by_cases hother : other = desired
        · subst hother
          simp only [near, goto, hidle, Pc.owned, Ptr.owns_some, Ptr.owns_null, if_true]
          omega
        · simp only [near, goto, hidle, Pc.owned, Ptr.owns_of_ne hother, Ptr.owns_null,
            if_neg hother]
  | store ref =>
      cases ref with
      | none =>
          rcases Option.ite_none_right_eq_some.mp hstep with ⟨hidle, hs⟩
          cases hs
          exact goto_moves hptr Ptr.ok_null (by rw [hidle]; rfl) (by rw [hidle]; rfl)
      | some obj =>
          rcases Option.ite_none_right_eq_some.mp hstep with ⟨⟨hidle, hpos⟩, hs⟩
          cases hs
          -- the `Ref` is moved into the call
          refine moves_of [] [] rfl hptr trivial (List.append_nil _).symm (List.append_nil _).symm rfl
            ?_ ?_
          · rw [hidle]
            rfl
          · refine .same rfl rfl ?_
            intro other
            by_cases hother : other = obj
            · subst hother
              simp only [near, goto, hidle, Pc.owned, Ptr.owns_some, Ptr.owns_null,
                Function.update_self]
              omega
            · simp only [near, goto, hidle, Pc.owned, Ptr.owns_of_ne hother, Ptr.owns_null,
                Function.update_of_ne hother]
  | step fails => exact access_moves hptr hok hstep

variable {acts : List (τ × Act Obj)}

theorem inv_init (τ Obj : Type) [DecidableEq Obj] [DecidableEq τ] : (init τ Obj).Inv where
  ptr := Ptr.ok_null
  pc _ := trivial
  log := rfl
  returns _ := rfl

/-- **Every step keeps to the register.** -/
theorem step_inv {op : τ × Act Obj} (h : s.Inv) (hstep : s.step op = some s') : s'.Inv :=
  (step_moves h.ptr (h.pc op.1) hstep).inv h

theorem run_inv (hrun : Steps.run step (init τ Obj) acts = some s) : s.Inv :=
  Steps.run_invariant (fun _ _ _ h hstep => step_inv h hstep) hrun (inv_init τ Obj)

/-! ### The account along a run -/

section Account

variable [Fintype τ]

/-- The counters, which are of type `int`, can hold the references. -/
def Fits (s : State τ Obj) : Prop := ∀ obj, s.references obj < 2 ^ 31

omit [DecidableEq τ] in
theorem counted_init : (init τ Obj).Counted where
  cnt obj := by simp [init, references, Pc.owned]
  alive obj := by simp [init, references, Pc.owned]

theorem step_counted {op : τ × Act Obj} (h : s.Inv) (hfits : s.Fits) (hcounted : s.Counted)
    (hstep : s.step op = some s') : s'.Counted :=
  (step_moves h.ptr (h.pc op.1) hstep).counted (fun obj => (hfits obj).trans (by decide)) hcounted

/-- **Every run keeps the account** while the counters can hold it. -/
theorem run_counted (hrun : Steps.run step (init τ Obj) acts = some s)
    (hfits : Steps.Along step Fits (init τ Obj) acts) : s.Counted := by
  have hkept : ∀ (s : State τ Obj) (op : τ × Act Obj) (s' : State τ Obj), s.Fits →
      s.Inv ∧ s.Counted → s.step op = some s' → s'.Inv ∧ s'.Counted := by
    intro s op s' hfits h hstep
    exact ⟨step_inv h.1 hstep, step_counted h.1 hfits h.2 hstep⟩
  exact (Steps.run_invariant_along hkept hfits hrun ⟨inv_init τ Obj, counted_init⟩).2

theorem references_le_of_step {op : τ × Act Obj} (h : s.Inv) (hstep : s.step op = some s')
    (obj : Obj) : s'.references obj ≤ s.references obj + (batchSize + 1) := by
  have hmoves := step_moves h.ptr (h.pc op.1) hstep
  rcases hmoves.references obj with ⟨rest, hbefore, hafter⟩
  have hle := hmoves.counts.le obj
  omega

/-- They can for more than 20 million steps at least. -/
theorem along_fits (h : s.Inv)
    (hlt : ∀ obj, s.references obj + acts.length * (batchSize + 1) < 2 ^ 31) :
    Steps.Along step Fits s acts := by
  have hfits : s.Fits := fun obj => lt_of_le_of_lt (Nat.le_add_right _ _) (hlt obj)
  induction acts generalizing s with
  | nil => exact hfits
  | cons op acts ih =>
      refine ⟨hfits, ?_⟩
      intro m hstep
      have hm : ∀ obj, m.references obj + acts.length * (batchSize + 1) < 2 ^ 31 := by
        intro obj
        have hle := references_le_of_step h hstep obj
        have hobj := hlt obj
        rw [List.length_cons, Nat.succ_mul] at hobj
        omega
      exact ih (step_inv h hstep) hm fun obj => lt_of_le_of_lt (Nat.le_add_right _ _) (hm obj)

theorem along_fits_init (hlt : acts.length * (batchSize + 1) < 2 ^ 31) :
    Steps.Along step Fits (init τ Obj) acts := by
  apply along_fits (inv_init τ Obj)
  intro obj
  simpa [init, references, Pc.owned] using hlt

end Account

/-! ## What follows from the account -/

section Alive

variable [Fintype τ]

omit [DecidableEq τ] in
/-- What a thread has is alive. -/
theorem Counted.alive_of_owned (h : s.Counted) {obj : Obj} {refCnt : Nat}
    (howned : (s.pc t).owned = ⟨some obj, refCnt⟩) : s.alive obj = true := by
  have hle := near_le_references s t obj
  rw [near, howned, Ptr.owns_some] at hle
  rw [h.alive]
  omega

omit [DecidableEq τ] [Fintype τ] in
theorem acquireShared_isSome {obj : Obj} (h : s.alive obj = true) (cnt : Nat) :
    (s.acquireShared obj cnt).isSome := by
  rw [acquireShared, if_pos h]
  rfl

omit [DecidableEq τ] [Fintype τ] in
theorem releaseShared_isSome {obj : Obj} (h : s.alive obj = true) (cnt : Nat) :
    (s.releaseShared obj cnt).isSome := by
  rw [releaseShared, if_pos h]
  rfl

/-- **No thread touches an object that is gone**: it can always make its next
access. -/
theorem Counted.access_isSome (h : s.Counted) (hpc : s.pc t ≠ .idle) (fails : Bool) :
    (s.access t fails).isSome := by
  rw [access]
  cases hat : s.pc t with
  | idle => exact absurd hat hpc
  | tryReserve obj =>
      rw [Option.isSome_map]
      exact acquireShared_isSome (h.alive_of_owned (by rw [hat]; rfl)) _
  | reserveRelease obj =>
      rw [Option.isSome_map]
      exact releaseShared_isSome (h.alive_of_owned (by rw [hat]; rfl)) _
  | extractRelease obj refCnt =>
      rw [Option.isSome_map]
      exact releaseShared_isSome (h.alive_of_owned (by rw [hat]; rfl)) _
  | storeIfEmptyRelease desired =>
      rw [Option.isSome_map]
      exact releaseShared_isSome (h.alive_of_owned (by rw [hat]; rfl)) _
  | storeAcquire obj =>
      rw [Option.isSome_map]
      exact acquireShared_isSome (h.alive_of_owned (by rw [hat]; rfl)) _
  | storeRelease ref obj refCnt =>
      rw [Option.isSome_map]
      exact releaseShared_isSome (h.alive_of_owned (by rw [hat]; rfl)) _
  | load => rfl
  | reserve obj => rfl
  | storeIfEmpty desired => rfl
  | store new => rfl
  | loadCas obj refCnt =>
      simp only
      split
      · split <;> rfl
      · rfl
  | reserveCas obj refCnt =>
      simp only
      split <;> rfl
  | extract =>
      simp only
      split
      · rfl
      · split <;> rfl
  | storeIfEmptyCas desired refCnt =>
      simp only
      split <;> rfl
  | storeCas new seen =>
      simp only
      split
      · split <;> rfl
      · rfl

end Alive

/-! ## Runs -/

/-- One thread stores an object and takes it out again. Another one has read the
word in between, and its `compare_exchange` is too late. -/
def tooLate : List (Bool × Act Nat) :=
  [(true, .create 7), (true, .store (some 7)), (true, .step false), (true, .step false),
    (true, .step false), (false, .load), (false, .step false), (true, .extract),
    (true, .step false), (false, .step false)]

theorem run_tooLate :
    ∃ s, Steps.run step (init Bool Nat) tooLate = some s ∧ s.pc true = .extractRelease 7 100 ∧
      s.cnt 7 = 101 ∧ s.ptr = .null := by
  refine ⟨_, rfl, ?_⟩
  decide

theorem along_tooLate : Steps.Along step Fits (init Bool Nat) tooLate :=
  along_fits_init (by decide)

section Fitting

variable [Fintype τ]

omit [DecidableEq τ] in
theorem Counted.toNat_cnt (h : s.Counted) (hfits : s.Fits) (obj : Obj) :
    (s.cnt obj).toNat = s.references obj := by
  rw [h.cnt, BitVec.toNat_ofNat, Nat.mod_eq_of_lt ((hfits obj).trans (by decide))]

/-- **The account of an object**, in every reachable state of a run on which no object
ever has 2 ^ 31 references: its counter is the number of references to it, wherever
they are. So it is alive exactly while there is one: it never goes too early, and it
never stays behind. -/
theorem cnt_eq_of_run (hrun : Steps.run step (init τ Obj) acts = some s)
    (hfits : Steps.Along step Fits (init τ Obj) acts) (obj : Obj) :
    (s.cnt obj).toInt = s.references obj ∧
      (s.alive obj = true ↔
        0 < s.refs obj ∨ s.ptr.ptr = some obj ∨ ∃ t, (s.pc t).owned.ptr = some obj) := by
  have hcounted := run_counted hrun hfits
  have hlast := hfits.last hrun
  constructor
  · have hsmall := hlast obj
    rw [BitVec.toInt_eq_toNat_of_lt, hcounted.toNat_cnt hlast]
    rw [hcounted.toNat_cnt hlast]
    omega
  · have howns : ∀ p : Ptr Obj, 0 < p.owns obj ↔ p.ptr = some obj := by
      intro p
      unfold Ptr.owns
      split <;> simp_all
    have hsum : 0 < ∑ t, (s.pc t).owned.owns obj ↔ ∃ t, (s.pc t).owned.ptr = some obj := by
      rw [Finset.sum_pos_iff]
      simp only [Finset.mem_univ, true_and, howns]
    rw [← hsum, ← howns s.ptr, hcounted.alive, references]
    omega

theorem cnt_eq_of_tooLate :
    ∃ s, Steps.run step (init Bool Nat) tooLate = some s ∧ 101 = s.references 7 ∧
      s.alive 7 = true := by
  rcases run_tooLate with ⟨s, hrun, hpc, hcnt, -⟩
  rcases cnt_eq_of_run hrun along_tooLate 7 with ⟨hreferences, halive⟩
  rw [hcnt] at hreferences
  exact ⟨s, hrun, Int.ofNat.inj hreferences, halive.mpr (.inr (.inr ⟨true, by rw [hpc]; rfl⟩))⟩

/-- **No use after free**, and no overflow of the stock: whatever the others have
done, and wherever they have stopped, a thread in an operation can make its next
access, and what it has to give back is counted. -/
theorem access_isSome_of_run (hrun : Steps.run step (init τ Obj) acts = some s)
    (hfits : Steps.Along step Fits (init τ Obj) acts) (hpc : s.pc t ≠ .idle) (fails : Bool) :
    (s.access t fails).isSome ∧ (∀ obj, (s.pc t).owned.owns obj ≤ (s.cnt obj).toNat) ∧
      s.ptr.refCnt < 2 ^ 16 := by
  have hcounted := run_counted hrun hfits
  refine ⟨hcounted.access_isSome hpc fails, ?_, (run_inv hrun).ptr.lt.trans (by decide)⟩
  intro obj
  have hle := near_le_references s t obj
  rw [hcounted.toNat_cnt (hfits.last hrun)]
  unfold near at hle
  omega

theorem access_isSome_of_tooLate :
    ∃ s, Steps.run step (init Bool Nat) tooLate = some s ∧ (s.access true false).isSome := by
  rcases run_tooLate with ⟨s, hrun, hpc, -⟩
  refine ⟨s, hrun, (access_isSome_of_run hrun along_tooLate ?_ false).1⟩
  rw [hpc]
  exact fun h => nomatch h

end Fitting

/-! ### Counters that do not hold the references -/

/-- An object with `n` `Ref`s and nothing else. -/
def shared (τ : Type) (obj : Obj) (n : Nat) : State τ Obj :=
  { init τ Obj with
    cnt := Function.update (init τ Obj).cnt obj (BitVec.ofNat 32 n)
    alive := Function.update (init τ Obj).alive obj true
    refs := Function.update (init τ Obj).refs obj n }

theorem step_copy (t : τ) (obj : Obj) {n : Nat} (h : 0 < n) :
    (shared τ obj n).step (t, .copy obj) = some (shared τ obj (n + 1)) := by
  simp [step, shared, acquireShared, addRef, h, BitVec.ofNat_add]

theorem run_copies (t : τ) (obj : Obj) {n : Nat} (h : 0 < n) (k : Nat) :
    Steps.run step (shared τ obj n) (List.replicate k (t, .copy obj)) =
      some (shared τ obj (n + k)) := by
  induction k generalizing n with
  | zero => rfl
  | succ k ih =>
      rw [List.replicate_succ, Steps.run_cons_eq_some_iff]
      refine ⟨_, step_copy t obj h, ?_⟩
      rw [ih n.succ_pos, Nat.succ_add_eq_add_succ]

/-- A bound is needed: where there is one `Ref` more than a multiple of 2 ^ 32, the
object goes with that one, and the others are left. -/
theorem freed_of_copies (t : τ) (obj : Obj) {n : Nat} (h : 2 ^ 32 ∣ n) :
    ∃ s, Steps.run step (init τ Obj)
        ((t, .create obj) :: (List.replicate n (t, .copy obj) ++ [(t, .drop obj)])) = some s ∧
      s.alive obj = false ∧ s.refs obj = n := by
  have hwrap : BitVec.ofNat 32 n = 0 := by
    rw [← BitVec.toNat_inj, BitVec.toNat_ofNat, Nat.mod_eq_zero_of_dvd h]
    rfl
  have hcreate : (init τ Obj).step (t, .create obj) = some (shared τ obj 1) := by
    simp [step, shared, addRef, init]
  have hdrop : ∃ s, (shared τ obj (1 + n)).step (t, .drop obj) = some s ∧
      s.alive obj = false ∧ s.refs obj = n := by
    -- the counter is one again
    simp [step, shared, releaseShared, BitVec.ofNat_add, hwrap]
  rcases hdrop with ⟨s, hlast, halive, hrefs⟩
  refine ⟨s, ?_, halive, hrefs⟩
  rw [Steps.run_cons_eq_some_iff]
  refine ⟨_, hcreate, ?_⟩
  rw [Steps.run_append_eq_some_iff]
  refine ⟨_, run_copies t obj Nat.one_pos n, ?_⟩
  rw [Steps.run_cons_eq_some_iff]
  exact ⟨s, hlast, rfl⟩

/-! ### The order of the operations -/

/-- **Linearizable.** In the order in which they take effect the operations are
those of a register, which ends with what is in the word; and the operations of a
thread take effect between their calls and their returns, with the results that
they return. -/
theorem log_of_run (hrun : Steps.run step (init τ Obj) acts = some s) :
    Steps.run Register.step none (s.log.map Prod.snd) = some s.ptr.ptr ∧
      ∀ t, s.log.filter (·.1 = t) = s.returns.filter (·.1 = t) ++ (s.pc t).pending.map (t, ·) :=
  ⟨(run_inv hrun).log, (run_inv hrun).returns⟩

theorem log_of_tooLate :
    ∃ s, Steps.run step (init Bool Nat) tooLate = some s ∧
      Steps.run Register.step none (s.log.map Prod.snd) = some none := by
  rcases run_tooLate with ⟨s, hrun, -, -, hptr⟩
  have hlog := (log_of_run hrun).1
  rw [hptr] at hlog
  exact ⟨s, hrun, hlog⟩

end State

end TonEncoder.AtomicRef
