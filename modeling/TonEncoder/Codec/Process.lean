import Mathlib.Tactic

/-! # Console processes

A process reads a byte stream on its standard input and writes to two output
streams. A computation of it ends in one of three ways:

* `returned a`: it returns normally;
* `exception what`: a standard exception is in flight, which the nearest
  handler receives;
* `fatal message`: the process is being terminated, which no handler sees.

`catchStd` is the handler; `report` is what the parent process sees once the
main function is over.
-/

namespace Process

abbrev Bytes := List UInt8

/-- The three streams. The error stream is kept as its lines. -/
structure Console where
  stdin : Bytes
  stdout : Bytes
  stderr : List String
deriving DecidableEq, Repr

/-- The console with more lines on the error stream. -/
def Console.withErr (con : Console) (lines : List String) : Console :=
  { con with stderr := con.stderr ++ lines }

@[simp] theorem Console.withErr_nil (con : Console) : con.withErr [] = con := by
  simp [Console.withErr]

@[simp] theorem Console.withErr_stdout (con : Console) (lines : List String) :
    (con.withErr lines).stdout = con.stdout := rfl

@[simp] theorem Console.withErr_stderr (con : Console) (lines : List String) :
    (con.withErr lines).stderr = con.stderr ++ lines := rfl

/-- How a computation ends. -/
inductive Outcome (α : Type) where
  | returned (a : α)
  | exception (what : String)
  | fatal (message : String)
deriving DecidableEq, Repr

/-- A computation over the console. -/
def Proc (α : Type) : Type := Console → Outcome α × Console

variable {α β : Type}

instance : Monad Proc where
  pure a := fun con => (.returned a, con)
  bind m f := fun con =>
    match m con with
    | (.returned a, con') => f a con'
    -- what has been written so far stays written
    | (.exception what, con') => (.exception what, con')
    | (.fatal message, con') => (.fatal message, con')

/-! ## Sequencing -/

@[simp] theorem pure_run (a : α) (con : Console) :
    (pure a : Proc α) con = (.returned a, con) := rfl

theorem bind_run (m : Proc α) (f : α → Proc β) (con : Console) :
    (m >>= f) con =
      match m con with
      | (.returned a, con') => f a con'
      | (.exception what, con') => (.exception what, con')
      | (.fatal message, con') => (.fatal message, con') := rfl

theorem bind_returned {m : Proc α} {con con' : Console} {a : α} (f : α → Proc β)
    (h : m con = (.returned a, con')) : (m >>= f) con = f a con' := by
  rw [bind_run, h]

theorem bind_exception {m : Proc α} {con con' : Console} {what : String} (f : α → Proc β)
    (h : m con = (.exception what, con')) : (m >>= f) con = (.exception what, con') := by
  rw [bind_run, h]

theorem bind_fatal {m : Proc α} {con con' : Console} {message : String} (f : α → Proc β)
    (h : m con = (.fatal message, con')) : (m >>= f) con = (.fatal message, con') := by
  rw [bind_run, h]

@[simp] theorem pure_bind_run (a : α) (f : α → Proc β) (con : Console) :
    ((pure a : Proc α) >>= f) con = f a con := rfl

/-! ## Stopping -/

/-- Throw a standard exception. -/
def throwStd (what : String) : Proc α := fun con => (.exception what, con)

/-- Terminate the process. The message goes to a log of its own, which no stream
of the console holds. -/
def terminate (message : String) : Proc α := fun con => (.fatal message, con)

/-- Run `body`; a standard exception goes to `handler`, a termination does not. -/
def catchStd (body : Proc α) (handler : String → Proc α) : Proc α := fun con =>
  match body con with
  | (.returned a, con') => (.returned a, con')
  | (.exception what, con') => handler what con'
  | (.fatal message, con') => (.fatal message, con')

@[simp] theorem throwStd_bind_run (what : String) (f : α → Proc β) (con : Console) :
    ((throwStd what : Proc α) >>= f) con = (.exception what, con) := rfl

@[simp] theorem terminate_bind_run (message : String) (f : α → Proc β) (con : Console) :
    ((terminate message : Proc α) >>= f) con = (.fatal message, con) := rfl

@[simp] theorem throwStd_run (what : String) (con : Console) :
    (throwStd what : Proc α) con = (.exception what, con) := rfl

theorem catchStd_returned {body : Proc α} {con con' : Console} {a : α}
    (handler : String → Proc α) (h : body con = (.returned a, con')) :
    catchStd body handler con = (.returned a, con') := by
  simp [catchStd, h]

theorem catchStd_exception {body : Proc α} {con con' : Console} {what : String}
    (handler : String → Proc α) (h : body con = (.exception what, con')) :
    catchStd body handler con = handler what con' := by
  simp [catchStd, h]

theorem catchStd_fatal {body : Proc α} {con con' : Console} {message : String}
    (handler : String → Proc α) (h : body con = (.fatal message, con')) :
    catchStd body handler con = (.fatal message, con') := by
  simp [catchStd, h]

/-! ## The streams -/

/-- The newline byte. -/
def newline : UInt8 := 10

/-- White space of the classic locale: space, `\t`, `\n`, `\v`, `\f`, `\r`. -/
def isSpace (b : UInt8) : Bool := b == 32 || (9 ≤ b && b ≤ 13)

/-- What comes after the space is not white space. -/
theorem isSpace_of_lt {b : UInt8} (h : 32 < b) : isSpace b = false := by
  rw [UInt8.lt_iff_toNat_lt] at h
  simp only [isSpace, Bool.or_eq_false_iff, beq_eq_false_iff_ne, ne_eq, Bool.and_eq_false_iff,
    decide_eq_false_iff_not, UInt8.le_iff_toNat_le]
  have h32 : (32 : UInt8).toNat = 32 := rfl
  have h13 : (13 : UInt8).toNat = 13 := rfl
  constructor
  · rintro rfl
    omega
  · right
    omega

/-- The bytes of an ASCII text. -/
def ascii (s : String) : Bytes := s.toList.map fun c => UInt8.ofNat c.toNat

/-- Formatted extraction of a word: skip white space, then read up to the next
one. The word is empty when the input holds nothing else. -/
def readWord : Proc Bytes := fun con =>
  let rest := con.stdin.dropWhile isSpace
  (.returned (rest.takeWhile (!isSpace ·)),
    { con with stdin := rest.dropWhile (!isSpace ·) })

/-- Write a line to the standard output. -/
def putLine (line : Bytes) : Proc Unit := fun con =>
  (.returned (), { con with stdout := con.stdout ++ (line ++ [newline]) })

/-- Write a line to the error stream. -/
def errLine (line : String) : Proc Unit := fun con =>
  (.returned (), con.withErr [line])

@[simp] theorem putLine_bind_run (line : Bytes) (f : Unit → Proc β) (con : Console) :
    (putLine line >>= f) con =
      f () { con with stdout := con.stdout ++ (line ++ [newline]) } := rfl

@[simp] theorem errLine_bind_run (line : String) (f : Unit → Proc β) (con : Console) :
    (errLine line >>= f) con = f () (con.withErr [line]) := rfl

/-- The first word of a stream. -/
def firstWord (input : Bytes) : Bytes :=
  (input.dropWhile isSpace).takeWhile (!isSpace ·)

/-- What follows the first word of a stream. -/
def afterWord (input : Bytes) : Bytes :=
  (input.dropWhile isSpace).dropWhile (!isSpace ·)

@[simp] theorem readWord_bind_run (f : Bytes → Proc β) (con : Console) :
    (readWord >>= f) con =
      f (firstWord con.stdin) { con with stdin := afterWord con.stdin } := rfl

/-- A text without white space. -/
def IsWord (w : Bytes) : Prop := w ≠ [] ∧ ∀ b ∈ w, isSpace b = false

/-- The check that a text is a word. -/
theorem isWord_of_all {w : Bytes} (h : (!w.isEmpty && w.all (!isSpace ·)) = true) : IsWord w := by
  simp only [Bool.and_eq_true, List.all_eq_true, Bool.not_eq_true', List.isEmpty_eq_false_iff] at h
  exact h

theorem IsWord.not_isSpace {w : Bytes} (hw : IsWord w) : ∀ b ∈ w, (!isSpace b) = true := by
  intro b hb
  rw [hw.2 b hb, Bool.not_false]

theorem dropWhile_isSpace_word {w : Bytes} (hw : IsWord w) (rest : Bytes) :
    (w ++ rest).dropWhile isSpace = w ++ rest := by
  obtain ⟨hne, hall⟩ := hw
  cases w with
  | nil => exact absurd rfl hne
  | cons b w =>
      -- the first byte of the word already stops the skipping
      simp [hall b (by simp)]

/-- Leading newlines are skipped. -/
theorem dropWhile_isSpace_newline (input : Bytes) :
    (newline :: input).dropWhile isSpace = input.dropWhile isSpace := by
  rfl

/-- Reading a word that ends at a newline gives the word and leaves the newline. -/
theorem firstWord_line {w : Bytes} (hw : IsWord w) (rest : Bytes) :
    firstWord (w ++ newline :: rest) = w := by
  unfold firstWord
  rw [dropWhile_isSpace_word hw, List.takeWhile_append_of_pos hw.not_isSpace]
  simp [newline, isSpace]

theorem afterWord_line {w : Bytes} (hw : IsWord w) (rest : Bytes) :
    afterWord (w ++ newline :: rest) = newline :: rest := by
  unfold afterWord
  rw [dropWhile_isSpace_word hw, List.dropWhile_append_of_pos hw.not_isSpace]
  simp [newline, isSpace]

/-- A word that ends the input. -/
theorem firstWord_last {w : Bytes} (hw : IsWord w) : firstWord w = w := by
  have hdrop : w.dropWhile isSpace = w := by
    simpa using dropWhile_isSpace_word hw []
  unfold firstWord
  have htake : (w ++ []).takeWhile (!isSpace ·) = w ++ [].takeWhile (!isSpace ·) :=
    List.takeWhile_append_of_pos hw.not_isSpace
  rw [hdrop]
  simpa using htake

theorem firstWord_newline (input : Bytes) :
    firstWord (newline :: input) = firstWord input := by
  unfold firstWord
  rw [dropWhile_isSpace_newline]

/-! ## The end of a process -/

/-- What the parent process sees: an exit status, or that the process was
killed. -/
inductive Exit where
  | status (code : Nat)
  | killed
deriving DecidableEq, Repr

/-- Exit status zero. -/
def Exit.success : Exit := .status 0

structure Report where
  exit : Exit
  stdout : Bytes
  stderr : List String
deriving DecidableEq, Repr

/-- The exit of a main function. An exception that leaves it terminates the
process. -/
def exitOf : Outcome Nat → Exit
  | .returned code => .status code
  | .exception _ => .killed
  | .fatal _ => .killed

/-- Run a main function on an input. -/
def report (main : Proc Nat) (input : Bytes) : Report :=
  let (outcome, con) := main ⟨input, [], []⟩
  ⟨exitOf outcome, con.stdout, con.stderr⟩

end Process
