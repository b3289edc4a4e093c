import TonEncoder.Codec.Process

/-! # The utilities of `td/utils`

What the programs use of the headers: `Status` and `Result` (`Status.h`), the
checks (`check.h`), slices (`Slice.h`) and the buffer builder (`buffer.h`).
-/

namespace TonEncoder

open Process

/-! ## Results -/

/-- An error status. -/
structure Status where
  code : Int
  message : String
deriving DecidableEq, Repr

/-- `Status::to_string` of a general error. -/
def Status.toString (status : Status) : String :=
  "[Error : " ++ ToString.toString status.code ++ " : " ++ status.message ++ "]"

/-- `Result<T>`: a value or an error status. -/
inductive Result (α : Type) where
  | ok (value : α)
  | error (status : Status)
deriving DecidableEq, Repr

variable {α : Type}

/-- The value of a result. -/
def Result.toOption : Result α → Option α
  | .ok value => some value
  | .error _ => none

theorem Result.toOption_eq_some_iff {result : Result α} {value : α} :
    result.toOption = some value ↔ result = .ok value := by
  cases result <;> simp [Result.toOption]

/-- What `Status::ensure_impl` logs as a fatal error: file and line are those of
the call in `Result::move_as_ok`. -/
def unexpectedStatus (status : Status) : String :=
  "Unexpected Status " ++ status.toString ++ " in file td/utils/Status.h at line 575"

/-- `Result::move_as_ok`. The fatal log message of `ensure` ends the process: no
exception is thrown. -/
def Result.moveAsOk : Result α → Proc α
  | .ok value => pure value
  | .error status => terminate (unexpectedStatus status)

@[simp] theorem moveAsOk_ok_bind_run {β : Type} (value : α) (f : α → Proc β) (con : Console) :
    ((Result.ok value).moveAsOk >>= f) con = f value con := rfl

@[simp] theorem moveAsOk_error_bind_run {β : Type} (status : Status) (f : α → Proc β)
    (con : Console) :
    ((Result.error status : Result α).moveAsOk >>= f) con =
      (.fatal (unexpectedStatus status), con) := rfl

theorem moveAsOk_ok_run (value : α) (con : Console) :
    (Result.ok value).moveAsOk con = (.returned value, con) := rfl

theorem moveAsOk_error_run (status : Status) (con : Console) :
    (Result.error status : Result α).moveAsOk con = (.fatal (unexpectedStatus status), con) :=
  rfl

/-! ## Checks and slices -/

/-- `CHECK(condition)`: a failed check ends the process. -/
def check (holds : Bool) (condition : String) : Proc Unit :=
  if holds then pure () else terminate condition

@[simp] theorem check_bind_run {β : Type} (holds : Bool) (condition : String) (f : Unit → Proc β)
    (con : Console) :
    (check holds condition >>= f) con = if holds then f () con else (.fatal condition, con) := by
  cases holds <;> rfl

/-- `td::Slice(vector.data(), vector.size())`. The data pointer of an empty
vector is null, which the constructor checks. -/
def sliceOfVector (vector : Bytes) : Proc Bytes := do
  check (!vector.isEmpty) "s_ != nullptr"
  return vector

theorem sliceOfVector_nil_bind_run {β : Type} (f : Bytes → Proc β) (con : Console) :
    (sliceOfVector [] >>= f) con = (.fatal "s_ != nullptr", con) := rfl

theorem sliceOfVector_bind_run {β : Type} {vector : Bytes} (h : vector ≠ []) (f : Bytes → Proc β)
    (con : Console) : (sliceOfVector vector >>= f) con = f vector con := by
  cases vector with
  | nil => exact absurd rfl h
  | cons b vector => rfl

/-! ## The buffer builder -/

/-- `BufferBuilder`. The header declares `append` and `extract`; what is known of
them is that appending and extracting is concatenation. -/
structure BufferBuilders where
  BufferBuilder : Type
  empty : BufferBuilder
  append : BufferBuilder → Bytes → BufferBuilder
  extract : BufferBuilder → Bytes
  extract_empty : extract empty = []
  extract_append : ∀ builder slice, extract (append builder slice) = extract builder ++ slice

/-- A builder that keeps the slices it is given. -/
def sliceBuilders : BufferBuilders where
  BufferBuilder := List Bytes
  empty := []
  append builder slice := builder ++ [slice]
  extract builder := builder.flatten
  extract_empty := List.flatten_nil
  extract_append := by simp

end TonEncoder
