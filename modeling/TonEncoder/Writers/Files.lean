import TonEncoder.Td

/-! # Files that are written in pieces

`FileFd::write` takes a part of a slice, or fails. The loop of `FileWriter::flush`
goes on until the slice is gone or a call fails, and `FileFd.Delivered` says what
has then become of the bytes.
-/

namespace TonEncoder

open Process

/-- The answers of `FileFd::write` to its calls, by their number. A call that
succeeds has taken a part of the slice from its start, and not nothing. -/
structure FileFd where
  write : Nat → (slice : Bytes) → Result {s : Nat // s ≤ slice.length ∧ (slice ≠ [] → 0 < s)}

/-- A file: the bytes it has taken and the calls so far. -/
structure Disk where
  content : Bytes
  calls : Nat
deriving DecidableEq, Repr

/-- The file after a call that failed. -/
def Disk.failed (disk : Disk) : Disk := { disk with calls := disk.calls + 1 }

/-- The file after a call that took `data`. -/
def Disk.took (disk : Disk) (data : Bytes) : Disk := ⟨disk.content ++ data, disk.calls + 1⟩

namespace FileFd

/-- The loop of `FileWriter::flush`: a slice is written until none of it is left
or a call fails. -/
def writeLoop (fd : FileFd) (disk : Disk) (slice : Bytes) : Disk × Option Status :=
  if _ : slice = [] then
    (disk, none)
  else
    match fd.write disk.calls slice with
    | .error status => (disk.failed, some status)
    | .ok s => fd.writeLoop (disk.took (slice.take s.1)) (slice.drop s.1)
termination_by slice.length
decreasing_by
  have := s.2.2 ‹_›
  have := List.length_pos_iff.mpr ‹¬slice = []›
  simp only [List.length_drop]
  omega

/-- A series of calls, all of them successful, through which a file takes the
given bytes. -/
inductive Accepts (fd : FileFd) : Disk → Bytes → Disk → Prop where
  | nil (disk : Disk) : Accepts fd disk [] disk
  | call (disk disk' : Disk) (slice rest : Bytes)
      (s : {s : Nat // s ≤ slice.length ∧ (slice ≠ [] → 0 < s)})
      (hwrite : fd.write disk.calls slice = .ok s)
      (hrest : Accepts fd (disk.took (slice.take s.1)) rest disk') :
      Accepts fd disk (slice.take s.1 ++ rest) disk'

/-- What has become of `bytes`, which were handed to a file: without an error
the file took them all; with one, all calls but the last were successful, the
last one failed on the bytes that follow those the file took, and there were no
calls after it. -/
def Delivered (fd : FileFd) (disk : Disk) (bytes : Bytes) : Option Status → Disk → Prop
  | none, disk' => fd.Accepts disk bytes disk'
  | some status, disk' =>
      ∃ done slice stopped, fd.Accepts disk done stopped ∧ slice ≠ [] ∧ done ++ slice <+: bytes ∧
        fd.write stopped.calls slice = .error status ∧ disk' = stopped.failed

variable {fd : FileFd} {disk disk' disk'' : Disk} {bytes more : Bytes} {status : Status}

theorem Accepts.content (h : fd.Accepts disk bytes disk') :
    disk'.content = disk.content ++ bytes := by
  induction h with
  | nil disk => simp
  | call disk disk' slice rest s hwrite hrest ih => simp [ih, Disk.took]

theorem Accepts.append (h : fd.Accepts disk bytes disk') (h' : fd.Accepts disk' more disk'') :
    fd.Accepts disk (bytes ++ more) disk'' := by
  induction h with
  | nil disk => exact h'
  | call disk disk' slice rest s hwrite hrest ih =>
      rw [List.append_assoc]
      exact .call disk disk'' slice (rest ++ more) s hwrite (ih h')

theorem Delivered.nil (disk : Disk) : fd.Delivered disk [] none disk := Accepts.nil disk

/-- More bytes are handed over after the first are on the file. -/
theorem Delivered.append {res : Option Status} (h : fd.Delivered disk bytes none disk')
    (h' : fd.Delivered disk' more res disk'') : fd.Delivered disk (bytes ++ more) res disk'' := by
  cases res with
  | none => exact Accepts.append h h'
  | some status =>
      obtain ⟨done, slice, stopped, hdone, hslice, hprefix, hwrite, rfl⟩ := h'
      refine ⟨bytes ++ done, slice, stopped, Accepts.append h hdone, hslice, ?_, hwrite, rfl⟩
      rw [List.append_assoc]
      exact (List.prefix_append_right_inj bytes).mpr hprefix

/-- After an error nothing more is handed over. -/
theorem Delivered.skip (h : fd.Delivered disk bytes (some status) disk') (more : Bytes) :
    fd.Delivered disk (bytes ++ more) (some status) disk' := by
  obtain ⟨done, slice, stopped, hdone, hslice, hprefix, hwrite, rfl⟩ := h
  exact ⟨done, slice, stopped, hdone, hslice, hprefix.trans (List.prefix_append bytes more),
    hwrite, rfl⟩

theorem Delivered.content_of_none (h : fd.Delivered disk bytes none disk') :
    disk'.content = disk.content ++ bytes := Accepts.content h

/-- A file that failed lacks some of the bytes, at the end. -/
theorem Delivered.content_of_some (h : fd.Delivered disk bytes (some status) disk') :
    ∃ done missing, missing ≠ [] ∧ done ++ missing = bytes ∧
      disk'.content = disk.content ++ done := by
  obtain ⟨done, slice, stopped, hdone, hslice, ⟨rest, hrest⟩, -, rfl⟩ := h
  refine ⟨done, slice ++ rest, ?_, ?_, hdone.content⟩
  · intro hnil
    exact hslice (List.append_eq_nil_iff.mp hnil).1
  · rw [← List.append_assoc]
    exact hrest

/-- The loop delivers its slice. -/
theorem writeLoop_delivered (fd : FileFd) (disk : Disk) (slice : Bytes) :
    fd.Delivered disk slice (fd.writeLoop disk slice).2 (fd.writeLoop disk slice).1 := by
  induction disk, slice using writeLoop.induct fd with
  | case1 disk =>
      rw [writeLoop, dif_pos rfl]
      exact Delivered.nil disk
  | case2 disk slice hslice status hwrite =>
      rw [writeLoop, dif_neg hslice, hwrite]
      exact ⟨[], slice, disk, .nil disk, hslice, List.prefix_rfl, hwrite, rfl⟩
  | case3 disk slice hslice s hwrite ih =>
      rw [writeLoop, dif_neg hslice, hwrite]
      have htook : fd.Delivered disk (slice.take s.1) none (disk.took (slice.take s.1)) := by
        have hcall := Accepts.call disk _ slice [] s hwrite (.nil _)
        rwa [List.append_nil] at hcall
      have happend := htook.append ih
      rwa [List.take_append_drop] at happend

/-- A file that takes at most two bytes at a call. -/
def pairFd : FileFd where
  write _ slice := .ok ⟨min 2 slice.length, Nat.min_le_right 2 slice.length, by
    intro hslice
    have hlen := List.length_pos_iff.mpr hslice
    omega⟩

/-- A file that is full after its first call. -/
def fullFd : FileFd where
  write call slice :=
    if call = 0 then pairFd.write call slice else .error ⟨28, "No space left on device"⟩

theorem writeLoop_pairFd :
    pairFd.writeLoop ⟨[7], 0⟩ [5, 2, 88] = (⟨[7, 5, 2, 88], 2⟩, none) := by
  rw [writeLoop]
  simp only [pairFd, Disk.took]
  rw [writeLoop]
  simp only [Disk.took]
  rw [writeLoop]
  simp

theorem writeLoop_fullFd :
    fullFd.writeLoop ⟨[7], 0⟩ [5, 2, 88] =
      (⟨[7, 5, 2], 2⟩, some ⟨28, "No space left on device"⟩) := by
  rw [writeLoop]
  simp only [fullFd, if_true, pairFd, Disk.took]
  rw [writeLoop]
  simp [Disk.failed]

end FileFd

end TonEncoder
