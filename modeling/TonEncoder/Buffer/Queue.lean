import TonEncoder.Buffer.Operations

/-! # A chain of buffers as a queue

A `ChainBufferReader` holds two iterators: one where it reads, and one that it
moves to the end of the chain when it is told to. Its size is the distance
between them.

* `Fifo` is the purpose: bytes are put in at one end, made visible, and taken out
  at the other.
* `Queue.fifo_of_run`: a writer and its reader do what a `Fifo` does, and all that it
  does; no other check fails.
* `Queue.outputs_append_eq_inputs`: what goes in comes out, in its order.
* `Queue.appendReader_spec`: a reader can be emptied into another chain.
-/

namespace TonEncoder.ChainBuffer

open Process

/-! ## Readers with a size -/

structure ChainBufferReader where
  begin : Reader
  end_ : Reader
  syncFlag : Bool
deriving DecidableEq, Repr

namespace ChainBufferReader

/-- `ChainBufferReader(head)` -/
def new (chain : Chain) : Option ChainBufferReader :=
  ((Reader.new chain).advanceTillEnd chain).map fun end_ => ⟨.new chain, end_, true⟩

def size (reader : ChainBufferReader) : Nat := reader.end_.it.offset - reader.begin.it.offset

def prepareRead (chain : Chain) (reader : ChainBufferReader) :
    Option (ChainBufferReader × Bytes) := do
  let begin ← reader.begin.read chain
  some ({ reader with begin }, (begin.it.slice chain).take reader.size)

def confirmRead (chain : Chain) (reader : ChainBufferReader) (size : Nat) :
    Option ChainBufferReader :=
  if size ≤ reader.size then
    (reader.begin.confirmRead chain size).map fun begin => { reader with begin }
  else
    none

def advance (chain : Chain) (reader : ChainBufferReader) (offset room : Nat) :
    Option (ChainBufferReader × Bytes) :=
  if offset ≤ reader.size then
    (reader.begin.advance chain offset room).map fun (begin, _, dest) =>
      ({ reader with begin }, dest)
  else
    none

def syncWithWriter (chain : Chain) (reader : ChainBufferReader) : Option ChainBufferReader :=
  if reader.syncFlag then
    (reader.end_.advanceTillEnd chain).map fun end_ => { reader with end_ }
  else
    some reader

/-- A client that uses at most `limit` bytes of what it is given. -/
def read (chain : Chain) (reader : ChainBufferReader) (limit : Nat) :
    Option (ChainBufferReader × Bytes) := do
  let (reader, ready) ← reader.prepareRead chain
  let used := ready.take limit
  let reader ← reader.confirmRead chain used.length
  some (reader, used)

/-- `cut_head(offset)`: the head, and what the reader is left with. -/
def cutHead (chain : Chain) (reader : ChainBufferReader) (offset : Nat) :
    Option (ChainBufferReader × ChainBufferReader) :=
  if offset ≤ reader.size then
    (reader.begin.advance chain offset 0).map fun (pos, _, _) =>
      (⟨reader.begin, pos, false⟩, { reader with begin := pos })
  else
    none

def readAsBufferSlice (chain : Chain) (reader : ChainBufferReader) (limit : Nat) :
    Option (ChainBufferReader × Bytes) := do
  let (begin, res) ← reader.begin.readAsBufferSlice chain (min limit reader.size)
  some ({ reader with begin }, res)

/-- `move_as_buffer_slice` copies nothing when all is in one node. -/
def moveAsBufferSlice (chain : Chain) (reader : ChainBufferReader) : Option Bytes :=
  if reader.size ≤ reader.begin.it.readerEnd - reader.begin.it.readerBegin then
    (reader.begin.readAsBufferSlice chain reader.size).map Prod.snd
  else
    (reader.advance chain reader.size reader.size).map Prod.snd

/-! ### Their invariant -/

structure Inv (chain : Chain) (reader : ChainBufferReader) : Prop where
  begin : reader.begin.Inv chain
  end_ : reader.end_.Inv chain
  beginClient : reader.begin.isClient = true
  endClient : reader.end_.isClient = true
  le : reader.begin.consumed.length ≤ reader.end_.consumed.length

/-- The bytes between the two iterators. -/
def content (reader : ChainBufferReader) : Bytes :=
  reader.end_.consumed.drop reader.begin.consumed.length

variable {chain chain' : Chain} {reader reader' : ChainBufferReader} {begin : Reader}
  {bytes : Bytes} {offset room limit : Nat}

theorem Inv.size_eq (h : reader.Inv chain) : reader.size = reader.content.length := by
  rw [size, content, List.length_drop, h.begin.offset, h.end_.offset]

theorem Inv.content_prefix (h : reader.Inv chain) :
    reader.content <+: reader.begin.rest chain :=
  h.end_.consumed_prefix.drop _

theorem Inv.consumed_content (h : reader.Inv chain) :
    reader.begin.consumed ++ reader.content = reader.end_.consumed := by
  have hfront : reader.begin.consumed <+: reader.end_.consumed :=
    List.prefix_of_prefix_length_le h.begin.consumed_prefix h.end_.consumed_prefix h.le
  rcases hfront with ⟨rest, hrest⟩
  rw [content, ← hrest, List.drop_left]

/-- What the writer appends, a reader does not see before it synchronizes. -/
theorem Inv.grows (h : reader.Inv chain) (hgrows : chain.Grows chain') : reader.Inv chain' :=
  ⟨h.begin.grows hgrows, h.end_.grows hgrows, h.beginClient, h.endClient, h.le⟩

/-- The reader has been moved on by this many bytes, and is the same otherwise. -/
structure Moves (chain : Chain) (reader : ChainBufferReader) (size : Nat)
    (reader' : ChainBufferReader) : Prop where
  inv : reader'.Inv chain
  content : reader'.content = reader.content.drop size
  end_ : reader'.end_ = reader.end_
  syncFlag : reader'.syncFlag = reader.syncFlag

theorem Inv.takes (h : reader.Inv chain) (htakes : reader.begin.Takes chain bytes begin)
    (hbytes : bytes <+: reader.content) :
    reader.Moves chain bytes.length { reader with begin } := by
  refine ⟨?_, ?_, rfl, rfl⟩
  · refine ⟨htakes.inv, h.end_, htakes.isClient, h.endClient, ?_⟩
    rw [htakes.consumed, ← h.consumed_content, List.length_append, List.length_append]
    exact Nat.add_le_add_left hbytes.length_le _
  · rw [content, content, htakes.consumed, List.length_append, List.drop_drop]

/-- The first bytes that are left are those of the content. -/
theorem Inv.take_rest (h : reader.Inv chain) (hoffset : offset ≤ reader.content.length) :
    (reader.begin.rest chain).take offset = reader.content.take offset := by
  rcases h.content_prefix with ⟨rest, hrest⟩
  rw [← hrest, List.take_append_of_le_length hoffset]

theorem Inv.content_eq_nil (h : reader.Inv chain) (hrest : reader.begin.rest chain = []) :
    reader.content = [] := by
  have hfront := h.content_prefix
  rw [hrest] at hfront
  exact List.prefix_nil.mp hfront

/-- `advance` of the first iterator, within the content. -/
theorem Inv.advance_begin (hchain : chain.Inv) (h : reader.Inv chain)
    (hoffset : offset ≤ reader.content.length) (room : Nat) :
    ∃ begin, reader.begin.advance chain offset room =
        some (begin, (reader.content.take offset).length,
          (reader.content.take offset).take room) ∧
      reader.begin.Takes chain (reader.content.take offset) begin ∧
      reader.Moves chain offset { reader with begin } := by
  rcases Reader.advance_spec hchain h.begin h.beginClient offset room
    with ⟨begin, hadvance, htakes⟩
  rw [h.take_rest hoffset] at hadvance htakes
  have hmoves := h.takes htakes (List.take_prefix _ _)
  rw [List.length_take, Nat.min_eq_left hoffset] at hmoves
  exact ⟨begin, hadvance, htakes, hmoves⟩

/-! ### Its operations -/

theorem new_spec (hchain : chain.Inv) :
    ∃ reader, new chain = some reader ∧ reader.Inv chain ∧ reader.content = chain.appended ∧
      reader.syncFlag = true ∧ reader.end_.consumed = chain.appended := by
  have hhead := Reader.inv_new chain
  rcases Reader.advanceTillEnd_spec hchain hhead rfl with ⟨end_, hend, htakes⟩
  have hconsumed : end_.consumed = chain.appended := by
    rw [htakes.consumed, hhead.consumed_rest]
  refine ⟨⟨.new chain, end_, true⟩, ?_, ?_, ?_, rfl, hconsumed⟩
  · rw [new, hend, Option.map_some]
  · exact ⟨hhead, htakes.inv, rfl, htakes.isClient, Nat.zero_le _⟩
  · rw [content, hconsumed]
    rfl

theorem prepareRead_spec (hchain : chain.Inv) (h : reader.Inv chain) :
    ∃ reader' ready, reader.prepareRead chain = some (reader', ready) ∧
      reader.Moves chain 0 reader' ∧ ready <+: reader.content ∧
      ready <+: reader'.begin.it.slice chain ∧ (ready = [] → reader.content = []) := by
  rcases Reader.read_spec hchain h.begin h.beginClient with ⟨begin, hread, hreads⟩
  have hslice := hreads.inv.slice_prefix_rest
  rw [hreads.rest_eq] at hslice
  refine ⟨{ reader with begin }, (begin.it.slice chain).take reader.size, ?_, ?_, ?_, ?_, ?_⟩
  · simp only [prepareRead, hread, Option.bind_eq_bind, Option.bind_some]
  · have htakes : reader.begin.Takes chain [] begin :=
      ⟨hreads.inv, hreads.isClient, by rw [hreads.consumed, List.append_nil]⟩
    exact h.takes htakes List.nil_prefix
  · -- the buffer may have more than the reader has been told of
    rw [h.size_eq]
    refine List.prefix_of_prefix_length_le ((List.take_prefix _ _).trans hslice) h.content_prefix ?_
    exact List.length_take_le _ _
  · exact List.take_prefix _ _
  · intro hempty
    rcases List.take_eq_nil_iff.mp hempty with hsize | hempty
    · rw [h.size_eq] at hsize
      exact List.eq_nil_of_length_eq_zero hsize
    · exact h.content_eq_nil (hreads.rest_eq_nil hempty)

theorem read_spec (hchain : chain.Inv) (h : reader.Inv chain) (limit : Nat) :
    ∃ reader' out, reader.read chain limit = some (reader', out) ∧
      reader.Moves chain out.length reader' ∧ out <+: reader.content ∧ out.length ≤ limit ∧
      (out = [] → limit = 0 ∨ reader.content = []) := by
  rcases prepareRead_spec hchain h with ⟨ready, bytes, hprepare, hmoves, hcontent, hslice, hempty⟩
  have hsame : ready.content = reader.content := hmoves.content
  have hused : (ready.begin.it.slice chain).take (bytes.take limit).length = bytes.take limit :=
    (List.prefix_iff_eq_take.mp ((List.take_prefix _ _).trans hslice)).symm
  have hfront : bytes.take limit <+: reader.content := (List.take_prefix _ _).trans hcontent
  rcases Reader.confirmRead_spec hmoves.inv.begin hmoves.inv.beginClient (bytes.take limit).length
    with ⟨begin, hconfirm, htakes⟩
  rw [hused] at hconfirm htakes
  have hlast := hmoves.inv.takes htakes (by rwa [hsame])
  refine ⟨{ ready with begin }, bytes.take limit, ?_, ?_, hfront, List.length_take_le _ _, ?_⟩
  · have hsize : (bytes.take limit).length ≤ ready.size := by
      rw [hmoves.inv.size_eq, hsame]
      exact hfront.length_le
    simp only [read, hprepare, confirmRead, if_pos hsize, hconfirm, Option.bind_eq_bind,
      Option.bind_some, Option.map_some]
  · exact ⟨hlast.inv, by rw [hlast.content, hsame], hmoves.end_, hmoves.syncFlag⟩
  · intro hnothing
    rcases List.take_eq_nil_iff.mp hnothing with hlimit | hbytes
    · exact Or.inl hlimit
    · exact Or.inr (hempty hbytes)

theorem advance_spec (hchain : chain.Inv) (h : reader.Inv chain)
    (hoffset : offset ≤ reader.content.length) (room : Nat) :
    ∃ reader', reader.advance chain offset room =
        some (reader', (reader.content.take offset).take room) ∧
      reader.Moves chain offset reader' := by
  rcases h.advance_begin hchain hoffset room with ⟨begin, hadvance, -, hmoves⟩
  refine ⟨{ reader with begin }, ?_, hmoves⟩
  rw [advance, if_pos (by rwa [h.size_eq]), hadvance, Option.map_some]

theorem readAsBufferSlice_spec (hchain : chain.Inv) (h : reader.Inv chain) (limit : Nat) :
    ∃ reader' out, reader.readAsBufferSlice chain limit = some (reader', out) ∧
      reader.Moves chain out.length reader' ∧ out <+: reader.content ∧ out.length ≤ limit ∧
      (out = [] → limit = 0 ∨ reader.content = []) := by
  rcases Reader.readAsBufferSlice_spec hchain h.begin h.beginClient (min limit reader.size)
    with ⟨begin, out, hread, htakes, hfront, hlength, hempty⟩
  rw [h.size_eq] at hlength hempty
  have hcontent : out <+: reader.content :=
    List.prefix_of_prefix_length_le hfront h.content_prefix (by omega)
  refine ⟨{ reader with begin }, out, ?_, h.takes htakes hcontent, hcontent, by omega, ?_⟩
  · simp only [readAsBufferSlice, hread, Option.bind_eq_bind, Option.bind_some]
  · intro hout
    rcases hempty hout with hzero | hrest
    · rcases Nat.min_eq_zero_iff.mp hzero with hlimit | hsize
      · exact Or.inl hlimit
      · exact Or.inr (List.eq_nil_of_length_eq_zero hsize)
    · exact Or.inr (h.content_eq_nil hrest)

/-- **The two ways of `move_as_buffer_slice` agree**: it gives all that is left. -/
theorem moveAsBufferSlice_spec (hchain : chain.Inv) (h : reader.Inv chain) :
    reader.moveAsBufferSlice chain = some reader.content := by
  unfold moveAsBufferSlice
  split
  · rename_i hone
    have hcontent : (reader.begin.rest chain).take reader.size = reader.content := by
      rw [h.size_eq, h.take_rest le_rfl, List.take_length]
    rcases Reader.readAsBufferSlice_of_le hchain h.begin h.beginClient hone with ⟨begin, hread⟩
    rw [hread, Option.map_some, hcontent]
  · rcases advance_spec hchain h le_rfl reader.size with ⟨reader', hadvance, -⟩
    rw [← h.size_eq] at hadvance
    rw [hadvance, Option.map_some, h.size_eq, List.take_length, List.take_length]

/-- `cut_head` divides a reader. -/
theorem cutHead_spec (hchain : chain.Inv) (h : reader.Inv chain)
    (hoffset : offset ≤ reader.content.length) :
    ∃ head reader', reader.cutHead chain offset = some (head, reader') ∧
      reader.Moves chain offset reader' ∧ head.Inv chain ∧
      head.content = reader.content.take offset := by
  rcases h.advance_begin hchain hoffset 0 with ⟨pos, hadvance, htakes, hmoves⟩
  refine ⟨⟨reader.begin, pos, false⟩, { reader with begin := pos }, ?_, hmoves, ?_, ?_⟩
  · rw [cutHead, if_pos (by rwa [h.size_eq]), hadvance, Option.map_some]
  · refine ⟨h.begin, htakes.inv, h.beginClient, htakes.isClient, ?_⟩
    rw [htakes.consumed, List.length_append]
    exact Nat.le_add_right _ _
  · rw [content, htakes.consumed, List.drop_left]

theorem syncWithWriter_spec (hchain : chain.Inv) (h : reader.Inv chain)
    (hsync : reader.syncFlag = true) :
    ∃ reader', reader.syncWithWriter chain = some reader' ∧ reader'.Inv chain ∧
      reader'.content = reader.content ++ reader.end_.rest chain ∧
      reader'.end_.consumed = chain.appended ∧ reader'.syncFlag = true := by
  rcases Reader.advanceTillEnd_spec hchain h.end_ h.endClient with ⟨end_, hend, htakes⟩
  have hconsumed : end_.consumed = chain.appended := by
    rw [htakes.consumed, h.end_.consumed_rest]
  refine ⟨{ reader with end_ }, ?_, ?_, ?_, hconsumed, hsync⟩
  · rw [syncWithWriter, if_pos hsync, hend, Option.map_some]
  · refine ⟨h.begin, htakes.inv, h.beginClient, htakes.isClient, ?_⟩
    rw [hconsumed]
    exact h.begin.consumed_prefix.length_le
  · rw [content, htakes.consumed, content, List.drop_append_of_le_length h.le]

end ChainBufferReader

/-! ## What it is for -/

/-- The calls that can be made of a writer and of its reader. -/
inductive Call where
  | append (slice : Bytes) (hint : Nat)
  | appendBufferSlice (slice : Bytes)
  | close
  | syncWithWriter
  | read (limit : Nat)
  | readAsBufferSlice (limit : Nat)
  | advance (offset room : Nat)
  /-- `cut_head(offset)`, with `move_as_buffer_slice` of the head -/
  | cutHead (offset : Nat)
deriving DecidableEq, Repr

namespace Call

/-- What a call puts in. -/
def input : Call → Bytes
  | append slice _ => slice
  | appendBufferSlice slice => slice
  | _ => []

/-- Only `advance` can drop bytes: those that it is given no room for. -/
def Keeps : Call → Prop
  | advance offset room => offset ≤ room
  | _ => True

end Call

/-- A queue: what can be read, and what has been appended since its reader last
synchronized. -/
structure Fifo where
  ready : Bytes
  pending : Bytes
  closed : Bool
deriving DecidableEq, Repr

namespace Fifo

def empty : Fifo := ⟨[], [], false⟩

/-- A call with its result. Of a reader's bytes a call gives some, from the
front; it gives none only when it was asked for none or has none. -/
def step (fifo : Fifo) : Call × Bytes → Option Fifo
  | (.append slice _, out) | (.appendBufferSlice slice, out) =>
      if fifo.closed = false ∧ out = [] then some { fifo with pending := fifo.pending ++ slice }
      else none
  | (.close, out) =>
      if fifo.closed = false ∧ out = [] then some { fifo with closed := true } else none
  | (.syncWithWriter, out) =>
      if out = [] then some { fifo with ready := fifo.ready ++ fifo.pending, pending := [] }
      else none
  | (.read limit, out) | (.readAsBufferSlice limit, out) =>
      if out <+: fifo.ready ∧ out.length ≤ limit ∧ (out = [] → limit = 0 ∨ fifo.ready = []) then
        some { fifo with ready := fifo.ready.drop out.length }
      else none
  | (.advance offset room, out) =>
      if offset ≤ fifo.ready.length ∧ out = (fifo.ready.take offset).take room then
        some { fifo with ready := fifo.ready.drop offset }
      else none
  | (.cutHead offset, out) =>
      if offset ≤ fifo.ready.length ∧ out = fifo.ready.take offset then
        some { fifo with ready := fifo.ready.drop offset }
      else none

/-- The calls that a queue accepts. -/
def Accepts (fifo : Fifo) : Call → Prop
  | .append _ _ | .appendBufferSlice _ | .close => fifo.closed = false
  | .advance offset _ | .cutHead offset => offset ≤ fifo.ready.length
  | _ => True

variable {fifo fifo' : Fifo} {call : Call} {out : Bytes} {ops : List (Call × Bytes)}

/-- What a queue holds is what was put in and has not come out. -/
theorem step_account (hstep : fifo.step (call, out) = some fifo') (hkeeps : call.Keeps) :
    out ++ (fifo'.ready ++ fifo'.pending) = (fifo.ready ++ fifo.pending) ++ call.input := by
  cases call with
  | append slice hint | appendBufferSlice slice =>
      rcases Option.ite_none_right_eq_some.mp hstep with ⟨⟨-, rfl⟩, hfifo⟩
      cases hfifo
      simp [Call.input]
  | close =>
      rcases Option.ite_none_right_eq_some.mp hstep with ⟨⟨-, rfl⟩, hfifo⟩
      cases hfifo
      simp [Call.input]
  | syncWithWriter =>
      rcases Option.ite_none_right_eq_some.mp hstep with ⟨rfl, hfifo⟩
      cases hfifo
      simp [Call.input]
  | read limit | readAsBufferSlice limit =>
      rcases Option.ite_none_right_eq_some.mp hstep with ⟨⟨⟨rest, hrest⟩, -⟩, hfifo⟩
      cases hfifo
      simp [Call.input, ← hrest]
  | advance offset room =>
      rcases Option.ite_none_right_eq_some.mp hstep with ⟨⟨hoffset, rfl⟩, hfifo⟩
      cases hfifo
      have hroom : offset ≤ room := hkeeps
      simp only [Call.input, List.append_nil]
      rw [List.take_take, Nat.min_eq_right hroom, ← List.append_assoc, List.take_append_drop]
  | cutHead offset =>
      rcases Option.ite_none_right_eq_some.mp hstep with ⟨⟨hoffset, rfl⟩, hfifo⟩
      cases hfifo
      simp only [Call.input, List.append_nil]
      rw [← List.append_assoc, List.take_append_drop]

theorem run_account (hrun : Steps.run step fifo ops = some fifo')
    (hkeeps : ∀ op ∈ ops, op.1.Keeps) :
    ops.flatMap Prod.snd ++ (fifo'.ready ++ fifo'.pending) =
      (fifo.ready ++ fifo.pending) ++ ops.flatMap fun op => op.1.input := by
  induction ops generalizing fifo with
  | nil =>
      cases hrun
      simp
  | cons op ops ih =>
      -- the first call accounts for its own output, the others for the rest
      rcases Steps.run_cons_eq_some_iff.mp hrun with ⟨middle, hstep, hrest⟩
      have hfirst := step_account hstep (hkeeps op (by simp))
      have hlast := ih hrest fun op hop => hkeeps op (by simp [hop])
      rw [List.flatMap_cons, List.flatMap_cons, List.append_assoc, hlast, ← List.append_assoc, hfirst,
        List.append_assoc]

end Fifo

/-! ## A writer and its reader -/

structure Queue where
  chain : Chain
  reader : ChainBufferReader
deriving DecidableEq, Repr

namespace Queue

variable (alloc : Allocator)

/-- A call of the writer, which has not been destroyed. -/
def write (queue : Queue) (operation : Chain → Option Chain) : Option (Queue × Bytes) :=
  if queue.chain.closed then none
  else (operation queue.chain).map fun chain => ({ queue with chain }, [])

/-- A call, and what it gives. -/
def call (queue : Queue) : Call → Option (Queue × Bytes)
  | .append slice hint => queue.write fun chain => chain.append alloc slice hint
  | .appendBufferSlice slice => queue.write fun chain => chain.appendBufferSlice alloc slice
  | .close => queue.write fun chain => chain.step .close
  | .syncWithWriter =>
      (queue.reader.syncWithWriter queue.chain).map fun reader => ({ queue with reader }, [])
  | .read limit =>
      (queue.reader.read queue.chain limit).map fun (reader, out) => ({ queue with reader }, out)
  | .readAsBufferSlice limit =>
      (queue.reader.readAsBufferSlice queue.chain limit).map fun (reader, out) =>
        ({ queue with reader }, out)
  | .advance offset room =>
      (queue.reader.advance queue.chain offset room).map fun (reader, out) =>
        ({ queue with reader }, out)
  | .cutHead offset => do
      let (head, reader) ← queue.reader.cutHead queue.chain offset
      let out ← head.moveAsBufferSlice queue.chain
      some ({ queue with reader }, out)

def step (queue : Queue) (op : Call × Bytes) : Option Queue :=
  (queue.call alloc op.1).bind fun (queue, out) => if out = op.2 then some queue else none

/-- A run of calls, each with what it gave, on a new chain and its reader. -/
def run (size : Nat) (ops : List (Call × Bytes)) : Option Queue :=
  let chain := Chain.init (alloc.dataSize size)
  (ChainBufferReader.new chain).bind fun reader => Steps.run (step alloc) ⟨chain, reader⟩ ops

/-- What relates a chain and its reader to a queue. -/
structure Refines (queue : Queue) (fifo : Fifo) : Prop where
  chain : queue.chain.Inv
  next : queue.chain.next = none
  closed : queue.chain.closed = fifo.closed
  reader : queue.reader.Inv queue.chain
  syncFlag : queue.reader.syncFlag = true
  ready : queue.reader.content = fifo.ready
  pending : queue.reader.end_.consumed ++ fifo.pending = queue.chain.appended

variable {alloc} {queue queue' : Queue} {fifo : Fifo} {c : Call} {chain : Chain}
  {reader : ChainBufferReader} {bytes : Bytes} {size : Nat} {ops : List (Call × Bytes)}

theorem Refines.idle (h : queue.Refines fifo) (hopen : fifo.closed = false) : queue.chain.Idle :=
  ⟨h.chain, h.next, h.closed.trans hopen⟩

theorem Refines.appends (h : queue.Refines fifo) (happends : queue.chain.Appends bytes chain)
    (hopen : fifo.closed = false) :
    Refines { queue with chain } { fifo with pending := fifo.pending ++ bytes } where
  chain := happends.idle.inv
  next := happends.idle.next
  closed := happends.idle.opened.trans hopen.symm
  reader := h.reader.grows (happends.grows h.chain)
  syncFlag := h.syncFlag
  ready := h.ready
  pending := by
    show queue.reader.end_.consumed ++ (fifo.pending ++ bytes) = chain.appended
    rw [← List.append_assoc, h.pending, happends.appended]

theorem Refines.moves (h : queue.Refines fifo)
    (hmoves : queue.reader.Moves queue.chain size reader) :
    Refines { queue with reader } { fifo with ready := fifo.ready.drop size } where
  chain := h.chain
  next := h.next
  closed := h.closed
  reader := hmoves.inv
  syncFlag := hmoves.syncFlag.trans h.syncFlag
  ready := by
    show reader.content = fifo.ready.drop size
    rw [hmoves.content, h.ready]
  pending := by
    show reader.end_.consumed ++ fifo.pending = queue.chain.appended
    rw [hmoves.end_, h.pending]

theorem Refines.close (h : queue.Refines fifo) (hopen : fifo.closed = false) :
    ∃ chain, queue.chain.step .close = some chain ∧
      Refines { queue with chain } { fifo with closed := true } := by
  have hclosed := h.closed.trans hopen
  have hstep : queue.chain.step .close = some
      { queue.chain with tail := { queue.chain.tail with hasWriter := false }, closed := true } := by
    simp [Chain.step, h.next, hclosed]
  have hstored := Chain.stored_of_step hstep
  refine ⟨_, hstep, hstored.inv h.chain, h.next, rfl, h.reader.grows (hstored.grows h.chain),
    h.syncFlag, h.ready, ?_⟩
  rw [h.pending, hstored.appended]
  simp [Chain.newBytes]

/-- What `write` does when the writer is there. -/
theorem Refines.write_eq (h : queue.Refines fifo) (hopen : fifo.closed = false)
    (operation : Chain → Option Chain) (hoperation : operation queue.chain = some chain) :
    queue.write operation = some ({ queue with chain }, []) := by
  rw [write, h.closed, hopen, if_neg Bool.false_ne_true, hoperation, Option.map_some]

theorem Refines.write_eq_none (h : queue.Refines fifo) (hclosed : fifo.closed ≠ false)
    (operation : Chain → Option Chain) : queue.write operation = none := by
  rw [write, h.closed, if_pos (by simpa using hclosed)]

/-- **Every call that the queue accepts** returns, and does what the queue does. -/
theorem Refines.accepted (alloc : Allocator) (h : queue.Refines fifo) (haccepts : fifo.Accepts c) :
    ∃ queue' out fifo', queue.call alloc c = some (queue', out) ∧
      fifo.step (c, out) = some fifo' ∧ queue'.Refines fifo' := by
  cases c with
  | append slice hint =>
      rcases Chain.append_spec alloc (h.idle haccepts) slice hint
        with ⟨chain, happend, happends⟩
      have hcall := h.write_eq haccepts (fun chain => chain.append alloc slice hint) happend
      exact ⟨_, _, _, hcall, if_pos ⟨haccepts, rfl⟩, h.appends happends haccepts⟩
  | appendBufferSlice slice =>
      rcases Chain.appendBufferSlice_spec alloc (h.idle haccepts) slice
        with ⟨chain, happend, happends⟩
      have hcall := h.write_eq haccepts (fun chain => chain.appendBufferSlice alloc slice) happend
      exact ⟨_, _, _, hcall, if_pos ⟨haccepts, rfl⟩, h.appends happends haccepts⟩
  | close =>
      rcases h.close haccepts with ⟨chain, hclose, hrefines⟩
      have hcall := h.write_eq haccepts (fun chain => chain.step .close) hclose
      exact ⟨_, _, _, hcall, if_pos ⟨haccepts, rfl⟩, hrefines⟩
  | syncWithWriter =>
      rcases ChainBufferReader.syncWithWriter_spec h.chain h.reader h.syncFlag
        with ⟨reader, hsync, hinv, hcontent, hconsumed, hflag⟩
      have hrest : queue.reader.end_.rest queue.chain = fifo.pending := by
        have hpending := h.pending
        rw [← h.reader.end_.consumed_rest] at hpending
        exact (List.append_cancel_left hpending).symm
      rw [hrest, h.ready] at hcontent
      refine ⟨_, _, _, by rw [call, hsync]; rfl, if_pos rfl, ?_⟩
      exact ⟨h.chain, h.next, h.closed, hinv, hflag, hcontent, by simp [hconsumed]⟩
  | read limit =>
      rcases ChainBufferReader.read_spec h.chain h.reader limit
        with ⟨reader, out, hread, hmoves, hfront, hlength, hempty⟩
      rw [h.ready] at hfront hempty
      exact ⟨_, _, _, by rw [call, hread]; rfl, if_pos ⟨hfront, hlength, hempty⟩,
        h.moves hmoves⟩
  | readAsBufferSlice limit =>
      rcases ChainBufferReader.readAsBufferSlice_spec h.chain h.reader limit
        with ⟨reader, out, hread, hmoves, hfront, hlength, hempty⟩
      rw [h.ready] at hfront hempty
      exact ⟨_, _, _, by rw [call, hread]; rfl, if_pos ⟨hfront, hlength, hempty⟩,
        h.moves hmoves⟩
  | advance offset room =>
      have hoffset : offset ≤ queue.reader.content.length := by rwa [h.ready]
      rcases ChainBufferReader.advance_spec h.chain h.reader hoffset room
        with ⟨reader, hadvance, hmoves⟩
      rw [h.ready] at hadvance
      exact ⟨_, _, _, by rw [call, hadvance]; rfl, if_pos ⟨haccepts, rfl⟩, h.moves hmoves⟩
  | cutHead offset =>
      have hoffset : offset ≤ queue.reader.content.length := by rwa [h.ready]
      rcases ChainBufferReader.cutHead_spec h.chain h.reader hoffset
        with ⟨head, reader, hcut, hmoves, hhead, hcontent⟩
      have hmove := ChainBufferReader.moveAsBufferSlice_spec h.chain hhead
      rw [hcontent, h.ready] at hmove
      refine ⟨_, _, _, ?_, if_pos ⟨haccepts, rfl⟩, h.moves hmoves⟩
      simp only [call, hcut, hmove, Option.bind_eq_bind, Option.bind_some]

/-- A call that it does not accept fails a check. -/
theorem Refines.refused (alloc : Allocator) (h : queue.Refines fifo) (haccepts : ¬ fifo.Accepts c) :
    queue.call alloc c = none := by
  cases c with
  | append slice hint =>
      exact h.write_eq_none haccepts fun chain => chain.append alloc slice hint
  | appendBufferSlice slice =>
      exact h.write_eq_none haccepts fun chain => chain.appendBufferSlice alloc slice
  | close => exact h.write_eq_none haccepts fun chain => chain.step .close
  | syncWithWriter => exact absurd trivial haccepts
  | read limit => exact absurd trivial haccepts
  | readAsBufferSlice limit => exact absurd trivial haccepts
  | advance offset room =>
      rw [call, ChainBufferReader.advance, if_neg, Option.map_none]
      rwa [h.reader.size_eq, h.ready]
  | cutHead offset =>
      rw [call, ChainBufferReader.cutHead, if_neg]
      · rfl
      · rwa [h.reader.size_eq, h.ready]

theorem Refines.call_isSome_iff (alloc : Allocator) (h : queue.Refines fifo) (c : Call) :
    (queue.call alloc c).isSome ↔ fifo.Accepts c := by
  by_cases haccepts : fifo.Accepts c
  · rcases h.accepted alloc haccepts with ⟨queue', out, fifo', hcall, -, -⟩
    simp [hcall, haccepts]
  · simp [h.refused alloc haccepts, haccepts]

theorem Refines.step (h : queue.Refines fifo) {op : Call × Bytes}
    (hstep : queue.step alloc op = some queue') :
    ∃ fifo', fifo.step op = some fifo' ∧ queue'.Refines fifo' := by
  rcases op with ⟨c, out⟩
  rcases Option.bind_eq_some_iff.mp hstep with ⟨⟨next, given⟩, hcall, hnext⟩
  rcases Option.ite_none_right_eq_some.mp hnext with ⟨rfl, hqueue⟩
  cases hqueue
  by_cases haccepts : fifo.Accepts c
  · rcases h.accepted alloc haccepts with ⟨queue', out, fifo', hcall', hfifo, hrefines⟩
    cases hcall.symm.trans hcall'
    exact ⟨fifo', hfifo, hrefines⟩
  · cases (h.refused alloc haccepts).symm.trans hcall

theorem refines_init (dataSize : Nat) :
    ∃ reader, ChainBufferReader.new (.init dataSize) = some reader ∧
      Refines ⟨.init dataSize, reader⟩ .empty := by
  have hchain := Chain.inv_init dataSize
  rcases ChainBufferReader.new_spec hchain with ⟨reader, hreader, hinv, hcontent, hflag, hconsumed⟩
  exact ⟨reader, hreader, hchain, rfl, rfl, hinv, hflag, hcontent, by simp [hconsumed, Fifo.empty]⟩

/-- A run, and what a queue does on it. -/
theorem run_simulation (hrun : run alloc size ops = some queue) :
    ∃ fifo, Steps.run Fifo.step .empty ops = some fifo ∧ queue.Refines fifo := by
  rcases refines_init (alloc.dataSize size) with ⟨reader, hreader, hinit⟩
  simp only [run, hreader, Option.bind_some] at hrun
  exact Steps.run_simulation (fun _ _ _ _ h hstep => h.step hstep) hrun hinit

/-! ## Runs -/

/-- Twice as much as fits into the first buffer. The part that is cut off has
bytes of two nodes. -/
def calls : List (Call × Bytes) :=
  [(.append [1, 2, 3, 4, 5, 6] 0, []), (.syncWithWriter, []), (.read 3, [1, 2, 3]),
    (.cutHead 2, [4, 5]), (.append [7] 0, []), (.advance 1 1, [6]), (.close, []),
    (.syncWithWriter, [])]

/-- An allocator of buffers of three bytes, or as many as there have to be. -/
def small : Allocator := ⟨max 3, fun size => le_max_right 3 size⟩

theorem run_calls :
    ∃ queue, run small 0 calls = some queue ∧ queue.reader.content = [7] ∧
      queue.reader.end_.rest queue.chain = [] ∧ queue.chain.closed = true := by
  have hrun : ((run small 0 calls).any fun queue =>
      queue.reader.content == [7] && queue.reader.end_.rest queue.chain == [] &&
        queue.chain.closed) = true := by decide +kernel
  rcases (Option.any_eq_true _ _).mp hrun with ⟨queue, hqueue, hall⟩
  simp only [Bool.and_eq_true, beq_iff_eq] at hall
  exact ⟨queue, hqueue, hall.1.1, hall.1.2, hall.2⟩

/-- **A chain of buffers is a queue.** Whatever is called, in any order, gives what
a queue could have given, and leaves the reader with what the queue has ready. A
further call fails a check, or does not return, only when it asks for more than is
ready or is made of a writer that is gone. -/
theorem fifo_of_run (hrun : run alloc size ops = some queue) :
    ∃ fifo, Steps.run Fifo.step .empty ops = some fifo ∧
      queue.reader.content = fifo.ready ∧ queue.reader.size = fifo.ready.length ∧
      queue.reader.end_.consumed ++ fifo.pending = queue.chain.appended ∧
      ∀ c, (queue.call alloc c).isSome ↔ fifo.Accepts c := by
  rcases run_simulation hrun with ⟨fifo, hfifo, hrefines⟩
  refine ⟨fifo, hfifo, hrefines.ready, ?_, hrefines.pending, hrefines.call_isSome_iff alloc⟩
  rw [hrefines.reader.size_eq, hrefines.ready]

theorem fifo_of_calls :
    ∃ queue fifo, run small 0 calls = some queue ∧ Steps.run Fifo.step .empty calls = some fifo ∧
      fifo.ready = [7] ∧ ((queue.call small (.cutHead 1)).isSome ↔ fifo.Accepts (.cutHead 1)) := by
  rcases run_calls with ⟨queue, hrun, hcontent, -⟩
  rcases fifo_of_run hrun with ⟨fifo, hfifo, hready, -, -, hcall⟩
  exact ⟨queue, fifo, hrun, hfifo, hready.symm.trans hcontent, hcall _⟩

/-- **What goes in comes out**, in its order: what the calls gave, what is ready and
what is not yet visible are together what was appended. -/
theorem outputs_append_eq_inputs (hrun : run alloc size ops = some queue)
    (hkeeps : ∀ op ∈ ops, op.1.Keeps) :
    ops.flatMap Prod.snd ++ (queue.reader.content ++ queue.reader.end_.rest queue.chain) =
      ops.flatMap fun op => op.1.input := by
  rcases run_simulation hrun with ⟨fifo, hfifo, hrefines⟩
  have haccount := Fifo.run_account hfifo hkeeps
  have hrest : queue.reader.end_.rest queue.chain = fifo.pending := by
    rw [Reader.rest, ← hrefines.pending, List.drop_left]
  rw [hrefines.ready, hrest, haccount]
  rfl

theorem account_calls :
    ∃ queue, run small 0 calls = some queue ∧
      [1, 2, 3, 4, 5, 6] ++ queue.reader.content = [1, 2, 3, 4, 5, 6, 7] := by
  rcases run_calls with ⟨queue, hrun, -, hrest, -⟩
  have hkeeps : ∀ op ∈ calls, op.1.Keeps := by
    intro op hop
    simp only [calls, List.mem_cons, List.not_mem_nil, or_false] at hop
    rcases hop with rfl | rfl | rfl | rfl | rfl | rfl | rfl | rfl <;> simp [Call.Keeps]
  have haccount := outputs_append_eq_inputs hrun hkeeps
  rw [hrest, List.append_nil] at haccount
  exact ⟨queue, hrun, haccount⟩

/-! ## From one chain into another -/

variable (alloc) in
/-- The loop of `append(ChainBufferReader &)`. It sets no limit, so that its limit
is the size of the reader. -/
def appendReaderLoop (source : Chain) :
    Nat → Chain → ChainBufferReader → Option (Chain × ChainBufferReader)
  | fuel, chain, reader =>
      if reader.size = 0 then some (chain, reader)
      else
        match fuel with
        | 0 => none
        | fuel + 1 => do
            let (reader, slice) ← reader.readAsBufferSlice source reader.size
            let chain ← chain.appendBufferSlice alloc slice
            appendReaderLoop source fuel chain reader

variable (alloc) in
def appendReader (source chain : Chain) (reader : ChainBufferReader) :
    Option (Chain × ChainBufferReader) :=
  appendReaderLoop alloc source reader.size chain reader

section

variable {source : Chain} {fuel : Nat}

/-- An empty reader adds nothing. -/
theorem appendReaderLoop_of_size (hreader : reader.Inv source) (h : chain.Idle)
    (hsize : reader.size = 0) :
    appendReaderLoop alloc source fuel chain reader = some (chain, reader) ∧
      chain.Appends reader.content chain ∧ reader.Moves source reader.content.length reader := by
  have hempty : reader.content = [] := by
    rw [hreader.size_eq] at hsize
    exact List.eq_nil_of_length_eq_zero hsize
  rw [hempty]
  refine ⟨?_, .refl h, hreader, rfl, rfl, rfl⟩
  unfold appendReaderLoop
  exact if_pos hsize

theorem appendReaderLoop_spec (alloc : Allocator) (hsource : source.Inv)
    (hreader : reader.Inv source) (h : chain.Idle)
    (hfuel : reader.size ≤ fuel) :
    ∃ chain' reader', appendReaderLoop alloc source fuel chain reader = some (chain', reader') ∧
      chain.Appends reader.content chain' ∧
      reader.Moves source reader.content.length reader' := by
  induction fuel generalizing chain reader with
  | zero => exact ⟨chain, reader, appendReaderLoop_of_size hreader h (Nat.le_zero.mp hfuel)⟩
  | succ fuel ih =>
      by_cases hsize : reader.size = 0
      · exact ⟨chain, reader, appendReaderLoop_of_size hreader h hsize⟩
      · rcases ChainBufferReader.readAsBufferSlice_spec hsource hreader reader.size
          with ⟨next, slice, hread, hmoves, ⟨rest, hrest⟩, -, hempty⟩
        -- there is a piece, so that the reader gets shorter
        have hslice : 0 < slice.length := by
          rw [List.length_pos_iff]
          intro hnothing
          rw [hreader.size_eq] at hsize
          rcases hempty hnothing with hzero | hcontent
          · exact hsize (hreader.size_eq.symm.trans hzero)
          · exact hsize (by rw [hcontent, List.length_nil])
        have hnext : next.content = rest := by rw [hmoves.content, ← hrest, List.drop_left]
        have hshorter : next.size ≤ fuel := by
          rw [hreader.size_eq, ← hrest, List.length_append] at hfuel
          rw [hmoves.inv.size_eq, hnext]
          omega
        rcases Chain.appendBufferSlice_spec alloc h slice with ⟨middle, happend, happends⟩
        rcases ih hmoves.inv happends.idle hshorter with ⟨chain', reader', hloop, hlast, hmoves'⟩
        rw [hnext] at hlast hmoves'
        refine ⟨chain', reader', ?_, ?_, hmoves'.inv, ?_, ?_, ?_⟩
        · rw [appendReaderLoop, if_neg hsize]
          simp only [hread, happend, hloop, Option.bind_eq_bind, Option.bind_some]
        · rw [← hrest]
          exact happends.trans hlast
        · rw [hmoves'.content, hnext, List.drop_length, List.drop_length]
        · rw [hmoves'.end_, hmoves.end_]
        · rw [hmoves'.syncFlag, hmoves.syncFlag]

/-- **A reader can be emptied into another chain**: the loop ends, and all that the
reader had is at the end of that chain, as if it had been appended at once. -/
theorem appendReader_spec {alloc' : Allocator} {size' : Nat} {ops' : List (Call × Bytes)}
    {target : Queue} (hrun : run alloc size ops = some queue)
    (hrun' : run alloc' size' ops' = some target) (hopen : target.chain.closed = false) :
    ∃ chain reader,
      appendReader alloc' queue.chain target.chain queue.reader = some (chain, reader) ∧
      chain.appended = target.chain.appended ++ queue.reader.content ∧
      reader.content = [] ∧ reader.end_ = queue.reader.end_ ∧
      ∃ stores, Steps.run Chain.step target.chain stores = some chain := by
  rcases run_simulation hrun with ⟨_, _, hrefines⟩
  rcases run_simulation hrun' with ⟨fifo, _, htarget⟩
  have hidle := htarget.idle (htarget.closed.symm.trans hopen)
  rcases appendReaderLoop_spec alloc' hrefines.chain hrefines.reader hidle le_rfl
    with ⟨chain, reader, hloop, happends, hmoves⟩
  refine ⟨chain, reader, hloop, happends.appended, ?_, hmoves.end_, happends.stores⟩
  rw [hmoves.content, List.drop_length]

theorem appendReader_calls :
    ∃ queue target chain reader, run small 0 calls = some queue ∧
      run small 0 [(.append [5] 0, [])] = some target ∧
      appendReader small queue.chain target.chain queue.reader = some (chain, reader) ∧
      chain.appended = target.chain.appended ++ [7] := by
  rcases run_calls with ⟨queue, hrun, hcontent, -⟩
  have htarget :
      ((run small 0 [(.append [5] 0, [])]).any fun queue => !queue.chain.closed) = true := by
    decide +kernel
  rcases (Option.any_eq_true _ _).mp htarget with ⟨target, hrun', hopen⟩
  rcases appendReader_spec hrun hrun' (by simpa using hopen)
    with ⟨chain, reader, happend, happended, -⟩
  rw [hcontent] at happended
  exact ⟨queue, target, chain, reader, hrun, hrun', happend, happended⟩

end

end Queue

end TonEncoder.ChainBuffer
