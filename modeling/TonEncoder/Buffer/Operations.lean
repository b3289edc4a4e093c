import TonEncoder.Buffer.Readers

/-! # Operations on a chain of buffers

What a `ChainBufferWriter` and a `ChainBufferIterator` do in one call, made of
the stores and the loads that the other modules have one by one.

* `Chain.append`, `Chain.appendBufferSlice`: the writer fills the buffer it has,
  and links a new node when there is no room.
* `Reader.read`, `Reader.advance`: the iterator, while the writer does nothing.
* `System.isClient_of_run`: and while the writer does anything, a call of the
  iterator ends.
-/

namespace TonEncoder.ChainBuffer

open Process

/-! ## Appending -/

/-- `BufferAllocator`, which makes buffers of at least the size it is asked for. -/
structure Allocator where
  dataSize : Nat → Nat
  le_dataSize : ∀ size, size ≤ dataSize size

namespace Chain

variable (alloc : Allocator)

def prepareAppendAlloc (chain : Chain) (hint : Nat) : Option Chain := do
  let size := if hint < 1 <<< 10 then 1 <<< 12 else hint
  let chain ← chain.step (.link (.ofBuffer (alloc.dataSize size)))
  chain.step .release

def prepareAppend (chain : Chain) (hint : Nat) : Option Chain :=
  if chain.closed then none
  else if chain.room = 0 then chain.prepareAppendAlloc alloc hint
  else some chain

/-- The loop of `append(Slice, hint)`. -/
def appendLoop (hint : Nat) : Nat → Chain → Bytes → Option Chain
  | fuel, chain, slice =>
      if slice.isEmpty then some chain
      else
        match fuel with
        | 0 => none
        | fuel + 1 => do
            let chain ← chain.prepareAppend alloc (max slice.length hint)
            let shift := min chain.room slice.length
            let chain ← chain.step (.confirmAppend (slice.take shift))
            appendLoop hint fuel chain (slice.drop shift)

def append (chain : Chain) (slice : Bytes) (hint : Nat) : Option Chain :=
  appendLoop alloc hint slice.length chain slice

/-- `append(BufferSlice)`: a long slice becomes a node. -/
def appendBufferSlice (chain : Chain) (slice : Bytes) : Option Chain :=
  if chain.closed then none
  else if slice.length < 1 <<< 8 ∨ slice.length ≤ chain.room then chain.append alloc slice 0
  else do
    let chain ← chain.step (.link (.ofSlice slice))
    chain.step .release

/-! ### What they come to -/

/-- The writer is alive and in none of its operations. -/
structure Idle (chain : Chain) : Prop where
  inv : chain.Inv
  next : chain.next = none
  opened : chain.closed = false

/-- An operation of the writer: some stores, after which the bytes are at the end
of the chain. -/
structure Appends (chain : Chain) (bytes : Bytes) (chain' : Chain) : Prop where
  stores : ∃ stores, Steps.run step chain stores = some chain'
  appended : chain'.appended = chain.appended ++ bytes
  idle : chain'.Idle

variable {chain chain' chain'' : Chain} {slice bytes bytes' : Bytes} {hint fuel : Nat}

theorem Appends.refl (h : chain.Idle) : chain.Appends [] chain where
  stores := ⟨[], rfl⟩
  appended := (List.append_nil _).symm
  idle := h

theorem Appends.trans (h : chain.Appends bytes chain') (h' : chain'.Appends bytes' chain'') :
    chain.Appends (bytes ++ bytes') chain'' where
  stores := by
    rcases h.stores with ⟨stores, hrun⟩
    rcases h'.stores with ⟨stores', hrun'⟩
    exact ⟨stores ++ stores', Steps.run_append_eq_some_iff.mpr ⟨chain', hrun, hrun'⟩⟩
  appended := by rw [h'.appended, h.appended, List.append_assoc]
  idle := h'.idle

/-- The readers see an operation as they see its stores. -/
theorem Appends.grows (h : chain.Appends bytes chain') (hinv : chain.Inv) :
    chain.Grows chain' := by
  rcases h.stores with ⟨stores, hrun⟩
  refine Steps.run_le Grows Grows.refl Grows.trans ?_ hrun hinv
  intro chain store chain' hchain hstep
  have hstored := stored_of_step hstep
  exact ⟨hstored.inv hchain, hstored.grows hchain⟩

/-- To leave the tail for a new node. -/
theorem link_release (h : chain.Idle) (node : Node) (hwriter : node.hasWriter = true) :
    ∃ chain', ((chain.step (.link node)).bind fun chain => chain.step .release) = some chain' ∧
      chain.Appends node.data chain' ∧ chain'.tail = node := by
  have hlink : chain.step (.link node) = some { chain with next := some node } := by
    simp [step, h.next, h.opened, hwriter]
  have hrelease : ({ chain with next := some node } : Chain).step .release =
      some ⟨chain.older ++ [{ chain.tail with hasWriter := false }], node, none, chain.closed⟩ := rfl
  have hlinked := stored_of_step hlink
  have hreleased := stored_of_step hrelease
  refine ⟨_, by rw [hlink, Option.bind_some, hrelease], ?_, rfl⟩
  constructor
  case stores => exact ⟨[.link node, .release], by simp [Steps.run, hlink, hrelease]⟩
  case appended => simp [hreleased.appended, hlinked.appended, newBytes]
  case idle => exact ⟨hreleased.inv (hlinked.inv h.inv), rfl, h.opened⟩

theorem prepareAppendAlloc_spec (h : chain.Idle) (hint : Nat) :
    ∃ chain', chain.prepareAppendAlloc alloc hint = some chain' ∧ chain.Appends [] chain' ∧
      0 < chain'.room := by
  rcases link_release h (.ofBuffer (alloc.dataSize (if hint < 1 <<< 10 then 1 <<< 12 else hint))) rfl
    with ⟨chain', hchain', happends, htail⟩
  refine ⟨chain', hchain', happends, ?_⟩
  have hroom := alloc.le_dataSize (if hint < 1 <<< 10 then 1 <<< 12 else hint)
  rw [room, htail]
  simp only [Node.ofBuffer, if_true, List.length_nil, Nat.sub_zero]
  split at hroom <;> split <;> omega

/-- There is room after `prepare_append`. -/
theorem prepareAppend_spec (h : chain.Idle) (hint : Nat) :
    ∃ chain', chain.prepareAppend alloc hint = some chain' ∧ chain.Appends [] chain' ∧
      0 < chain'.room := by
  rw [prepareAppend, h.opened, if_neg Bool.false_ne_true]
  split
  · exact prepareAppendAlloc_spec alloc h hint
  · exact ⟨chain, rfl, .refl h, by omega⟩

theorem confirmAppend_spec (h : chain.Idle) (hroom : bytes.length ≤ chain.room) :
    ∃ chain', chain.step (.confirmAppend bytes) = some chain' ∧ chain.Appends bytes chain' := by
  have hstep : chain.step (.confirmAppend bytes) = some
      { chain with tail := { chain.tail with data := chain.tail.data ++ bytes } } := by
    simp [step, h.next, h.opened, hroom]
  have hstored := stored_of_step hstep
  refine ⟨_, hstep, ⟨⟨[.confirmAppend bytes], by simp [Steps.run, hstep]⟩, hstored.appended, ?_⟩⟩
  exact ⟨hstored.inv h.inv, h.next, h.opened⟩

theorem appendLoop_spec (h : chain.Idle) (hfuel : slice.length ≤ fuel) :
    ∃ chain', appendLoop alloc hint fuel chain slice = some chain' ∧
      chain.Appends slice chain' := by
  induction fuel generalizing chain slice with
  | zero =>
      obtain rfl := List.eq_nil_of_length_eq_zero (Nat.le_zero.mp hfuel)
      exact ⟨chain, rfl, .refl h⟩
  | succ fuel ih =>
      unfold appendLoop
      split
      · rename_i hempty
        rw [List.isEmpty_iff.mp hempty]
        exact ⟨chain, rfl, .refl h⟩
      · rename_i hempty
        have hslice : 0 < slice.length := by
          rw [List.length_pos_iff]
          simpa using hempty
        rcases prepareAppend_spec alloc h (max slice.length hint)
          with ⟨ready, hready, hprepared, hroom⟩
        have hshift : (slice.take (min ready.room slice.length)).length ≤ ready.room := by
          rw [List.length_take]
          omega
        rcases confirmAppend_spec hprepared.idle hshift with ⟨copied, hcopied, happends⟩
        have hrest : (slice.drop (min ready.room slice.length)).length ≤ fuel := by
          rw [List.length_drop]
          omega
        rcases ih happends.idle hrest with ⟨chain', hchain', hlast⟩
        refine ⟨chain', ?_, ?_⟩
        · simp only [hready, hcopied, hchain', Option.bind_eq_bind, Option.bind_some]
        · have hall := (hprepared.trans happends).trans hlast
          rwa [List.nil_append, List.take_append_drop] at hall

/-- **`append` appends**, in as many pieces as there have to be. -/
theorem append_spec (h : chain.Idle) (slice : Bytes) (hint : Nat) :
    ∃ chain', chain.append alloc slice hint = some chain' ∧ chain.Appends slice chain' :=
  appendLoop_spec alloc h le_rfl

theorem appendBufferSlice_spec (h : chain.Idle) (slice : Bytes) :
    ∃ chain', chain.appendBufferSlice alloc slice = some chain' ∧ chain.Appends slice chain' := by
  rw [appendBufferSlice, h.opened, if_neg Bool.false_ne_true]
  split
  · exact append_spec alloc h slice 0
  · rcases link_release h (.ofSlice slice) rfl with ⟨chain', hchain', happends, -⟩
    exact ⟨chain', hchain', happends⟩

end Chain

/-! ## Reading while the writer does nothing -/

namespace Reader

/-- The loop of `prepare_read`, load by load. -/
def loop (chain : Chain) : Nat → Reader → Option Reader
  | fuel, reader =>
      if reader.isClient then some reader
      else
        match fuel with
        | 0 => none
        | fuel + 1 => (reader.step chain).bind (loop chain fuel)

/-- A whole call of `prepare_read`. There are at most three loads in a node. -/
def read (chain : Chain) (reader : Reader) : Option Reader :=
  (reader.prepareRead chain).bind (loop chain (3 * chain.nodes.length + 4))

/-- The loop of `advance(offset, dest)`, where `dest` has this much room. The
result is the number of bytes skipped, and those that were copied. -/
def advanceLoop (chain : Chain) : Nat → Reader → Nat → Nat → Option (Reader × Nat × Bytes)
  | fuel, reader, offset, room =>
      if offset = 0 then some (reader, 0, [])
      else
        match fuel with
        | 0 => none
        | fuel + 1 => do
            let reader ← reader.read chain
            let ready := reader.it.slice chain
            if ready.isEmpty then some (reader, 0, [])
            else
              let ready := ready.take offset
              let copied := ready.take room
              let reader ← reader.confirmRead chain ready.length
              let (reader, skipped, dest) ←
                advanceLoop chain fuel reader (offset - ready.length) (room - copied.length)
              some (reader, ready.length + skipped, copied ++ dest)

def advance (chain : Chain) (reader : Reader) (offset room : Nat) :
    Option (Reader × Nat × Bytes) :=
  advanceLoop chain offset reader offset room

def advanceTillEndLoop (chain : Chain) : Nat → Reader → Option Reader
  | 0, _ => none
  | fuel + 1, reader => do
      let reader ← reader.read chain
      let ready := reader.it.slice chain
      if ready.isEmpty then some reader
      else
        let reader ← reader.confirmRead chain ready.length
        advanceTillEndLoop chain fuel reader

def advanceTillEnd (chain : Chain) (reader : Reader) : Option Reader :=
  advanceTillEndLoop chain (chain.appended.length + 1) reader

/-- `read_as_buffer_slice`: what is left of one node. -/
def readAsBufferSlice (chain : Chain) (reader : Reader) (limit : Nat) :
    Option (Reader × Bytes) := do
  let reader ← reader.read chain
  let res := (reader.it.slice chain).take limit
  let reader ← reader.confirmRead chain res.length
  some (reader, res)

/-! ### The loop ends -/

/-- An upper bound for the loads that are left of a call. -/
def rank (chain : Chain) (reader : Reader) : Nat :=
  3 * (chain.nodes.length - reader.it.head.getD chain.nodes.length) +
    match reader.pc with
    | .polling => 3
    | .loaded _ => 2
    | .moving => 1
    | _ => 0

variable {chain chain' : Chain} {reader reader' : Reader} {fuel offset room limit size : Nat}

theorem rank_le (chain : Chain) (reader : Reader) :
    reader.rank chain ≤ 3 * chain.nodes.length + 3 := by
  unfold rank
  split <;> omega

theorem sync_head (it : Iterator) (node : Node) : (it.sync node).head = it.head := by
  unfold Iterator.sync
  split <;> rfl

theorem Loads.rank_lt (hloads : reader.Loads chain reader') :
    reader'.rank chain < reader.rank chain := by
  cases hloads with
  | atEnd hpc => simp [rank, hpc]
  | ready hpc => simp [rank, hpc]
  | hasWriter i node hpc => simp [rank, hpc]
  | synced i node hasWriter hpc hhead => simp [rank, hpc, sync_head]
  | empty i node hasWriter hpc hhead =>
      cases hasWriter with
      | true => simp [rank, hpc, sync_head]
      | false => simp [rank, hpc, sync_head]
  | last i hpc => simp [rank, hpc]
  | next i node hpc hhead hnext =>
      -- one node less is in front of the reader, and that is worth three loads
      have hi := (List.getElem?_eq_some_iff.mp hnext).1
      simp only [rank, hpc, hhead, Iterator.loadHead, Option.getD_some]
      omega

/-- What a load leaves alone, and what a slice that is given to the client has. -/
theorem Loads.client (hloads : reader.Loads chain reader') :
    reader'.consumed = reader.consumed ∧ reader'.mark = reader.mark ∧
      (reader'.pc = .client → reader'.it.readerBegin < reader'.it.readerEnd) := by
  cases hloads with
  | ready hpc hlt => exact ⟨rfl, rfl, fun _ => hlt⟩
  | synced i node hasWriter hpc hhead hnode hlt => exact ⟨rfl, rfl, fun _ => hlt⟩
  | empty i node hasWriter => cases hasWriter <;> exact ⟨rfl, rfl, fun hpc => nomatch hpc⟩
  | _ => exact ⟨rfl, rfl, fun hpc => nomatch hpc⟩

/-- **A reader in `prepare_read` is never stuck.** -/
theorem Inv.step_isSome (h : reader.Inv chain) (hpc : reader.isClient = false) :
    ∃ reader', reader.step chain = some reader' := by
  cases hhead : reader.it.head with
  | none =>
      rcases (h.atEnd hhead).pc with hclient | hpolling
      · rw [hclient] at hpc
        cases hpc
      · exact ⟨_, by simp only [step, hpolling, hhead]; rfl⟩
  | some i =>
      rcases h.atNode i hhead with ⟨node, hnode, -⟩
      have hnode := Chain.nodes_of_reached hnode
      cases hat : reader.pc with
      | client => simp [isClient, hat] at hpc
      | drained => simp [isClient, hat] at hpc
      | polling =>
          simp only [step, hat, hhead, hnode, Option.map_some]
          split <;> exact ⟨_, rfl⟩
      | loaded hasWriter =>
          simp only [step, hat, hhead, hnode, Option.bind_some, Option.map_some]
          exact ⟨_, rfl⟩
      | moving =>
          simp only [step, hat, hhead, Option.map_some]
          exact ⟨_, rfl⟩

/-- What a call of `prepare_read` gives. -/
structure Reads (chain : Chain) (reader reader' : Reader) : Prop where
  inv : reader'.Inv chain
  isClient : reader'.isClient = true
  consumed : reader'.consumed = reader.consumed
  /-- an empty slice is given only when there is nothing left -/
  drained : reader'.it.slice chain = [] → reader.consumed = chain.appended

theorem loop_spec (hchain : chain.Inv) (h : reader.Inv chain) (hfuel : reader.rank chain < fuel)
    (hready : reader.pc = .client → reader.it.readerBegin < reader.it.readerEnd) :
    ∃ reader', reader.loop chain fuel = some reader' ∧ reader'.Inv chain ∧
      reader'.isClient = true ∧ reader'.consumed = reader.consumed ∧
      reader'.mark = reader.mark ∧
      (reader'.pc = .client → reader'.it.readerBegin < reader'.it.readerEnd) := by
  induction fuel generalizing reader with
  | zero => omega
  | succ fuel ih =>
      unfold loop
      split
      · rename_i hclient
        exact ⟨reader, rfl, h, hclient, rfl, rfl, hready⟩
      · rename_i hclient
        rcases h.step_isSome (by simpa using hclient) with ⟨next, hnext⟩
        have hloads := loads_of_step hnext
        rcases hloads.client with ⟨hconsumed, hmark, hnonempty⟩
        have hrank := hloads.rank_lt
        rcases ih (hloads.inv hchain h) (by omega) hnonempty
          with ⟨reader', hloop, hinv, hclient', hconsumed', hmark', hnonempty'⟩
        refine ⟨reader', ?_, hinv, hclient', ?_, ?_, hnonempty'⟩
        · simp only [hnext, Option.bind_some, hloop]
        · rw [hconsumed', hconsumed]
        · rw [hmark', hmark]

theorem isClient_cases (h : reader.isClient = true) :
    reader.pc = .client ∨ reader.pc = .drained := by
  simpa [isClient] using h

/-- What has been read begins the chain. -/
theorem Inv.consumed_prefix (h : reader.Inv chain) : reader.consumed <+: chain.appended :=
  (List.prefix_append _ _).trans h.slice_prefix

/-- **`prepare_read` returns**, and with an empty slice only at the end. -/
theorem read_spec (hchain : chain.Inv) (h : reader.Inv chain) (hclient : reader.isClient = true) :
    ∃ reader', reader.read chain = some reader' ∧ reader.Reads chain reader' := by
  have hcall : reader.prepareRead chain =
      some { reader with pc := .polling, mark := chain.appended.length } := if_pos hclient
  have hfuel := rank_le chain { reader with pc := .polling, mark := chain.appended.length }
  rcases loop_spec hchain (prepareRead_inv h hcall) (Nat.lt_succ_of_le hfuel)
    (fun hpc => nomatch hpc) with ⟨reader', hloop, hinv, hclient', hconsumed, hmark, hready⟩
  refine ⟨reader', ?_, hinv, hclient', hconsumed, ?_⟩
  · rw [read, hcall, Option.bind_some, hloop]
  · intro hempty
    have hlength := hinv.length_slice
    rw [hempty, List.length_nil] at hlength
    rcases isClient_cases hclient' with hpc | hpc
    · have hlt := hready hpc
      omega
    · have hread := hinv.drained hpc
      rw [hmark, hconsumed] at hread
      have hfront := hinv.consumed_prefix
      rw [hconsumed] at hfront
      exact hfront.eq_of_length_le hread

theorem Inv.begin_le (h : reader.Inv chain) : reader.it.readerBegin ≤ reader.it.readerEnd := by
  cases hhead : reader.it.head with
  | none => exact (h.atEnd hhead).begin_eq.le
  | some i =>
      rcases h.atNode i hhead with ⟨node, -, hat⟩
      exact hat.begin_le

/-- A slice that is not empty is given again. -/
theorem read_of_lt (h : reader.Inv chain) (hclient : reader.isClient = true)
    (hlt : reader.it.readerBegin < reader.it.readerEnd) :
    reader.read chain =
      some { reader with pc := .client, mark := chain.appended.length } := by
  have hcall : reader.prepareRead chain =
      some { reader with pc := .polling, mark := chain.appended.length } := if_pos hclient
  have hstep : Reader.step chain { reader with pc := .polling, mark := chain.appended.length } =
      some { reader with pc := .client, mark := chain.appended.length } := by
    cases hhead : reader.it.head with
    | none =>
        have hbegin := (h.atEnd hhead).begin_eq
        omega
    | some i => simp only [step, hhead, if_pos hlt]
  have hpolling : Reader.isClient { reader with pc := .polling, mark := chain.appended.length } =
      false := rfl
  rw [read, hcall, Option.bind_some, loop, hpolling, if_neg Bool.false_ne_true, hstep,
    Option.bind_some]
  unfold loop
  exact if_pos rfl

/-- What is left to read. -/
def rest (chain : Chain) (reader : Reader) : Bytes := chain.appended.drop reader.consumed.length

theorem Inv.consumed_rest (h : reader.Inv chain) :
    reader.consumed ++ reader.rest chain = chain.appended := by
  rcases h.consumed_prefix with ⟨rest, hrest⟩
  rw [Reader.rest, ← hrest, List.drop_left]

theorem Inv.slice_prefix_rest (h : reader.Inv chain) :
    reader.it.slice chain <+: reader.rest chain := by
  have hfront := h.slice_prefix
  rw [← h.consumed_rest] at hfront
  exact (List.prefix_append_right_inj _).mp hfront

theorem Reads.rest_eq (h : reader.Reads chain reader') :
    reader'.rest chain = reader.rest chain := by
  rw [rest, rest, h.consumed]

theorem Reads.rest_eq_nil (h : reader.Reads chain reader')
    (hempty : reader'.it.slice chain = []) : reader.rest chain = [] := by
  rw [rest, h.drained hempty, List.drop_length]

/-- What a call that moves a reader on gives: the reader behind these bytes. -/
structure Takes (chain : Chain) (reader : Reader) (bytes : Bytes) (reader' : Reader) : Prop where
  inv : reader'.Inv chain
  isClient : reader'.isClient = true
  consumed : reader'.consumed = reader.consumed ++ bytes

theorem Takes.rest_eq {bytes : Bytes} (h : reader.Takes chain bytes reader') :
    reader'.rest chain = (reader.rest chain).drop bytes.length := by
  rw [rest, rest, h.consumed, List.length_append, List.drop_drop]

theorem confirmRead_eq (chain : Chain) (hclient : reader.isClient = true)
    (hsize : reader.it.readerBegin + size ≤ reader.it.readerEnd) :
    reader.confirmRead chain size = some
      { it := { reader.it with
          readerBegin := reader.it.readerBegin + size
          offset := reader.it.offset + size }
        pc := .client
        consumed := reader.consumed ++ (reader.it.slice chain).take size
        mark := reader.mark } := by
  rw [confirmRead, if_pos hclient, Iterator.confirmRead, if_pos hsize, Option.map_some]

/-- `confirm_read` of a part of the slice. -/
theorem confirmRead_spec (h : reader.Inv chain) (hclient : reader.isClient = true) (limit : Nat) :
    ∃ reader', reader.confirmRead chain ((reader.it.slice chain).take limit).length = some reader' ∧
      reader.Takes chain ((reader.it.slice chain).take limit) reader' := by
  have hsize : reader.it.readerBegin + ((reader.it.slice chain).take limit).length ≤
      reader.it.readerEnd := by
    have hbegin := h.begin_le
    rw [List.length_take, h.length_slice]
    omega
  have htake : (reader.it.slice chain).take ((reader.it.slice chain).take limit).length =
      (reader.it.slice chain).take limit := by
    rw [List.length_take, List.take_eq_take_min]
    simp
  have hcall := confirmRead_eq chain hclient hsize
  refine ⟨_, hcall, confirmRead_inv h hcall, rfl, ?_⟩
  rw [htake]

/-- `prepare_read`, and `confirm_read` of what is taken of the slice. -/
theorem read_confirmRead_spec (hchain : chain.Inv) (h : reader.Inv chain)
    (hclient : reader.isClient = true) (limit : Nat) :
    ∃ ready reader', reader.read chain = some ready ∧
      ready.confirmRead chain ((ready.it.slice chain).take limit).length = some reader' ∧
      reader.Takes chain ((ready.it.slice chain).take limit) reader' ∧
      ready.it.slice chain <+: reader.rest chain ∧
      (ready.it.slice chain = [] → reader.rest chain = []) := by
  rcases read_spec hchain h hclient with ⟨ready, hread, hreads⟩
  rcases confirmRead_spec hreads.inv hreads.isClient limit with ⟨reader', hconfirm, htakes⟩
  refine ⟨ready, reader', hread, hconfirm, ?_, ?_, hreads.rest_eq_nil⟩
  · exact ⟨htakes.inv, htakes.isClient, by rw [htakes.consumed, hreads.consumed]⟩
  · have hfront := hreads.inv.slice_prefix_rest
    rwa [hreads.rest_eq] at hfront

/-- **`read_as_buffer_slice`** gives a piece of what is left, and an empty one only
when it has to. -/
theorem readAsBufferSlice_spec (hchain : chain.Inv) (h : reader.Inv chain)
    (hclient : reader.isClient = true) (limit : Nat) :
    ∃ reader' res, reader.readAsBufferSlice chain limit = some (reader', res) ∧
      reader.Takes chain res reader' ∧ res <+: reader.rest chain ∧ res.length ≤ limit ∧
      (res = [] → limit = 0 ∨ reader.rest chain = []) := by
  rcases read_confirmRead_spec hchain h hclient limit
    with ⟨ready, reader', hread, hconfirm, htakes, hfront, hempty⟩
  refine ⟨reader', _, ?_, htakes, (List.take_prefix _ _).trans hfront, List.length_take_le _ _, ?_⟩
  · simp only [readAsBufferSlice, hread, hconfirm, Option.bind_eq_bind, Option.bind_some]
  · intro hres
    rcases List.take_eq_nil_iff.mp hres with hzero | hslice
    · exact Or.inl hzero
    · exact Or.inr (hempty hslice)

/-- Of the slice it has, a reader gives as much as it is asked for. -/
theorem readAsBufferSlice_of_le (hchain : chain.Inv) (h : reader.Inv chain)
    (hclient : reader.isClient = true)
    (hlimit : limit ≤ reader.it.readerEnd - reader.it.readerBegin) :
    ∃ reader', reader.readAsBufferSlice chain limit =
      some (reader', (reader.rest chain).take limit) := by
  rcases Nat.eq_zero_or_pos limit with rfl | hpos
  · rcases readAsBufferSlice_spec hchain h hclient 0 with ⟨reader', res, hread, -, -, hlength, -⟩
    rw [List.eq_nil_of_length_eq_zero (Nat.le_zero.mp hlength)] at hread
    exact ⟨reader', hread⟩
  · have hlt : reader.it.readerBegin < reader.it.readerEnd := by omega
    rcases read_confirmRead_spec hchain h hclient limit
      with ⟨ready, reader', hread, hconfirm, -, ⟨tail, htail⟩, -⟩
    have hlength : limit ≤ (ready.it.slice chain).length := by
      have hready := read_of_lt h hclient hlt
      rw [hread, Option.some.injEq] at hready
      subst hready
      rwa [h.length_slice]
    refine ⟨reader', ?_⟩
    simp only [readAsBufferSlice, hread, hconfirm, Option.bind_eq_bind, Option.bind_some]
    rw [← htail, List.take_append_of_le_length hlength]

/-- A piece of a prefix, and what is left of a longer one. -/
theorem take_eq_append {ready rest : Bytes} (h : ready <+: rest) (offset : Nat) :
    rest.take offset = ready.take offset ++
      (rest.drop (ready.take offset).length).take (offset - (ready.take offset).length) := by
  rcases h with ⟨tail, rfl⟩
  rw [List.take_append, List.length_take]
  by_cases hle : offset ≤ ready.length
  · rw [Nat.min_eq_left hle, Nat.sub_self, List.take_zero, Nat.sub_eq_zero_of_le hle, List.take_zero]
  · rw [Nat.min_eq_right (by omega), List.drop_left]

/-- **`advance`** skips as much as it is told to, or all that is left, and copies
as much of it as there is room for. -/
theorem advanceLoop_spec (hchain : chain.Inv) (h : reader.Inv chain)
    (hclient : reader.isClient = true) (hfuel : offset ≤ fuel) :
    ∃ reader', advanceLoop chain fuel reader offset room =
        some (reader', ((reader.rest chain).take offset).length,
          ((reader.rest chain).take offset).take room) ∧
      reader.Takes chain ((reader.rest chain).take offset) reader' := by
  induction fuel generalizing reader offset room with
  | zero =>
      obtain rfl := Nat.le_zero.mp hfuel
      exact ⟨reader, by simp [advanceLoop], h, hclient, by simp⟩
  | succ fuel ih =>
      unfold advanceLoop
      split
      · rename_i hzero
        subst hzero
        exact ⟨reader, by simp, h, hclient, by simp⟩
      · rename_i hoffset
        rcases read_confirmRead_spec hchain h hclient offset
          with ⟨ready, next, hread, hconfirm, htakes, hfront, hempty⟩
        simp only [hread, Option.bind_eq_bind, Option.bind_some]
        split
        · rename_i hslice
          have hrest := hempty (List.isEmpty_iff.mp hslice)
          rcases read_spec hchain h hclient with ⟨ready', hread', hreads⟩
          cases hread.symm.trans hread'
          exact ⟨ready, by simp [hrest], hreads.inv, hreads.isClient,
            by simp [hreads.consumed, hrest]⟩
        · -- what is taken here and what the rest of the loop takes are one prefix
          rename_i hslice
          have hready : ready.it.slice chain ≠ [] := by simpa using hslice
          have hpos : 0 < ((ready.it.slice chain).take offset).length := by
            rw [List.length_take, lt_min_iff, List.length_pos_iff]
            exact ⟨Nat.pos_of_ne_zero hoffset, hready⟩
          have htaken := take_eq_append hfront offset
          generalize (ready.it.slice chain).take offset = taken at *
          rcases @ih _ _ (room - (taken.take room).length) htakes.inv htakes.isClient
            (show offset - taken.length ≤ fuel by omega) with ⟨reader', hloop, hlast⟩
          rw [htakes.rest_eq] at hloop hlast
          refine ⟨reader', ?_, hlast.inv, hlast.isClient, ?_⟩
          · simp only [hconfirm, Option.bind_some, hloop]
            have hroom : room - (taken.take room).length = room - taken.length := by
              rw [List.length_take]
              omega
            rw [htaken, List.length_append, List.take_append, hroom]
          · rw [hlast.consumed, htakes.consumed, List.append_assoc, htaken]

theorem advance_spec (hchain : chain.Inv) (h : reader.Inv chain) (hclient : reader.isClient = true)
    (offset room : Nat) :
    ∃ reader', reader.advance chain offset room =
        some (reader', ((reader.rest chain).take offset).length,
          ((reader.rest chain).take offset).take room) ∧
      reader.Takes chain ((reader.rest chain).take offset) reader' :=
  advanceLoop_spec hchain h hclient le_rfl

theorem advanceTillEndLoop_spec (hchain : chain.Inv) (h : reader.Inv chain)
    (hclient : reader.isClient = true) (hfuel : (reader.rest chain).length < fuel) :
    ∃ reader', advanceTillEndLoop chain fuel reader = some reader' ∧
      reader.Takes chain (reader.rest chain) reader' := by
  induction fuel generalizing reader with
  | zero => omega
  | succ fuel ih =>
      rcases read_spec hchain h hclient with ⟨ready, hread, hreads⟩
      rcases confirmRead_spec hreads.inv hreads.isClient (ready.it.slice chain).length
        with ⟨next, hconfirm, htakes⟩
      rw [List.take_length] at hconfirm htakes
      simp only [advanceTillEndLoop, hread, Option.bind_eq_bind, Option.bind_some]
      split
      · rename_i hslice
        have hrest := hreads.rest_eq_nil (List.isEmpty_iff.mp hslice)
        refine ⟨ready, rfl, hreads.inv, hreads.isClient, ?_⟩
        rw [hreads.consumed, hrest, List.append_nil]
      · rename_i hslice
        have hpos : 0 < (ready.it.slice chain).length := by
          rw [List.length_pos_iff]
          simpa using hslice
        rcases hreads.inv.slice_prefix_rest with ⟨tail, htail⟩
        rw [hreads.rest_eq] at htail
        have hrest : next.rest chain = tail := by
          rw [htakes.rest_eq, hreads.rest_eq, ← htail, List.drop_left]
        rw [← htail, List.length_append] at hfuel
        rcases ih htakes.inv htakes.isClient (by rw [hrest]; omega) with ⟨reader', hloop, hlast⟩
        refine ⟨reader', ?_, hlast.inv, hlast.isClient, ?_⟩
        · simp only [hconfirm, Option.bind_some, hloop]
        · rw [hlast.consumed, htakes.consumed, hreads.consumed, hrest, ← htail, List.append_assoc]

/-- **`advance_till_end`** gets to the end of what has been appended. -/
theorem advanceTillEnd_spec (hchain : chain.Inv) (h : reader.Inv chain)
    (hclient : reader.isClient = true) :
    ∃ reader', reader.advanceTillEnd chain = some reader' ∧
      reader.Takes chain (reader.rest chain) reader' := by
  refine advanceTillEndLoop_spec hchain h hclient ?_
  rw [rest, List.length_drop]
  omega

end Reader

/-! ## Nobody waits for the others -/

namespace System

variable {ι : Type} [DecidableEq ι] {system : System ι} {acts : List (Act ι)} {dataSize : Nat}

/-- A reader that goes on alone comes to the end of its call. -/
theorem exists_run_isClient (h : system.Inv) (i : ι) {fuel : Nat}
    (hfuel : (system.readers i).rank system.chain ≤ fuel) :
    ∃ n ≤ fuel, ∃ system', Steps.run step system (List.replicate n (.step i)) = some system' ∧
      (system'.readers i).isClient = true ∧ system'.chain = system.chain ∧
      ∀ j ≠ i, system'.readers j = system.readers j := by
  induction fuel generalizing system with
  | zero =>
      refine ⟨0, le_rfl, system, rfl, ?_, rfl, fun _ _ => rfl⟩
      -- a further load would lower the rank
      by_contra hclient
      rcases (h.readers i).step_isSome (by simpa using hclient) with ⟨reader, hreader⟩
      have hrank := (Reader.loads_of_step hreader).rank_lt
      omega
  | succ fuel ih =>
      by_cases hclient : (system.readers i).isClient = true
      · exact ⟨0, Nat.zero_le _, system, rfl, hclient, rfl, fun _ _ => rfl⟩
      · rcases (h.readers i).step_isSome (by simpa using hclient) with ⟨reader, hreader⟩
        have hrank := (Reader.loads_of_step hreader).rank_lt
        have hstep : system.step (.step i) = some (system.update i reader) := by
          rw [step, hreader, Option.map_some]
        have hat : (system.update i reader).readers i = reader := Function.update_self _ _ _
        have hnext : ((system.update i reader).readers i).rank (system.update i reader).chain ≤
            fuel := by
          rw [hat]
          exact Nat.le_of_lt_succ (lt_of_lt_of_le hrank hfuel)
        rcases ih (step_inv h hstep).1 hnext with ⟨n, hn, system', hrun, hreturned, hchain, hothers⟩
        refine ⟨n + 1, Nat.succ_le_succ hn, system', ?_, hreturned, hchain, ?_⟩
        · rw [List.replicate_succ, Steps.run_cons_eq_some_iff]
          exact ⟨_, hstep, hrun⟩
        · intro j hj
          rw [hothers j hj]
          exact Function.update_of_ne hj _ _

/-- **No reader waits.** Whatever the writer and the others have done, and wherever
they have stopped, a reader in `prepare_read` returns after at most three loads
for a node, and it changes nothing for them. -/
theorem isClient_of_run (hrun : Steps.run step (init ι dataSize) acts = some system) (i : ι) :
    ∃ n ≤ 3 * system.chain.nodes.length + 3, ∃ system',
      Steps.run step system (List.replicate n (.step i)) = some system' ∧
      (system'.readers i).isClient = true ∧ system'.chain = system.chain ∧
      ∀ j ≠ i, system'.readers j = system.readers j :=
  exists_run_isClient (run_inv hrun) i (Reader.rank_le _ _)

theorem isClient_of_leaving :
    ∃ system n system', Steps.run step (init Bool 4) leaving = some system ∧
      Steps.run step system (List.replicate n (.step true)) = some system' ∧
      (system'.readers true).isClient = true := by
  rcases run_leaving with ⟨system, hrun, -⟩
  rcases isClient_of_run hrun true with ⟨n, -, system', hrun', hreturned, -⟩
  exact ⟨system, n, system', hrun, hrun', hreturned⟩

end System

end TonEncoder.ChainBuffer
