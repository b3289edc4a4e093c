import TonEncoder.Buffer.Chain

/-! # Readers of a growing chain

One writer and any number of iterators, in every interleaving of their loads and
stores. `prepare_read` is not one step: it loads `has_writer`, then the end of
the buffer, and only then follows `next_`.

* `appended_of_consumed`: a reader gets the bytes in their order, none twice and
  none left out, and what it was given does not change under it.
* `closed_of_head_eq_none`: it sees the end only when there is nothing left and
  the writer is gone.
* `mark_le_of_drained`: when it is given nothing, it has read all that had been
  appended when it asked.
* `tail_ne_of_moving`: it follows `next_` only where the writer does not store.
-/

namespace TonEncoder.ChainBuffer

open Process

/-! ## Iterators -/

/-- `ChainBufferIterator`: the node it is at, and of its own copy of the slice
there the begin and the end. -/
structure Iterator where
  head : Option Nat
  readerBegin : Nat
  readerEnd : Nat
  needSync : Bool
  offset : Nat
deriving DecidableEq, Repr

namespace Iterator

/-- `load_head`, at the node of number `i`. -/
def loadHead (it : Iterator) (i : Nat) (node : Node) : Iterator :=
  { it with head := some i, readerBegin := 0, readerEnd := node.sliceSize, needSync := node.syncFlag }

/-- An iterator at the head of a chain. -/
def new (chain : Chain) : Iterator :=
  match chain.nodes with
  | [] => ⟨none, 0, 0, false, 0⟩
  | node :: _ => loadHead ⟨none, 0, 0, false, 0⟩ 0 node

/-- `reader_.prepare_read()` -/
def slice (chain : Chain) (it : Iterator) : Bytes :=
  match it.head.bind (chain.nodes[·]?) with
  | none => []
  | some node => (node.data.take it.readerEnd).drop it.readerBegin

/-- `reader_.sync_with_writer()`, where it is called for. -/
def sync (it : Iterator) (node : Node) : Iterator :=
  if it.needSync then { it with readerEnd := node.data.length } else it

/-- `confirm_read`, with the check of `BufferSlice::confirm_read`. -/
def confirmRead (it : Iterator) (size : Nat) : Option Iterator :=
  if it.readerBegin + size ≤ it.readerEnd then
    some { it with readerBegin := it.readerBegin + size, offset := it.offset + size }
  else
    none

end Iterator

/-! ## Readers -/

/-- Where a reader is in `prepare_read`. -/
inductive Pc where
  /-- not in it, after a slice that was not empty or before the first call -/
  | client
  /-- at the top of the loop -/
  | polling
  /-- has loaded `has_writer` -/
  | loaded (hasWriter : Bool)
  /-- about to load `next_` -/
  | moving
  /-- not in it, after an empty slice -/
  | drained
deriving DecidableEq, Repr

/-- An iterator and the thread that uses it. The last two fields keep a record:
of the bytes it has read, and of how many there were when it last called
`prepare_read`. -/
structure Reader where
  it : Iterator
  pc : Pc
  consumed : Bytes
  mark : Nat
deriving DecidableEq, Repr

namespace Reader

/-- A reader that has read nothing. -/
def new (chain : Chain) : Reader := ⟨.new chain, .client, [], 0⟩

/-- The calls that a client can make of an iterator it holds. -/
def isClient (reader : Reader) : Bool := reader.pc == .client || reader.pc == .drained

/-- The next load of `prepare_read`. -/
def step (chain : Chain) (reader : Reader) : Option Reader :=
  match reader.pc with
  | .client => none
  | .drained => none
  | .polling =>
      match reader.it.head with
      | none => some { reader with pc := .drained }
      | some i =>
          if reader.it.readerBegin < reader.it.readerEnd then
            some { reader with pc := .client }
          else
            (chain.nodes[i]?).map fun node => { reader with pc := .loaded node.hasWriter }
  | .loaded hasWriter =>
      (reader.it.head.bind (chain.nodes[·]?)).map fun node =>
        let it := reader.it.sync node
        if it.readerBegin < it.readerEnd then { reader with it, pc := .client }
        else if hasWriter then { reader with it, pc := .drained }
        else { reader with it, pc := .moving }
  | .moving =>
      reader.it.head.map fun i =>
        match chain.nodes[i + 1]? with
        | none => { reader with it := { reader.it with head := none }, pc := .drained }
        | some node => { reader with it := reader.it.loadHead (i + 1) node, pc := .polling }

/-- A call of `prepare_read`. -/
def prepareRead (chain : Chain) (reader : Reader) : Option Reader :=
  if reader.isClient then
    some { reader with pc := .polling, mark := chain.appended.length }
  else
    none

/-- A call of `confirm_read`. -/
def confirmRead (chain : Chain) (reader : Reader) (size : Nat) : Option Reader :=
  if reader.isClient then
    (reader.it.confirmRead size).map fun it =>
      { reader with
        it
        pc := .client
        consumed := reader.consumed ++ (reader.it.slice chain).take size }
  else
    none

end Reader

/-! ## The invariant of a reader -/

namespace Reader

/-- What a reader in `prepare_read` knows of its node. -/
def Knows (reader : Reader) (node : Node) : Prop :=
  match reader.pc with
  | .client => True
  | .polling => True
  | .loaded hasWriter =>
      reader.it.readerBegin = reader.it.readerEnd ∧
        -- a writer that was there had appended nothing behind this node
        if hasWriter then
          reader.mark ≤ reader.consumed.length + (node.data.length - reader.it.readerBegin)
        else node.hasWriter = false
  | .moving => reader.it.readerBegin = node.data.length ∧ node.hasWriter = false
  | .drained => True

/-- A reader at a node has read the nodes before it and a part of this one. -/
structure At (chain : Chain) (reader : Reader) (i : Nat) (node : Node) : Prop where
  begin_le : reader.it.readerBegin ≤ reader.it.readerEnd
  end_le : reader.it.readerEnd ≤ node.data.length
  needSync : reader.it.needSync = node.syncFlag
  slice : node.syncFlag = false → reader.it.readerEnd = node.data.length
  consumed : reader.consumed =
    (chain.reached.take i).flatMap Node.data ++ node.data.take reader.it.readerBegin
  knows : reader.Knows node

/-- A reader behind the last node. -/
structure AtEnd (chain : Chain) (reader : Reader) : Prop where
  closed : chain.closed = true
  consumed : reader.consumed = chain.appended
  begin_eq : reader.it.readerBegin = reader.it.readerEnd
  pc : reader.isClient = true ∨ reader.pc = .polling

structure Inv (chain : Chain) (reader : Reader) : Prop where
  atNode : ∀ i, reader.it.head = some i →
    ∃ node, chain.reached[i]? = some node ∧ reader.At chain i node
  atEnd : reader.it.head = none → reader.AtEnd chain
  offset : reader.it.offset = reader.consumed.length
  mark_le : reader.mark ≤ chain.appended.length
  drained : reader.pc = .drained → reader.mark ≤ reader.consumed.length

variable {chain chain' : Chain} {reader reader' : Reader} {i : Nat} {node node' : Node}

/-- A reader that has just come to a node. -/
theorem at_loadHead {it : Iterator} {pc : Pc} {consumed : Bytes} {mark : Nat}
    (hconsumed : consumed = (chain.reached.take i).flatMap Node.data)
    (hknows : Knows ⟨it.loadHead i node, pc, consumed, mark⟩ node) :
    At chain ⟨it.loadHead i node, pc, consumed, mark⟩ i node := by
  constructor
  case begin_le => exact Nat.zero_le _
  case end_le =>
      show node.sliceSize ≤ node.data.length
      unfold Node.sliceSize
      split <;> omega
  case needSync => rfl
  case slice =>
      intro hslice
      simp [Iterator.loadHead, Node.sliceSize, hslice]
  case consumed =>
      show consumed = _ ++ node.data.take 0
      rw [List.take_zero, List.append_nil, hconsumed]
  case knows => exact hknows

theorem inv_new (chain : Chain) : (new chain).Inv chain := by
  have hlength : 0 < chain.reached.length := by simp [Chain.reached]
  have hreached := List.getElem?_eq_getElem hlength
  have hnodes := Chain.nodes_of_reached hreached
  cases hall : chain.nodes with
  | nil => simp [hall] at hnodes
  | cons node rest =>
      obtain rfl : node = chain.reached[0] := by simpa [hall] using hnodes
      rw [new, Iterator.new, hall]
      constructor
      case atNode =>
          intro i hi
          cases hi
          exact ⟨_, hreached, at_loadHead rfl trivial⟩
      case atEnd =>
          intro hhead
          cases hhead
      case offset => rfl
      case mark_le => exact Nat.zero_le _
      case drained =>
          intro hpc
          cases hpc

theorem Knows.grows (h : reader.Knows node) (hgrows : node.Grows node') : reader.Knows node' := by
  have hlength := hgrows.data.length_le
  unfold Knows at h ⊢
  split at h
  case h_3 hasWriter hpc =>
      refine ⟨h.1, ?_⟩
      cases hasWriter with
      | false =>
          rw [hgrows.released h.2]
          exact h.2
      | true =>
          have hmark := h.2
          simp only [if_true] at hmark ⊢
          omega
  case h_4 =>
      rw [hgrows.released h.2]
      exact h
  all_goals trivial

/-- **Nothing that the writer does disturbs a reader.** -/
theorem Inv.grows (h : reader.Inv chain) (hgrows : chain.Grows chain') : reader.Inv chain' := by
  constructor
  case atNode =>
      intro i hi
      rcases h.atNode i hi with ⟨node, hnode, hat⟩
      rcases hgrows.reached hnode with ⟨node', hnode', hgrows', htake⟩
      refine ⟨node', hnode', ?_⟩
      constructor
      case begin_le => exact hat.begin_le
      case end_le => exact le_trans hat.end_le hgrows'.data.length_le
      case needSync => rw [hat.needSync, hgrows'.syncFlag]
      case slice =>
          intro hslice
          rw [hgrows'.syncFlag] at hslice
          rw [hgrows'.slice hslice, hat.slice hslice]
      case consumed =>
          have hbegin := le_trans hat.begin_le hat.end_le
          rcases hgrows'.data with ⟨rest, hrest⟩
          rw [hat.consumed, htake, ← hrest, List.take_append_of_le_length hbegin]
      case knows => exact hat.knows.grows hgrows'
  case atEnd =>
      intro hhead
      have hend := h.atEnd hhead
      rw [hgrows.closed hend.closed]
      exact hend
  case offset => exact h.offset
  case mark_le => exact le_trans h.mark_le hgrows.appended.length_le
  case drained => exact h.drained

/-! ### The loads of `prepare_read` -/

/-- The loads that are possible, and what follows from them. -/
inductive Loads (chain : Chain) (reader : Reader) : Reader → Prop where
  | atEnd (hpc : reader.pc = .polling) (hhead : reader.it.head = none) :
      Loads chain reader { reader with pc := .drained }
  | ready (hpc : reader.pc = .polling) (hlt : reader.it.readerBegin < reader.it.readerEnd) :
      Loads chain reader { reader with pc := .client }
  | hasWriter (i : Nat) (node : Node) (hpc : reader.pc = .polling)
      (hhead : reader.it.head = some i) (hnode : chain.nodes[i]? = some node)
      (hle : reader.it.readerEnd ≤ reader.it.readerBegin) :
      Loads chain reader { reader with pc := .loaded node.hasWriter }
  | synced (i : Nat) (node : Node) (hasWriter : Bool) (hpc : reader.pc = .loaded hasWriter)
      (hhead : reader.it.head = some i) (hnode : chain.nodes[i]? = some node)
      (hlt : (reader.it.sync node).readerBegin < (reader.it.sync node).readerEnd) :
      Loads chain reader { reader with it := reader.it.sync node, pc := .client }
  | empty (i : Nat) (node : Node) (hasWriter : Bool) (hpc : reader.pc = .loaded hasWriter)
      (hhead : reader.it.head = some i) (hnode : chain.nodes[i]? = some node)
      (hle : (reader.it.sync node).readerEnd ≤ (reader.it.sync node).readerBegin) :
      Loads chain reader
        { reader with it := reader.it.sync node, pc := if hasWriter then .drained else .moving }
  | last (i : Nat) (hpc : reader.pc = .moving) (hhead : reader.it.head = some i)
      (hnext : chain.nodes[i + 1]? = none) :
      Loads chain reader { reader with it := { reader.it with head := none }, pc := .drained }
  | next (i : Nat) (node : Node) (hpc : reader.pc = .moving) (hhead : reader.it.head = some i)
      (hnext : chain.nodes[i + 1]? = some node) :
      Loads chain reader { reader with it := reader.it.loadHead (i + 1) node, pc := .polling }

theorem loads_of_step (h : reader.step chain = some reader') : reader.Loads chain reader' := by
  unfold step at h
  split at h
  case h_1 => cases h
  case h_2 => cases h
  case h_3 hpc =>
      cases hhead : reader.it.head with
      | none =>
          rw [hhead] at h
          cases h
          exact .atEnd hpc hhead
      | some i =>
          simp only [hhead] at h
          split at h
          · rename_i hlt
            cases h
            exact .ready hpc hlt
          · rename_i hle
            rcases Option.map_eq_some_iff.mp h with ⟨node, hnode, hreader⟩
            cases hreader
            exact .hasWriter i node hpc hhead hnode (Nat.not_lt.mp hle)
  case h_4 hasWriter hpc =>
      rcases Option.map_eq_some_iff.mp h with ⟨node, hnode, hreader⟩
      rcases Option.bind_eq_some_iff.mp hnode with ⟨i, hhead, hnode⟩
      simp only at hreader
      split at hreader
      · rename_i hlt
        cases hreader
        exact .synced i node hasWriter hpc hhead hnode hlt
      · rename_i hle
        have hempty := Loads.empty i node hasWriter hpc hhead hnode (Nat.not_lt.mp hle)
        cases hasWriter with
        | false =>
            cases hreader
            exact hempty
        | true =>
            cases hreader
            exact hempty
  case h_5 hpc =>
      rcases Option.map_eq_some_iff.mp h with ⟨i, hhead, hreader⟩
      split at hreader
      · rename_i hnext
        cases hreader
        exact .last i hpc hhead hnext
      · rename_i node hnext
        cases hreader
        exact .next i node hpc hhead hnext

/-- The node of a reader, as it finds it in the chain. -/
theorem Inv.at (h : reader.Inv chain) (hhead : reader.it.head = some i)
    (hnode : chain.nodes[i]? = some node) :
    chain.reached[i]? = some node ∧ reader.At chain i node := by
  rcases h.atNode i hhead with ⟨node', hnode', hat⟩
  have hsame := Chain.nodes_of_reached hnode'
  rw [hnode, Option.some.injEq] at hsame
  subst hsame
  exact ⟨hnode', hat⟩

/-- Synchronizing moves the end of the slice to the end of the node. -/
theorem At.sync_eq (h : reader.At chain i node) :
    reader.it.sync node = { reader.it with readerEnd := node.data.length } := by
  unfold Iterator.sync
  split
  · rfl
  · rename_i hsync
    have hslice : node.syncFlag = false := by
      rw [← h.needSync]
      simpa using hsync
    rw [← h.slice hslice]

/-- The same reader at another place of `prepare_read`, or with another end. -/
theorem At.move (h : reader.At chain i node) {readerEnd : Nat} {pc : Pc}
    (hbegin : reader.it.readerBegin ≤ readerEnd) (hend : readerEnd ≤ node.data.length)
    (hslice : node.syncFlag = false → readerEnd = node.data.length)
    (hknows : Reader.Knows { reader with it := { reader.it with readerEnd }, pc } node) :
    Reader.At chain { reader with it := { reader.it with readerEnd }, pc } i node :=
  ⟨hbegin, hend, h.needSync, hslice, h.consumed, hknows⟩

/-- A reader that stays in its node. -/
theorem Inv.stay (h : reader.Inv chain) (hhead : reader.it.head = some i)
    (hnode : chain.reached[i]? = some node) {readerEnd : Nat} {pc : Pc}
    (hat : Reader.At chain { reader with it := { reader.it with readerEnd }, pc } i node)
    (hdrained : pc = .drained → reader.mark ≤ reader.consumed.length) :
    Reader.Inv chain { reader with it := { reader.it with readerEnd }, pc } := by
  constructor
  case atNode =>
      intro j hj
      have hij : i = j := Option.some.inj (hhead.symm.trans hj)
      subst hij
      exact ⟨node, hnode, hat⟩
  case atEnd =>
      intro hnone
      cases hhead.symm.trans hnone
  case offset => exact h.offset
  case mark_le => exact h.mark_le
  case drained => exact hdrained

/-- At the tail, what is left of the node is all that is left. -/
theorem At.appended_length (h : reader.At chain chain.older.length chain.tail) :
    chain.appended.length =
      reader.consumed.length + (chain.tail.data.length - reader.it.readerBegin) := by
  have hbegin := le_trans h.begin_le h.end_le
  rw [Chain.appended_eq, h.consumed, List.length_append, List.length_append, List.length_take,
    Nat.min_eq_left hbegin]
  omega

/-- A node that has been read has all been read. -/
theorem At.consumed_eq (h : reader.At chain i node)
    (hread : reader.it.readerBegin = node.data.length) :
    reader.consumed = (chain.reached.take i).flatMap Node.data ++ node.data := by
  rw [h.consumed, hread, List.take_length]

/-- Behind a node whose writer is gone comes another one, or the end. -/
theorem next_cases (hchain : chain.Inv) (hnode : chain.reached[i]? = some node)
    (hreleased : node.hasWriter = false) :
    (∃ node', chain.nodes[i + 1]? = some node' ∧ chain.reached[i + 1]? = some node') ∨
      (chain.nodes[i + 1]? = none ∧ chain.closed = true ∧ i = chain.older.length ∧
        node = chain.tail) := by
  rcases hchain.reached_cases hnode with ⟨hlt, -⟩ | ⟨rfl, rfl⟩
  · left
    have hi : i + 1 < chain.reached.length := by
      rw [Chain.length_reached]
      omega
    have hnext := List.getElem?_eq_getElem hi
    exact ⟨_, Chain.nodes_of_reached hnext, hnext⟩
  · right
    have hclosed : chain.closed = true := by
      have htail := hchain.tail
      rw [hreleased] at htail
      simpa using htail.symm
    refine ⟨?_, hclosed, rfl, rfl⟩
    cases hnext : chain.next with
    | none => simp [Chain.nodes, hnext]
    | some node' =>
        have hopen := (hchain.next node' hnext).2
        rw [hclosed] at hopen
        cases hopen

/-- **A load of `prepare_read` keeps the invariant.** -/
theorem Loads.inv (hloads : reader.Loads chain reader') (hchain : chain.Inv)
    (h : reader.Inv chain) : reader'.Inv chain := by
  cases hloads with
  | atEnd hpc hhead =>
      have hend := h.atEnd hhead
      constructor
      case atNode =>
          intro i hi
          cases hhead.symm.trans hi
      case atEnd => exact fun _ => ⟨hend.closed, hend.consumed, hend.begin_eq, Or.inl rfl⟩
      case offset => exact h.offset
      case mark_le => exact h.mark_le
      case drained =>
          intro _
          rw [hend.consumed]
          exact h.mark_le
  | ready hpc hlt =>
      cases hhead : reader.it.head with
      | none =>
          have hend := h.atEnd hhead
          have := hend.begin_eq
          omega
      | some i =>
          rcases h.atNode i hhead with ⟨node, hnode, hat⟩
          exact h.stay hhead hnode (hat.move hat.begin_le hat.end_le hat.slice trivial) (by simp)
  | hasWriter i node hpc hhead hnode hle =>
      rcases h.at hhead hnode with ⟨hreached, hat⟩
      refine h.stay hhead hreached (hat.move hat.begin_le hat.end_le hat.slice ?_) (by simp)
      refine ⟨le_antisymm hat.begin_le hle, ?_⟩
      split
      · -- only the tail has a writer
        rename_i hwriter
        rcases hchain.reached_cases hreached with ⟨-, hreleased⟩ | ⟨rfl, rfl⟩
        · rw [hreleased] at hwriter
          cases hwriter
        · have hmark := h.mark_le
          rw [hat.appended_length] at hmark
          exact hmark
      · rename_i hwriter
        simpa using hwriter
  | synced i node hasWriter hpc hhead hnode hlt =>
      rcases h.at hhead hnode with ⟨hreached, hat⟩
      have hbegin := le_trans hat.begin_le hat.end_le
      rw [hat.sync_eq]
      exact h.stay hhead hreached (hat.move hbegin le_rfl (fun _ => rfl) trivial) (by simp)
  | empty i node hasWriter hpc hhead hnode hle =>
      rcases h.at hhead hnode with ⟨hreached, hat⟩
      have hbegin := le_trans hat.begin_le hat.end_le
      have hknows := hat.knows
      rw [hat.sync_eq] at hle ⊢
      have hread : reader.it.readerBegin = node.data.length := le_antisymm hbegin hle
      simp only [Knows, hpc] at hknows
      cases hasWriter with
      | true =>
          refine h.stay hhead hreached (hat.move hbegin le_rfl (fun _ => rfl) trivial) ?_
          intro _
          -- the node has all been read, and the mark is not behind it
          have hmark := hknows.2
          simp only [if_true] at hmark
          omega
      | false =>
          refine h.stay hhead hreached (hat.move hbegin le_rfl (fun _ => rfl) ?_) (by simp)
          exact ⟨hread, hknows.2⟩
  | last i hpc hhead hnext =>
      rcases h.atNode i hhead with ⟨node, hnode, hat⟩
      have hknows := hat.knows
      simp only [Knows, hpc] at hknows
      rcases next_cases hchain hnode hknows.2 with ⟨node', hnode', -⟩ | ⟨-, hclosed, rfl, rfl⟩
      · cases hnext.symm.trans hnode'
      · have hconsumed : reader.consumed = chain.appended := by
          rw [hat.consumed_eq hknows.1, Chain.appended_eq]
        constructor
        case atNode => exact fun i hi => nomatch hi
        case atEnd =>
            intro _
            refine ⟨hclosed, hconsumed, ?_, Or.inl rfl⟩
            have hbegin := hat.begin_le
            have hend := hat.end_le
            show reader.it.readerBegin = reader.it.readerEnd
            omega
        case offset => exact h.offset
        case mark_le => exact h.mark_le
        case drained =>
            intro _
            show reader.mark ≤ reader.consumed.length
            rw [hconsumed]
            exact h.mark_le
  | next i node' hpc hhead hnext =>
      rcases h.atNode i hhead with ⟨node, hnode, hat⟩
      have hknows := hat.knows
      simp only [Knows, hpc] at hknows
      rcases next_cases hchain hnode hknows.2 with ⟨node'', hnode'', hreached⟩ | ⟨hnone, -⟩
      · obtain rfl := Option.some.inj (hnext.symm.trans hnode'')
        constructor
        case atNode =>
            rintro j ⟨⟩
            refine ⟨node', hreached, at_loadHead ?_ trivial⟩
            have htake : chain.reached.take (i + 1) = chain.reached.take i ++ [node] := by
              rw [List.take_add_one, hnode]
              rfl
            rw [hat.consumed_eq hknows.1, htake]
            simp
        case atEnd => exact fun hnone => nomatch hnone
        case offset => exact h.offset
        case mark_le => exact h.mark_le
        case drained => exact fun hpc => nomatch hpc
      · cases hnext.symm.trans hnone

/-! ### The calls of a client -/

theorem prepareRead_inv (h : reader.Inv chain) (hcall : reader.prepareRead chain = some reader') :
    reader'.Inv chain := by
  rcases Option.ite_none_right_eq_some.mp hcall with ⟨_, hreader⟩
  cases hreader
  constructor
  case atNode =>
      intro i hi
      rcases h.atNode i hi with ⟨node, hnode, hat⟩
      exact ⟨node, hnode, hat.begin_le, hat.end_le, hat.needSync, hat.slice, hat.consumed, trivial⟩
  case atEnd =>
      intro hhead
      have hend := h.atEnd hhead
      exact ⟨hend.closed, hend.consumed, hend.begin_eq, Or.inr rfl⟩
  case offset => exact h.offset
  case mark_le => exact le_refl _
  case drained => exact fun hpc => nomatch hpc

/-- The slice that a client is given is what comes after the bytes it has read. -/
theorem slice_eq (hhead : reader.it.head = some i) (hnode : chain.reached[i]? = some node) :
    reader.it.slice chain =
      (node.data.drop reader.it.readerBegin).take (reader.it.readerEnd - reader.it.readerBegin) := by
  rw [Iterator.slice, hhead, Option.bind_some, Chain.nodes_of_reached hnode]
  exact List.drop_take

theorem slice_eq_nil (hhead : reader.it.head = none) : reader.it.slice chain = [] := by
  rw [Iterator.slice, hhead, Option.bind_none]

theorem Inv.length_slice (h : reader.Inv chain) :
    (reader.it.slice chain).length = reader.it.readerEnd - reader.it.readerBegin := by
  cases hhead : reader.it.head with
  | none =>
      have hbegin := (h.atEnd hhead).begin_eq
      rw [slice_eq_nil hhead, List.length_nil]
      omega
  | some i =>
      rcases h.atNode i hhead with ⟨node, hnode, hat⟩
      have hend := hat.end_le
      rw [slice_eq hhead hnode, List.length_take, List.length_drop]
      omega

/-- What a reader has read, and then its slice, is how the chain begins. -/
theorem Inv.slice_prefix (h : reader.Inv chain) :
    reader.consumed ++ reader.it.slice chain <+: chain.appended := by
  cases hhead : reader.it.head with
  | none => rw [slice_eq_nil hhead, List.append_nil, (h.atEnd hhead).consumed]
  | some i =>
      rcases h.atNode i hhead with ⟨node, hnode, hat⟩
      have hbegin := hat.begin_le
      have hend := hat.end_le
      rw [slice_eq hhead hnode, hat.consumed, Chain.appended_split hnode, List.append_assoc,
        ← List.take_add]
      refine (List.prefix_append_right_inj _).mpr ?_
      exact (List.take_prefix _ _).trans (List.prefix_append _ _)

theorem confirmRead_inv (h : reader.Inv chain) {size : Nat}
    (hcall : reader.confirmRead chain size = some reader') : reader'.Inv chain := by
  rcases Option.ite_none_right_eq_some.mp hcall with ⟨_, hreader⟩
  rcases Option.map_eq_some_iff.mp hreader with ⟨it, hit, hreader⟩
  cases hreader
  rcases Option.ite_none_right_eq_some.mp hit with ⟨hsize, hit⟩
  cases hit
  constructor
  case atNode =>
      intro i hi
      rcases h.atNode i hi with ⟨node, hnode, hat⟩
      have hhead : reader.it.head = some i := hi
      have hslice := slice_eq hhead hnode
      refine ⟨node, hnode, hsize, hat.end_le, hat.needSync, hat.slice, ?_, trivial⟩
      show reader.consumed ++ (reader.it.slice chain).take size = _
      rw [hat.consumed, hslice, List.take_take, Nat.min_eq_left (by omega), List.append_assoc,
        ← List.take_add]
  case atEnd =>
      intro hhead
      have hend := h.atEnd hhead
      have hbegin := hend.begin_eq
      have hzero : size = 0 := by omega
      subst hzero
      refine ⟨hend.closed, ?_, hbegin, Or.inl rfl⟩
      show reader.consumed ++ (reader.it.slice chain).take 0 = chain.appended
      rw [List.take_zero, List.append_nil, hend.consumed]
  case offset =>
      have hlength : ((reader.it.slice chain).take size).length = size := by
        rw [List.length_take, h.length_slice]
        omega
      show reader.it.offset + size = (reader.consumed ++ (reader.it.slice chain).take size).length
      rw [List.length_append, hlength, h.offset]
  case mark_le => exact h.mark_le
  case drained => exact fun hpc => nomatch hpc

end Reader

/-! ## The system -/

/-- A writer and its readers. -/
structure System (ι : Type) where
  chain : Chain
  readers : ι → Reader

/-- What can happen next. -/
inductive Act (ι : Type) where
  | store (store : Store)
  | prepareRead (i : ι)
  | step (i : ι)
  | confirmRead (i : ι) (size : Nat)
  /-- `i` becomes a clone of `j` -/
  | clone (i j : ι)

namespace System

variable {ι : Type} [DecidableEq ι]

/-- All readers are at the head of a new chain. -/
def init (ι : Type) (dataSize : Nat) : System ι where
  chain := .init dataSize
  readers _ := .new (.init dataSize)

def update (system : System ι) (i : ι) (reader : Reader) : System ι :=
  { system with readers := Function.update system.readers i reader }

def step (system : System ι) : Act ι → Option (System ι)
  | .store store => (system.chain.step store).map fun chain => { system with chain }
  | .prepareRead i => ((system.readers i).prepareRead system.chain).map (system.update i)
  | .step i => ((system.readers i).step system.chain).map (system.update i)
  | .confirmRead i size =>
      ((system.readers i).confirmRead system.chain size).map (system.update i)
  | .clone i j =>
      if (system.readers i).isClient ∧ (system.readers j).isClient then
        some (system.update i (system.readers j))
      else
        none

/-- The invariant of the system: those of the chain and of each reader. -/
structure Inv (system : System ι) : Prop where
  chain : system.chain.Inv
  readers : ∀ i, (system.readers i).Inv system.chain

variable {system system' : System ι} {i : ι} {act : Act ι} {acts acts' : List (Act ι)}
  {dataSize : Nat}

theorem inv_init (ι : Type) (dataSize : Nat) : (init ι dataSize).Inv where
  chain := Chain.inv_init dataSize
  readers _ := Reader.inv_new _

theorem update_inv (h : system.Inv) {reader : Reader} (hreader : reader.Inv system.chain) :
    (system.update i reader).Inv := by
  refine ⟨h.chain, ?_⟩
  intro j
  by_cases hj : j = i
  · subst hj
    simpa [update] using hreader
  · simpa [update, Function.update_of_ne hj] using h.readers j

/-- **Every step keeps the invariant**, and the chain only grows. -/
theorem step_inv (h : system.Inv) (hstep : system.step act = some system') :
    system'.Inv ∧ system.chain.Grows system'.chain := by
  cases act with
  | store store =>
      rcases Option.map_eq_some_iff.mp hstep with ⟨chain, hchain, hsystem⟩
      cases hsystem
      have hstored := Chain.stored_of_step hchain
      have hgrows := hstored.grows h.chain
      exact ⟨⟨hstored.inv h.chain, fun i => (h.readers i).grows hgrows⟩, hgrows⟩
  | prepareRead i =>
      rcases Option.map_eq_some_iff.mp hstep with ⟨reader, hreader, hsystem⟩
      cases hsystem
      exact ⟨update_inv h (Reader.prepareRead_inv (h.readers i) hreader), .refl _⟩
  | step i =>
      rcases Option.map_eq_some_iff.mp hstep with ⟨reader, hreader, hsystem⟩
      cases hsystem
      have hloads := Reader.loads_of_step hreader
      exact ⟨update_inv h (hloads.inv h.chain (h.readers i)), .refl _⟩
  | confirmRead i size =>
      rcases Option.map_eq_some_iff.mp hstep with ⟨reader, hreader, hsystem⟩
      cases hsystem
      exact ⟨update_inv h (Reader.confirmRead_inv (h.readers i) hreader), .refl _⟩
  | clone i j =>
      rcases Option.ite_none_right_eq_some.mp hstep with ⟨_, hsystem⟩
      cases hsystem
      exact ⟨update_inv h (h.readers j), .refl _⟩

/-- The invariant of every reachable state. -/
theorem run_inv (hrun : Steps.run step (init ι dataSize) acts = some system) : system.Inv :=
  Steps.run_invariant (fun _ _ _ h hstep => (step_inv h hstep).1) hrun (inv_init ι dataSize)

theorem run_grows (h : system.Inv) (hrun : Steps.run step system acts = some system') :
    system.chain.Grows system'.chain :=
  Steps.run_le (fun a b => a.chain.Grows b.chain) (fun s => .refl s.chain)
    (fun h h' => h.trans h') (fun _ _ _ h hstep => step_inv h hstep) hrun h

/-! ## What the readers get -/

/-- Two readers; one of them reads two bytes, finds nothing more, and is at the
point of leaving the first node. -/
def leaving : List (Act Bool) :=
  [.store (.confirmAppend [1, 2]), .prepareRead true, .step true, .step true,
    .confirmRead true 2, .prepareRead true, .step true, .step true, .clone false true,
    .store (.link (.ofSlice [3])), .prepareRead true, .store .release, .step true, .step true]

/-- It reads on to the end. -/
def ending : List (Act Bool) :=
  [.step true, .step true, .confirmRead true 1, .store .close, .prepareRead true, .step true,
    .step true, .step true]

theorem run_leaving :
    ∃ system, Steps.run step (init Bool 4) leaving = some system ∧
      (system.readers true).pc = .moving ∧ (system.readers true).consumed = [1, 2] ∧
      (system.readers false).pc = .drained ∧ system.chain = ⟨[⟨[1, 2], 4, true, false⟩],
        .ofSlice [3], none, false⟩ := by
  refine ⟨_, rfl, ?_⟩
  decide

theorem run_ending :
    ∃ system, Steps.run step (init Bool 4) (leaving ++ ending) = some system ∧
      (system.readers true).it.head = none ∧ (system.readers true).consumed = [1, 2, 3] := by
  refine ⟨_, rfl, ?_⟩
  decide

/-- **In order, once, and whole.** What a reader has read, with the slice it is
looking at behind it, is a prefix of what has been appended, also after anything
that happens later; and the slice does not change under it. -/
theorem appended_of_consumed
    (hrun : Steps.run step (init ι dataSize) acts = some system)
    (hrun' : Steps.run step system acts' = some system') (i : ι) :
    (system.readers i).consumed ++ (system.readers i).it.slice system.chain <+:
        system'.chain.appended ∧
      (system.readers i).it.slice system'.chain = (system.readers i).it.slice system.chain := by
  have hinv := run_inv hrun
  have hgrows := run_grows hinv hrun'
  have hreader := hinv.readers i
  refine ⟨hreader.slice_prefix.trans hgrows.appended, ?_⟩
  cases hhead : (system.readers i).it.head with
  | none => rw [Reader.slice_eq_nil hhead, Reader.slice_eq_nil hhead]
  | some j =>
      rcases hreader.atNode j hhead with ⟨node, hnode, hat⟩
      rcases hgrows.reached hnode with ⟨node', hnode', hgrows', -⟩
      have hbegin := hat.begin_le
      have hend := hat.end_le
      rcases hgrows'.data with ⟨rest, hrest⟩
      rw [Reader.slice_eq hhead hnode, Reader.slice_eq hhead hnode', ← hrest,
        List.drop_append_of_le_length (by omega), List.take_append_of_le_length]
      rw [List.length_drop]
      omega

theorem appended_of_consumed_leaving :
    ∃ system system', Steps.run step (init Bool 4) leaving = some system ∧
      Steps.run step system ending = some system' ∧
      (system.readers true).consumed ++ (system.readers true).it.slice system.chain <+:
        system'.chain.appended := by
  rcases run_ending with ⟨system', hrun, -⟩
  rcases Steps.run_append_eq_some_iff.mp hrun with ⟨system, hleaving, hending⟩
  exact ⟨system, system', hleaving, hending, (appended_of_consumed hleaving hending true).1⟩

/-- **The end** is seen by a reader that has read everything, after the writer is
gone. -/
theorem closed_of_head_eq_none (hrun : Steps.run step (init ι dataSize) acts = some system)
    (i : ι) (hhead : (system.readers i).it.head = none) :
    system.chain.closed = true ∧ (system.readers i).consumed = system.chain.appended := by
  have hend := ((run_inv hrun).readers i).atEnd hhead
  exact ⟨hend.closed, hend.consumed⟩

theorem closed_of_ending :
    ∃ system, Steps.run step (init Bool 4) (leaving ++ ending) = some system ∧
      system.chain.closed = true ∧ system.chain.appended = [1, 2, 3] := by
  rcases run_ending with ⟨system, hrun, hhead, hconsumed⟩
  rcases closed_of_head_eq_none hrun true hhead with ⟨hclosed, happended⟩
  exact ⟨system, hrun, hclosed, happended.symm.trans hconsumed⟩

/-- **Nothing is withheld.** A reader that is given an empty slice has read all
that had been appended when it called. -/
theorem mark_le_of_drained (hrun : Steps.run step (init ι dataSize) acts = some system) (i : ι)
    (hpc : (system.readers i).pc = .drained) :
    (system.readers i).mark ≤ (system.readers i).consumed.length :=
  ((run_inv hrun).readers i).drained hpc

theorem mark_le_of_leaving :
    ∃ system, Steps.run step (init Bool 4) leaving = some system ∧
      (system.readers false).mark ≤ (system.readers false).consumed.length := by
  rcases run_leaving with ⟨system, hrun, -, -, hdrained, -⟩
  exact ⟨system, hrun, mark_le_of_drained hrun false hdrained⟩

/-- **No race on `next_`.** Where a reader is about to load it, the writer does
not store to it. -/
theorem tail_ne_of_moving (hrun : Steps.run step (init ι dataSize) acts = some system) (i : ι)
    (hpc : (system.readers i).pc = .moving) {store : Store} {chain : Chain}
    (hstep : system.chain.step store = some chain) :
    (system.readers i).it.head ≠ some system.chain.older.length := by
  intro hhead
  have hinv := run_inv hrun
  rcases (hinv.readers i).atNode _ hhead with ⟨node, hnode, hat⟩
  have hknows := hat.knows
  simp only [Reader.Knows, hpc] at hknows
  have hwriter := ((Chain.stored_of_step hstep).alive hinv.chain).2
  rw [Chain.reached_tail, Option.some.injEq] at hnode
  rw [hnode, hknows.2] at hwriter
  cases hwriter

theorem tail_ne_of_leaving :
    ∃ system, Steps.run step (init Bool 4) leaving = some system ∧
      (system.readers true).it.head ≠ some 1 := by
  rcases run_leaving with ⟨system, hrun, hmoving, -, -, hchain⟩
  have hclose : system.chain.step .close =
      some ⟨[⟨[1, 2], 4, true, false⟩], ⟨[3], 1, false, false⟩, none, true⟩ := by
    rw [hchain]
    rfl
  have hne := tail_ne_of_moving hrun true hmoving hclose
  rw [hchain] at hne
  exact ⟨system, hrun, hne⟩

end System

end TonEncoder.ChainBuffer
