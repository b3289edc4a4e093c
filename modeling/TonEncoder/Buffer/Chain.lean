import TonEncoder.Codec.Process
import TonEncoder.Codec.Steps

/-! # Chains of buffers

`ChainBufferWriter` appends to a chain of nodes, and any number of
`ChainBufferIterator`s read the chain while it grows. They share the nodes and
nothing else, and there are no locks: what a reader relies on is the order in
which the writer stores to a node and to its flags.

* `Chain.step` has the stores of the writer, one by one.
* `Chain.Grows` is what an iterator may rely on, whatever the writer does next.
-/

namespace TonEncoder

open Process

namespace ChainBuffer

/-! ## Nodes -/

/-- `ChainBufferNode`: the bytes of its slice, up to the end that the writer has
published, and the size of the buffer behind it. -/
structure Node where
  data : Bytes
  dataSize : Nat
  syncFlag : Bool
  hasWriter : Bool
deriving DecidableEq, Repr

namespace Node

/-- The node of a new buffer. -/
def ofBuffer (dataSize : Nat) : Node := ⟨[], dataSize, true, true⟩

/-- The node of a slice, to which nothing can be appended. -/
def ofSlice (slice : Bytes) : Node := ⟨slice, slice.length, false, true⟩

/-- `slice_` is a constant. That of a new buffer was made before the first bytes
were published. -/
def sliceSize (node : Node) : Nat := if node.syncFlag then 0 else node.data.length

/-- What becomes of a node: bytes are added behind those it has, none to a slice,
and none once its writer is gone. -/
structure Grows (node node' : Node) : Prop where
  data : node.data <+: node'.data
  syncFlag : node'.syncFlag = node.syncFlag
  slice : node.syncFlag = false → node'.data = node.data
  released : node.hasWriter = false → node' = node

theorem Grows.refl (node : Node) : node.Grows node :=
  ⟨List.prefix_rfl, rfl, fun _ => rfl, fun _ => rfl⟩

theorem Grows.trans {a b c : Node} (h : a.Grows b) (h' : b.Grows c) : a.Grows c where
  data := h.data.trans h'.data
  syncFlag := h'.syncFlag.trans h.syncFlag
  slice := by
    intro hslice
    rw [h'.slice (h.syncFlag.trans hslice), h.slice hslice]
  released := by
    intro hreleased
    have hb := h.released hreleased
    rw [hb] at h'
    exact h'.released hreleased

end Node

/-! ## The writer -/

/-- The nodes of a `ChainBufferWriter`. A node is made known to the readers
before the writer leaves the one before it, so that for a moment there is a node
behind the tail. -/
structure Chain where
  older : List Node
  /-- `tail_`, whose buffer is that of `writer_` -/
  tail : Node
  /-- `tail_->next_` -/
  next : Option Node
  /-- the writer has been destroyed -/
  closed : Bool
deriving DecidableEq, Repr

/-- The stores of the writer. -/
inductive Store where
  /-- `writer_.confirm_append`, after the bytes have been copied behind the end -/
  | confirmAppend (bytes : Bytes)
  /-- `tail_->next_ = new_tail` -/
  | link (node : Node)
  /-- `tail_ = std::move(new_tail)`, which takes the writer from the old tail -/
  | release
  /-- the destructor -/
  | close
deriving DecidableEq, Repr

namespace Chain

/-- `ChainBufferWriter::init` -/
def init (dataSize : Nat) : Chain := ⟨[], Node.ofBuffer dataSize, none, false⟩

/-- The nodes that can be reached from the head. -/
def nodes (chain : Chain) : List Node := chain.older ++ chain.tail :: chain.next.toList

/-- The nodes up to the tail. -/
def reached (chain : Chain) : List Node := chain.older ++ [chain.tail]

/-- What has been appended. -/
def appended (chain : Chain) : Bytes := chain.reached.flatMap Node.data

/-- What is left of the buffer of `writer_`, which is null when the tail has a
slice. -/
def room (chain : Chain) : Nat :=
  if chain.tail.syncFlag then chain.tail.dataSize - chain.tail.data.length else 0

def step (chain : Chain) : Store → Option Chain
  | .confirmAppend bytes =>
      if chain.next = none ∧ chain.closed = false ∧ bytes.length ≤ chain.room then
        some { chain with tail := { chain.tail with data := chain.tail.data ++ bytes } }
      else
        none
  | .link node =>
      if chain.next = none ∧ chain.closed = false ∧ node.hasWriter = true then
        some { chain with next := some node }
      else
        none
  | .release =>
      chain.next.map fun node =>
        { chain with
          older := chain.older ++ [{ chain.tail with hasWriter := false }]
          tail := node
          next := none }
  | .close =>
      if chain.next = none ∧ chain.closed = false then
        some { chain with tail := { chain.tail with hasWriter := false }, closed := true }
      else
        none

/-- What the stores keep: the writer is at the tail and nowhere before it. -/
structure Inv (chain : Chain) : Prop where
  older : ∀ node ∈ chain.older, node.hasWriter = false
  tail : chain.tail.hasWriter = !chain.closed
  next : ∀ node, chain.next = some node → node.hasWriter = true ∧ chain.closed = false

/-- What becomes of a chain: the nodes before the tail stay as they are, and the
tail grows. -/
structure Grows (chain chain' : Chain) : Prop where
  older : chain.older <+: chain'.older
  tail : ∃ node, chain'.reached[chain.older.length]? = some node ∧ chain.tail.Grows node
  closed : chain.closed = true → chain' = chain

variable {chain chain' chain'' : Chain} {store : Store} {i : Nat} {node : Node}

theorem inv_init (dataSize : Nat) : (init dataSize).Inv where
  older := by simp [init]
  tail := rfl
  next := by simp [init]

theorem nodes_eq (chain : Chain) : chain.nodes = chain.reached ++ chain.next.toList := by
  simp [nodes, reached]

theorem length_reached (chain : Chain) : chain.reached.length = chain.older.length + 1 := by
  simp [reached]

theorem reached_tail (chain : Chain) : chain.reached[chain.older.length]? = some chain.tail := by
  simp [reached]

theorem reached_of_lt (h : i < chain.older.length) : chain.reached[i]? = chain.older[i]? := by
  simp [reached, List.getElem?_append_left h]

theorem take_reached (h : i ≤ chain.older.length) : chain.reached.take i = chain.older.take i := by
  simp [reached, List.take_append_of_le_length h]

/-- A node is the tail or has been released. -/
theorem Inv.reached_cases (h : chain.Inv) (hnode : chain.reached[i]? = some node) :
    (i < chain.older.length ∧ node.hasWriter = false) ∨
      (i = chain.older.length ∧ node = chain.tail) := by
  have hi : i < chain.reached.length := (List.getElem?_eq_some_iff.mp hnode).1
  rw [length_reached] at hi
  by_cases hlt : i < chain.older.length
  · left
    rw [reached_of_lt hlt] at hnode
    exact ⟨hlt, h.older node (List.mem_of_getElem? hnode)⟩
  · right
    have heq : i = chain.older.length := by omega
    rw [heq, reached_tail, Option.some.injEq] at hnode
    exact ⟨heq, hnode.symm⟩

/-! ## What a store does -/

/-- The stores that are possible, and what they do. -/
inductive Stored (chain : Chain) : Store → Chain → Prop where
  | confirmAppend (bytes : Bytes) (hnext : chain.next = none) (hopen : chain.closed = false)
      (hroom : bytes.length ≤ chain.room) :
      Stored chain (.confirmAppend bytes)
        { chain with tail := { chain.tail with data := chain.tail.data ++ bytes } }
  | link (node : Node) (hnext : chain.next = none) (hopen : chain.closed = false)
      (hwriter : node.hasWriter = true) :
      Stored chain (.link node) { chain with next := some node }
  | release (node : Node) (hnext : chain.next = some node) :
      Stored chain .release
        ⟨chain.older ++ [{ chain.tail with hasWriter := false }], node, none, chain.closed⟩
  | close (hnext : chain.next = none) (hopen : chain.closed = false) :
      Stored chain .close
        { chain with tail := { chain.tail with hasWriter := false }, closed := true }

theorem stored_of_step (h : chain.step store = some chain') : chain.Stored store chain' := by
  cases store with
  | confirmAppend bytes =>
      rcases Option.ite_none_right_eq_some.mp h with ⟨⟨hnext, hopen, hroom⟩, hchain⟩
      cases hchain
      exact .confirmAppend bytes hnext hopen hroom
  | link node =>
      rcases Option.ite_none_right_eq_some.mp h with ⟨⟨hnext, hopen, hwriter⟩, hchain⟩
      cases hchain
      exact .link node hnext hopen hwriter
  | release =>
      rcases Option.map_eq_some_iff.mp h with ⟨node, hnext, hchain⟩
      cases hchain
      exact .release node hnext
  | close =>
      rcases Option.ite_none_right_eq_some.mp h with ⟨⟨hnext, hopen⟩, hchain⟩
      cases hchain
      exact .close hnext hopen

theorem Stored.inv (hstored : chain.Stored store chain') (h : chain.Inv) : chain'.Inv := by
  cases hstored with
  | confirmAppend bytes => exact ⟨h.older, h.tail, h.next⟩
  | link node hnext hopen hwriter =>
      refine ⟨h.older, h.tail, ?_⟩
      intro node' hnode'
      cases hnode'
      exact ⟨hwriter, hopen⟩
  | release node hnext =>
      rcases h.next node hnext with ⟨hwriter, hopen⟩
      constructor
      case older =>
          intro node' hnode'
          rcases List.mem_append.mp hnode' with hold | hnew
          · exact h.older node' hold
          · rw [List.mem_singleton.mp hnew]
      case tail =>
          show node.hasWriter = !chain.closed
          rw [hwriter, hopen]
          rfl
      case next => simp
  | close hnext =>
      refine ⟨h.older, rfl, ?_⟩
      intro node' hnode'
      rw [hnext] at hnode'
      cases hnode'

/-- A store is made by a writer that is alive, and it is at the tail. -/
theorem Stored.alive (hstored : chain.Stored store chain') (h : chain.Inv) :
    chain.closed = false ∧ chain.tail.hasWriter = true := by
  have hopen : chain.closed = false := by
    cases hstored with
    | confirmAppend bytes hnext hopen => exact hopen
    | link node hnext hopen => exact hopen
    | release node hnext => exact (h.next node hnext).2
    | close hnext hopen => exact hopen
  refine ⟨hopen, ?_⟩
  rw [h.tail, hopen]
  rfl

theorem Grows.refl (chain : Chain) : chain.Grows chain :=
  ⟨List.prefix_rfl, ⟨chain.tail, reached_tail chain, .refl _⟩, fun _ => rfl⟩

theorem Stored.grows (hstored : chain.Stored store chain') (h : chain.Inv) :
    chain.Grows chain' := by
  rcases hstored.alive h with ⟨hopen, hwriter⟩
  have hclosed : ∀ {P : Prop}, chain.closed = true → P := by
    intro P hclosed
    rw [hopen] at hclosed
    cases hclosed
  have hreleased : ∀ {P : Prop}, chain.tail.hasWriter = false → P := by
    intro P hreleased
    rw [hwriter] at hreleased
    cases hreleased
  cases hstored with
  | confirmAppend bytes hnext hopen hroom =>
      refine ⟨List.prefix_rfl, ⟨_, reached_tail _, ?_⟩, hclosed⟩
      refine ⟨List.prefix_append _ _, rfl, ?_, hreleased⟩
      -- a slice has no room
      intro hslice
      simp only [room, hslice, Bool.false_eq_true, if_false, Nat.le_zero] at hroom
      rw [List.eq_nil_of_length_eq_zero hroom]
      exact List.append_nil _
  | link node => exact ⟨List.prefix_rfl, ⟨_, reached_tail _, .refl _⟩, hclosed⟩
  | release node hnext =>
      refine ⟨List.prefix_append _ _, ⟨{ chain.tail with hasWriter := false }, ?_, ?_⟩, hclosed⟩
      · simp [reached]
      · exact ⟨List.prefix_rfl, rfl, fun _ => rfl, hreleased⟩
  | close =>
      refine ⟨List.prefix_rfl, ⟨_, reached_tail _, ?_⟩, hclosed⟩
      exact ⟨List.prefix_rfl, rfl, fun _ => rfl, hreleased⟩

/-- The bytes that a store appends: those of a node count once the writer is in
it. -/
def newBytes (chain : Chain) : Store → Bytes
  | .confirmAppend bytes => bytes
  | .release => (chain.next.map Node.data).getD []
  | _ => []

theorem Stored.appended (hstored : chain.Stored store chain') :
    chain'.appended = chain.appended ++ chain.newBytes store := by
  cases hstored with
  | confirmAppend => simp [Chain.appended, reached, newBytes]
  | link => simp [Chain.appended, reached, newBytes]
  | release node hnext => simp [Chain.appended, reached, newBytes, hnext]
  | close => simp [Chain.appended, reached, newBytes]

/-! ## What a reader relies on -/

/-- Up to the tail, the nodes before one stay as they are, and it grows. -/
theorem Grows.reached (h : chain.Grows chain') (hnode : chain.reached[i]? = some node) :
    ∃ node', chain'.reached[i]? = some node' ∧ node.Grows node' ∧
      chain'.reached.take i = chain.reached.take i := by
  have hi : i < chain.reached.length := (List.getElem?_eq_some_iff.mp hnode).1
  rw [length_reached] at hi
  have hlength := h.older.length_le
  rcases h.older with ⟨rest, hrest⟩
  have htake : chain'.reached.take i = chain.reached.take i := by
    rw [take_reached (by omega), take_reached (by omega), ← hrest,
      List.take_append_of_le_length (by omega)]
  by_cases hlt : i < chain.older.length
  · refine ⟨node, ?_, .refl node, htake⟩
    rw [reached_of_lt hlt] at hnode
    rw [reached_of_lt (lt_of_lt_of_le hlt hlength), ← hrest, List.getElem?_append_left hlt, hnode]
  · have heq : i = chain.older.length := by omega
    subst heq
    rw [reached_tail, Option.some.injEq] at hnode
    subst hnode
    rcases h.tail with ⟨node', hnode', hgrows⟩
    exact ⟨node', hnode', hgrows, htake⟩

theorem Grows.trans (h : chain.Grows chain') (h' : chain'.Grows chain'') :
    chain.Grows chain'' where
  older := h.older.trans h'.older
  tail := by
    rcases h.tail with ⟨node, hnode, hgrows⟩
    rcases h'.reached hnode with ⟨node', hnode', hgrows', -⟩
    exact ⟨node', hnode', hgrows.trans hgrows'⟩
  closed := by
    intro hclosed
    have hchain := h.closed hclosed
    subst hchain
    exact h'.closed hclosed

/-- The bytes up to a node, and those from it on. -/
theorem appended_split (hnode : chain.reached[i]? = some node) :
    chain.appended = (chain.reached.take i).flatMap Node.data ++
      (node.data ++ (chain.reached.drop (i + 1)).flatMap Node.data) := by
  rcases List.getElem?_eq_some_iff.mp hnode with ⟨hi, rfl⟩
  rw [appended]
  conv_lhs => rw [← List.take_append_drop i chain.reached, List.drop_eq_getElem_cons hi]
  rw [List.flatMap_append, List.flatMap_cons]

theorem appended_eq (chain : Chain) :
    chain.appended = (chain.reached.take chain.older.length).flatMap Node.data ++
      chain.tail.data := by
  have hsplit := appended_split (reached_tail chain)
  rwa [List.drop_eq_nil_of_le (by rw [length_reached]), List.flatMap_nil, List.append_nil] at hsplit

theorem Grows.appended (h : chain.Grows chain') : chain.appended <+: chain'.appended := by
  rcases h.reached (reached_tail chain) with ⟨node, hnode, hgrows, htake⟩
  rw [appended_eq, appended_split hnode, htake]
  exact (List.prefix_append_right_inj _).mpr (hgrows.data.trans (List.prefix_append _ _))

theorem nodes_of_reached (hnode : chain.reached[i]? = some node) : chain.nodes[i]? = some node := by
  have hi := (List.getElem?_eq_some_iff.mp hnode).1
  rw [nodes_eq, List.getElem?_append_left hi, hnode]

end Chain

end ChainBuffer

end TonEncoder
