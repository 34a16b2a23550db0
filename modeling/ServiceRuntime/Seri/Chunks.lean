import ServiceRuntime.Seri.Packer

namespace ServiceRuntime
namespace Seri

open Foundation

/-!
# The memory behind the blocks

`Seri.Blocks` takes a block to be the bytes written to it.  Here a block is what
it is in memory: an array of `BLOCK_SIZE` bytes, of which those not written yet
are whatever `malloc` left there, and a pointer to the next block.  How many
bytes are written, in the current block and altogether, only `ptr` and `len`
tell, and these are of the type `int`.

An operation is undefined, and answers nothing, where it would copy beyond a
block, follow a null pointer or exceed the largest `int`; and an assertion that
fails answers nothing as well.
-/

/-- `INT_MAX`. -/
def intMax : Nat := 2 ^ 31 - 1

/-- What is in the blocks before they are written to: in the first, which lies
on the stack, and in those that `malloc` answers. -/
abbrev Garbage := Nat -> Vector UInt8 blockSize

/-- `struct block`.  A pointer is the place of a block in the order of creation. -/
structure Node where
  buffer : List UInt8
  next : Option Nat
  deriving DecidableEq, Repr

/-- `struct write_block` with the blocks there are. -/
structure WriteBlock where
  nodes : List Node
  current : Nat
  len : Nat
  ptr : Nat
  deriving DecidableEq, Repr

/-- `memcpy` into an array. -/
def overwrite (buffer : List UInt8) (offset : Nat) (bytes : List UInt8) : List UInt8 :=
  buffer.take offset ++ bytes ++ buffer.drop (offset + bytes.length)

/-- A block in which one byte is changed. -/
def Node.change (node : Node) (offset : Nat) (byte : UInt8) : Node :=
  { node with buffer := node.buffer.set offset byte }

namespace WriteBlock

/-- `wb_init` with the block on the stack. -/
def init (garbage : Garbage) : WriteBlock where
  nodes := [⟨(garbage 0).toList, none⟩]
  current := 0
  len := 0
  ptr := 0

/-- `current = current->next = blk_alloc()`, and `ptr = 0`. -/
def blkAlloc (garbage : Garbage) (wb : WriteBlock) : WriteBlock where
  nodes := (wb.nodes.modify wb.current fun node => { node with next := some wb.nodes.length }) ++
    [⟨(garbage wb.nodes.length).toList, none⟩]
  current := wb.nodes.length
  len := wb.len
  ptr := 0

/-- `memcpy` to where the current block is written, and `len` moved on. -/
def store (wb : WriteBlock) (bytes : List UInt8) : Option WriteBlock :=
  if wb.ptr + bytes.length ≤ blockSize ∧ wb.len + bytes.length ≤ intMax then
    some { wb with
      nodes := wb.nodes.modify wb.current fun node =>
        { node with buffer := overwrite node.buffer wb.ptr bytes }
      len := wb.len + bytes.length }
  else none

/-- `wb_push` from the label on, where the current block is not full. -/
def fill (garbage : Garbage) : Nat -> List UInt8 -> WriteBlock -> Option WriteBlock
  | 0, _, _ => none
  | rounds + 1, buffer, wb =>
      if wb.ptr + buffer.length ≤ blockSize then
        (wb.store buffer).map fun wb => { wb with ptr := wb.ptr + buffer.length }
      else
        let copy := blockSize - wb.ptr
        (wb.store (buffer.take copy)).bind fun wb =>
          fill garbage rounds (buffer.drop copy) (wb.blkAlloc garbage)

/-- A full block is followed by a new one. -/
def makeRoom (garbage : Garbage) (wb : WriteBlock) : WriteBlock :=
  if wb.ptr = blockSize then wb.blkAlloc garbage else wb

/-- `wb_push`: a round writes at least one byte. -/
def wbPush (garbage : Garbage) (wb : WriteBlock) (buffer : List UInt8) : Option WriteBlock :=
  fill garbage (buffer.length + 1) buffer (wb.makeRoom garbage)

/-- The address that `wb_address` answers after it has made room. -/
def address (wb : WriteBlock) : Address := ⟨wb.current, wb.ptr⟩

/-- `change_mark`. -/
def changeMark (wb : WriteBlock) (address : Address) : Option WriteBlock :=
  match (wb.nodes[address.block]?).bind fun node => node.buffer[address.offset]? with
  | some tag =>
      if tag.toNat % 8 = typeTable then
        some { wb with
          nodes := wb.nodes.modify address.block fun node =>
            node.change address.offset (combineType typeTableMark (tag.toNat / 8)) }
      else none
  | none => none

/-- The loop of `seri` from the block `b` on: the blocks it reads, and the bytes. -/
def copyOut (nodes : List Node) : Nat -> Option Nat -> Nat -> Option (List Nat × List UInt8)
  | 0, _, _ => none
  | rounds + 1, b, len =>
      if len = 0 then some ([], [])
      else
        match b with
        | none => none
        | some place =>
            match nodes[place]? with
            | none => none
            | some node =>
                if blockSize ≤ len then
                  (copyOut nodes rounds node.next (len - blockSize)).map fun rest =>
                    (place :: rest.1, node.buffer.take blockSize ++ rest.2)
                else some ([place], node.buffer.take len)

/-- `seri`, which allocates `len + 4` bytes. -/
def seri (wb : WriteBlock) : Option (List Nat × List UInt8) :=
  if wb.len + 4 ≤ intMax then
    (copyOut wb.nodes (wb.len + 1) (some 0) wb.len).map fun copied =>
      (copied.1, littleEndian 4 wb.len ++ copied.2)
  else none

end WriteBlock

/-! ## The calls -/

/-- A call: `wb_push` of at least one byte, `wb_address` followed by `wb_push`
of one byte, or `change_mark` of an address answered, counted from the first. -/
inductive Call where
  | push (first : UInt8) (rest : List UInt8)
  | tag (byte : UInt8)
  | mark (address : Nat)
  deriving DecidableEq, Repr

/-- The calls on the blocks, with the addresses answered so far. -/
def perform (garbage : Garbage) : Call -> WriteBlock × List Address -> Option (WriteBlock × List Address)
  | .push first rest, (wb, addresses) =>
      (wb.wbPush garbage (first :: rest)).map fun wb => (wb, addresses)
  | .tag byte, (wb, addresses) =>
      let room := wb.makeRoom garbage
      (room.wbPush garbage [byte]).map fun wb => (wb, addresses ++ [room.address])
  | .mark number, (wb, addresses) =>
      match addresses[number]? with
      | some address => (wb.changeMark address).map fun wb => (wb, addresses)
      | none => none

def performAll (garbage : Garbage) : List Call -> WriteBlock × List Address ->
    Option (WriteBlock × List Address)
  | [], state => some state
  | call :: rest, state => (perform garbage call state).bind (performAll garbage rest)

/-- What is written: one string of bytes, and the positions of the tagged ones. -/
structure Text where
  bytes : List UInt8
  tagged : List Nat
  deriving DecidableEq, Repr

/-- What a call means for the string.  Only a byte that is the tag of a table
can be marked. -/
def Text.call (text : Text) : Call -> Option Text
  | .push first rest => some { text with bytes := text.bytes ++ first :: rest }
  | .tag byte => some ⟨text.bytes ++ [byte], text.tagged ++ [text.bytes.length]⟩
  | .mark number =>
      match text.tagged[number]? with
      | some position =>
          match text.bytes[position]? with
          | some tag =>
              if tag.toNat % 8 = typeTable then
                some { text with
                  bytes := text.bytes.set position (combineType typeTableMark (tag.toNat / 8)) }
              else none
          | none => none
      | none => none

def Text.callAll : Text -> List Call -> Option Text
  | text, [] => some text
  | text, call :: rest => (text.call call).bind fun next => next.callAll rest

/-! ## The blocks in memory hold what is written to them -/

/-- The bytes written to a block stand at its front. -/
structure Node.Holds (node : Node) (block : Block) : Prop where
  size : node.buffer.length = blockSize
  written : node.buffer.take block.buffer.length = block.buffer

/-- The memory behind the blocks. -/
structure Simulates (wb : WriteBlock) (blocks : Blocks) : Prop where
  length : wb.nodes.length = blocks.chain.length
  holds : forall (place : Nat) (node : Node) (block : Block), wb.nodes[place]? = some node -> blocks.chain[place]? = some block ->
    node.Holds block
  next : forall (place : Nat) (node : Node), wb.nodes[place]? = some node ->
    node.next = if place < wb.current then some (place + 1) else none
  current : wb.current = blocks.earlier.length
  len : wb.len = blocks.contents.length
  ptr : wb.ptr = blocks.current.buffer.length

theorem length_chain (blocks : Blocks) : blocks.chain.length = blocks.earlier.length + 1 := by
  rw [Blocks.chain, List.length_append, List.length_singleton]

theorem modify_last (blocks : List Block) (last : Block) (change : Block -> Block) :
    (blocks ++ [last]).modify blocks.length change = blocks ++ [change last] := by
  induction blocks with
  | nil => rfl
  | cons block rest inductionHypothesis =>
      rw [List.cons_append, List.length_cons, List.modify_succ_cons, inductionHypothesis]
      rfl

theorem modify_before {blocks : List Block} {place : Nat} (last : Block) (change : Block -> Block)
    (inside : place < blocks.length) :
    (blocks ++ [last]).modify place change = blocks.modify place change ++ [last] := by
  induction blocks generalizing place with
  | nil => exact absurd inside (Nat.not_lt_zero place)
  | cons block rest inductionHypothesis =>
      cases place with
      | zero => rfl
      | succ place =>
          rw [List.cons_append, List.modify_succ_cons, List.modify_succ_cons,
            inductionHypothesis (Nat.lt_of_succ_lt_succ inside)]
          rfl

theorem append_chain (blocks : Blocks) (bytes : List UInt8) :
    (blocks.append bytes).chain = blocks.chain.modify blocks.earlier.length fun block =>
      { block with buffer := block.buffer ++ bytes } := by
  rw [Blocks.chain, Blocks.chain, modify_last]
  rfl

theorem patch_chain {blocks : Blocks} {address : Address} (byte : UInt8)
    (inside : address.block ≤ blocks.earlier.length) :
    (blocks.patch address byte).chain = blocks.chain.modify address.block fun block =>
      block.change address.offset byte := by
  rw [Blocks.chain, Blocks.chain]
  unfold Blocks.patch
  split
  · rename_i early
    rw [modify_before _ _ early]
  · rename_i last
    have same : address.block = blocks.earlier.length := by omega
    rw [same, modify_last]

theorem patch_lengths (blocks : Blocks) (address : Address) (byte : UInt8) :
    (blocks.patch address byte).earlier.length = blocks.earlier.length ∧
      (blocks.patch address byte).current.buffer.length = blocks.current.buffer.length := by
  unfold Blocks.patch
  split
  · exact ⟨List.length_modify _ _ _, rfl⟩
  · exact ⟨rfl, List.length_set⟩

/-- The same change made to a node and to its block. -/
theorem Simulates.modify {wb : WriteBlock} {blocks : Blocks} (simulates : Simulates wb blocks)
    (place : Nat) {change : Node -> Node} {changed : Block -> Block}
    (link : forall node, (change node).next = node.next)
    (holds : forall (node : Node) (block : Block), wb.nodes[place]? = some node ->
      blocks.chain[place]? = some block ->
      node.Holds block -> (change node).Holds (changed block)) :
    (forall (other : Nat) (node : Node) (block : Block), (wb.nodes.modify place change)[other]? = some node ->
        (blocks.chain.modify place changed)[other]? = some block -> node.Holds block) ∧
      forall (other : Nat) (node : Node), (wb.nodes.modify place change)[other]? = some node ->
        node.next = if other < wb.current then some (other + 1) else none := by
  constructor
  · intro other node block present written
    rw [List.getElem?_modify] at present written
    rcases Option.map_eq_some_iff.mp present with ⟨oldNode, foundNode, rfl⟩
    rcases Option.map_eq_some_iff.mp written with ⟨oldBlock, foundBlock, rfl⟩
    have before := simulates.holds other oldNode oldBlock foundNode foundBlock
    by_cases same : place = other
    · subst same
      rw [if_pos rfl, if_pos rfl]
      exact holds oldNode oldBlock foundNode foundBlock before
    · rw [if_neg same, if_neg same]
      exact before
  · intro other node present
    rw [List.getElem?_modify] at present
    rcases Option.map_eq_some_iff.mp present with ⟨oldNode, foundNode, rfl⟩
    rw [← simulates.next other oldNode foundNode]
    by_cases same : place = other
    · rw [if_pos same]
      exact link oldNode
    · rw [if_neg same]

theorem Node.Holds.overwrite {node : Node} {block : Block} (holds : node.Holds block)
    {bytes : List UInt8} (fits : block.buffer.length + bytes.length ≤ blockSize) :
    Node.Holds { node with buffer := Seri.overwrite node.buffer block.buffer.length bytes }
      { block with buffer := block.buffer ++ bytes } where
  size := by
    have size := holds.size
    simp only [Seri.overwrite, List.length_append, List.length_take, List.length_drop]
    omega
  written := by
    dsimp only [Seri.overwrite]
    rw [holds.written, List.length_append, ← List.length_append, List.take_left' rfl]

theorem Node.Holds.change {node : Node} {block : Block} (holds : node.Holds block) (offset : Nat)
    (byte : UInt8) :
    (node.change offset byte).Holds (block.change offset byte) where
  size := by
    rw [Node.change, List.length_set]
    exact holds.size
  written := by
    dsimp only [Node.change, Block.change]
    rw [List.length_set, List.take_set, holds.written]

section

variable {garbage : Garbage} {wb : WriteBlock} {blocks : Blocks}

theorem init_simulates (garbage : Garbage) : Simulates (.init garbage) .init where
  length := rfl
  holds := by
    intro place node block present written
    cases place with
    | zero =>
        cases present
        cases written
        exact ⟨(garbage 0).length_toList, List.take_zero⟩
    | succ place => cases present
  next := by
    intro place node present
    cases place with
    | zero =>
        cases present
        rfl
    | succ place => cases present
  current := rfl
  len := rfl
  ptr := rfl

theorem Simulates.nodes_length (simulates : Simulates wb blocks) :
    wb.nodes.length = wb.current + 1 := by
  rw [simulates.length, length_chain, simulates.current]

theorem Simulates.blkAlloc (simulates : Simulates wb blocks) :
    Simulates (wb.blkAlloc garbage) blocks.blkAlloc := by
  have length := simulates.nodes_length
  have chain : blocks.blkAlloc.chain = blocks.chain ++ [⟨blocks.allocated + 1, []⟩] := rfl
  have nodes : (wb.blkAlloc garbage).nodes =
      (wb.nodes.modify wb.current fun node => { node with next := some wb.nodes.length }) ++
        [⟨(garbage wb.nodes.length).toList, none⟩] := rfl
  constructor
  · rw [nodes, chain, List.length_append, List.length_append, List.length_modify,
      simulates.length]
    rfl
  · intro place node block present written
    rw [nodes] at present
    rw [chain] at written
    rcases Nat.lt_or_ge place wb.nodes.length with old | new
    · rw [List.getElem?_append_left (by rw [List.length_modify]; exact old),
        List.getElem?_modify] at present
      rw [List.getElem?_append_left (by rw [← simulates.length]; exact old)] at written
      rcases Option.map_eq_some_iff.mp present with ⟨before, found, rfl⟩
      have holds := simulates.holds place before block found written
      split
      · exact ⟨holds.size, holds.written⟩
      · exact holds
    · rw [List.getElem?_append_right (by rw [List.length_modify]; exact new),
        List.length_modify] at present
      rw [List.getElem?_append_right (by rw [← simulates.length]; exact new),
        ← simulates.length] at written
      rcases List.getElem?_eq_some_iff.mp present with ⟨_, rfl⟩
      rcases List.getElem?_eq_some_iff.mp written with ⟨_, rfl⟩
      rw [List.getElem_singleton, List.getElem_singleton]
      exact ⟨(garbage wb.nodes.length).length_toList, List.take_zero⟩
  · intro place node present
    change node.next = if place < wb.nodes.length then some (place + 1) else none
    rw [nodes] at present
    rcases Nat.lt_or_ge place wb.nodes.length with old | new
    · rw [if_pos old]
      rw [List.getElem?_append_left (by rw [List.length_modify]; exact old),
        List.getElem?_modify] at present
      rcases Option.map_eq_some_iff.mp present with ⟨before, found, rfl⟩
      split
      · rename_i last
        rw [← last, ← length]
      · rename_i notLast
        exact (simulates.next place before found).trans (if_pos (by omega))
    · rw [if_neg (Nat.not_lt.mpr new)]
      rw [List.getElem?_append_right (by rw [List.length_modify]; exact new)] at present
      rcases List.getElem?_eq_some_iff.mp present with ⟨_, rfl⟩
      rw [List.getElem_singleton]
  · change wb.nodes.length = (blocks.earlier ++ [blocks.current]).length
    rw [simulates.length]
    rfl
  · rw [Blocks.blkAlloc_contents]
    exact simulates.len
  · rfl

/-- A write to the current block, after which `ptr` is to be moved on. -/
theorem Simulates.store (simulates : Simulates wb blocks) {bytes : List UInt8}
    (fits : wb.ptr + bytes.length ≤ blockSize) (inside : wb.len + bytes.length ≤ intMax) :
    Exists fun next => wb.store bytes = some next ∧
      Simulates { next with ptr := next.ptr + bytes.length } (blocks.append bytes) := by
  refine ⟨_, if_pos ⟨fits, inside⟩, ?_⟩
  have kept := @Simulates.modify wb blocks simulates wb.current
    (fun node => { node with buffer := overwrite node.buffer wb.ptr bytes })
    (fun block => { block with buffer := block.buffer ++ bytes }) (fun _ => rfl) (by
      intro node block _ last holds
      rw [simulates.current, Blocks.chain, List.getElem?_append_right (Nat.le_refl _),
        Nat.sub_self] at last
      cases last
      rw [simulates.ptr]
      apply holds.overwrite
      rw [← simulates.ptr]
      exact fits)
  have chain := append_chain blocks bytes
  rw [← simulates.current] at chain
  constructor
  · rw [chain, List.length_modify, List.length_modify]
    exact simulates.length
  · rw [chain]
    exact kept.1
  · exact kept.2
  · exact simulates.current
  · rw [Blocks.append_contents, List.length_append, ← simulates.len]
  · change wb.ptr + bytes.length = (blocks.current.buffer ++ bytes).length
    rw [List.length_append, simulates.ptr]

theorem Simulates.makeRoom (simulates : Simulates wb blocks) :
    Simulates (wb.makeRoom garbage) blocks.makeRoom := by
  unfold WriteBlock.makeRoom Blocks.makeRoom
  rw [simulates.ptr]
  split
  · exact simulates.blkAlloc
  · exact simulates

theorem Simulates.fill {rounds : Nat} {buffer : List UInt8} (simulates : Simulates wb blocks)
    (sound : blocks.Sound) (room : blocks.current.buffer.length < blockSize)
    (enough : buffer.length < rounds) (inside : wb.len + buffer.length ≤ intMax) :
    Exists fun next => WriteBlock.fill garbage rounds buffer wb = some next ∧
      Simulates next (Blocks.fill rounds buffer blocks) := by
  induction rounds generalizing wb blocks buffer with
  | zero => exact absurd enough (Nat.not_lt_zero _)
  | succ rounds inductionHypothesis =>
      rw [WriteBlock.fill, Blocks.fill, ← simulates.ptr]
      split
      · rename_i fits
        rcases simulates.store fits inside with ⟨next, stored, kept⟩
        rw [stored, Option.map_some]
        exact ⟨_, rfl, kept⟩
      · rename_i long
        rw [simulates.ptr] at long
        have copied : (buffer.take (blockSize - wb.ptr)).length = blockSize - wb.ptr := by
          rw [List.length_take, simulates.ptr]
          omega
        have copyFits : wb.ptr + (buffer.take (blockSize - wb.ptr)).length ≤ blockSize := by
          rw [copied, simulates.ptr]
          omega
        have copyInside : wb.len + (buffer.take (blockSize - wb.ptr)).length ≤ intMax := by
          rw [List.length_take]
          omega
        rcases simulates.store copyFits copyInside with ⟨next, stored, kept⟩
        have full : (blocks.append (buffer.take (blockSize - wb.ptr))).current.buffer.length =
            blockSize := by
          change (blocks.current.buffer ++ _).length = blockSize
          rw [List.length_append, copied, simulates.ptr]
          omega
        have further : Simulates (next.blkAlloc garbage)
            (blocks.append (buffer.take (blockSize - wb.ptr))).blkAlloc := kept.blkAlloc
        have length : next.len = wb.len + (blockSize - wb.ptr) := by
          rw [← copied, kept.len, Blocks.append_contents, List.length_append, simulates.len]
        dsimp only
        rw [stored, Option.bind_some]
        apply inductionHypothesis further
        · exact (sound.append (by rw [← simulates.ptr]; exact copyFits)).blkAlloc full
        · exact Nat.succ_pos 127
        · rw [List.length_drop, simulates.ptr]
          omega
        · change next.len + _ ≤ intMax
          rw [List.length_drop, length, simulates.ptr]
          omega

theorem Simulates.wbPush {buffer : List UInt8} (simulates : Simulates wb blocks)
    (sound : blocks.Sound) (inside : blocks.contents.length + buffer.length ≤ intMax) :
    Exists fun next => wb.wbPush garbage buffer = some next ∧
      Simulates next (blocks.wbPush buffer) := by
  have room := @Simulates.makeRoom garbage wb blocks simulates
  apply room.fill sound.makeRoom sound.makeRoom_short (Nat.lt_succ_self _)
  rw [room.len, Blocks.makeRoom_contents]
  exact inside

theorem Simulates.address_eq (simulates : Simulates wb blocks) : wb.address = blocks.address := by
  unfold WriteBlock.address Blocks.address
  rw [simulates.current, simulates.ptr]

/-- The byte in memory at an address that is written to. -/
theorem Simulates.byteAt (simulates : Simulates wb blocks) (sound : blocks.Sound) {address : Address}
    (inside : address.offset < blockSize) (written : address.place < blocks.contents.length) :
    ((wb.nodes[address.block]?).bind fun node => node.buffer[address.offset]?) =
      blocks.contents[address.place]? := by
  obtain ⟨before, block, after, chain, place, within, _, _⟩ := sound.exists_block inside written
  have found : blocks.chain[address.block]? = some block := by
    rw [chain, ← place, List.getElem?_append_right (Nat.le_refl _), Nat.sub_self,
      List.getElem?_cons_zero]
  have present : address.block < wb.nodes.length := by
    rw [simulates.length]
    exact (List.getElem?_eq_some_iff.mp found).1
  have node := List.getElem?_eq_getElem present
  have holds := simulates.holds address.block _ block node found
  rw [← sound.byteAt_eq inside written, Blocks.byteAt, node, found, Option.bind_some,
    Option.bind_some, ← holds.written, List.getElem?_take_of_lt within]

theorem Simulates.changeMark (simulates : Simulates wb blocks) (sound : blocks.Sound)
    {address : Address} {tag : UInt8} (inside : address.offset < blockSize)
    (found : blocks.contents[address.place]? = some tag) (isTable : tag.toNat % 8 = typeTable) :
    Exists fun next => wb.changeMark address = some next ∧
      Simulates next (blocks.patch address (combineType typeTableMark (tag.toNat / 8))) := by
  have written := (List.getElem?_eq_some_iff.mp found).1
  have byte := (simulates.byteAt sound inside written).trans found
  have within : address.block ≤ blocks.earlier.length := by
    have length := sound.length_contents
    have short := sound.short
    unfold Address.place at written
    unfold blockSize at *
    omega
  have changed : wb.changeMark address = some { wb with
      nodes := wb.nodes.modify address.block fun node =>
        node.change address.offset (combineType typeTableMark (tag.toNat / 8)) } := by
    unfold WriteBlock.changeMark
    rw [byte]
    exact if_pos isTable
  have kept := @Simulates.modify wb blocks simulates address.block
    (fun node => node.change address.offset (combineType typeTableMark (tag.toNat / 8)))
    (fun block => block.change address.offset (combineType typeTableMark (tag.toNat / 8)))
    (fun _ => rfl) (fun _ _ _ _ holds => holds.change _ _)
  have chain := patch_chain (combineType typeTableMark (tag.toNat / 8)) within
  have lengths := patch_lengths blocks address (combineType typeTableMark (tag.toNat / 8))
  refine ⟨_, changed, ?_⟩
  constructor
  · rw [chain, List.length_modify, List.length_modify]
    exact simulates.length
  · rw [chain]
    exact kept.1
  · exact kept.2
  · rw [lengths.1]
    exact simulates.current
  · rw [sound.patch_contents inside written, List.length_set]
    exact simulates.len
  · rw [lengths.2]
    exact simulates.ptr

/-! ## What `seri` reads -/

/-- How many blocks so many bytes fill or begin. -/
def blocksFor (length : Nat) : Nat := (length + (blockSize - 1)) / blockSize

theorem blocksFor_add (length : Nat) : blocksFor (length + blockSize) = blocksFor length + 1 := by
  unfold blocksFor blockSize
  omega

theorem blocksFor_block {length : Nat} (nonempty : 0 < length) (short : length ≤ blockSize) :
    blocksFor length = 1 := by
  unfold blocksFor blockSize at *
  omega

/-- A place in the chain is of an earlier block, or of the current one. -/
theorem chain_cases {place : Nat} (within : place ≤ blocks.earlier.length) :
    (place < blocks.earlier.length ∧ Exists fun block => block ∈ blocks.earlier ∧
        blocks.chain[place]? = some block ∧
        blocks.chain.drop place = block :: blocks.chain.drop (place + 1)) ∨
      (place = blocks.earlier.length ∧ blocks.chain[place]? = some blocks.current ∧
        blocks.chain.drop place = [blocks.current]) := by
  unfold Blocks.chain
  rcases Nat.lt_or_eq_of_le within with early | last
  · refine Or.inl ⟨early, blocks.earlier[place], List.getElem_mem early, ?_, ?_⟩
    · rw [List.getElem?_append_left early, List.getElem?_eq_getElem early]
    · rw [List.drop_append_of_le_length (Nat.le_of_lt early), List.drop_append_of_le_length early,
        List.drop_eq_getElem_cons early]
      rfl
  · subst last
    refine Or.inr ⟨rfl, ?_, List.drop_left' rfl⟩
    rw [List.getElem?_append_right (Nat.le_refl _), Nat.sub_self, List.getElem?_cons_zero]

/-- The loop of `seri` reads every block from the given one on that holds a byte,
and no other. -/
theorem Simulates.copyOut {rounds place : Nat} (simulates : Simulates wb blocks)
    (sound : blocks.Sound) (within : place ≤ blocks.earlier.length)
    (enough : blockSize * (blocks.earlier.length - place) + wb.ptr < rounds) :
    WriteBlock.copyOut wb.nodes rounds (some place)
        (blockSize * (blocks.earlier.length - place) + wb.ptr) =
      some (List.range' place (blocksFor (blockSize * (blocks.earlier.length - place) + wb.ptr)),
        (blocks.chain.drop place).flatMap Block.buffer) := by
  induction rounds generalizing place with
  | zero => exact absurd enough (Nat.not_lt_zero _)
  | succ rounds inductionHypothesis =>
      have positive : 0 < blockSize := Nat.succ_pos 127
      obtain ⟨node, present⟩ : Exists fun node => wb.nodes[place]? = some node := by
        have inside : place < wb.nodes.length := by
          rw [simulates.nodes_length, simulates.current]
          exact Nat.lt_succ_of_le within
        exact ⟨_, List.getElem?_eq_getElem inside⟩
      have next := simulates.next place node present
      rw [simulates.current] at next
      rw [WriteBlock.copyOut, present]
      dsimp only
      rcases chain_cases within with ⟨early, block, member, found, rest⟩ | ⟨last, found, rest⟩
      · have full := sound.full block member
        have holds := simulates.holds place node block present found
        have written := holds.written
        have left : blockSize * (blocks.earlier.length - place) + wb.ptr =
            blockSize * (blocks.earlier.length - (place + 1)) + wb.ptr + blockSize := by
          rw [show blocks.earlier.length - place = blocks.earlier.length - (place + 1) + 1 by omega,
            Nat.mul_succ]
          omega
        rw [if_pos early] at next
        rw [full] at written
        rw [left] at enough ⊢
        rw [if_neg (by omega), if_pos (Nat.le_add_left _ _), Nat.add_sub_cancel, next,
          @inductionHypothesis (place + 1) early (by omega), blocksFor_add, List.range'_succ, rest,
          List.flatMap_cons, written]
        rfl
      · have holds := simulates.holds place node blocks.current present found
        have written := holds.written
        have short := sound.short
        rw [← simulates.ptr] at written short
        rw [last, if_neg (Nat.lt_irrefl _)] at next
        rw [last, Nat.sub_self, Nat.mul_zero, Nat.zero_add] at enough ⊢
        rw [last] at rest
        rw [rest, List.flatMap_singleton]
        by_cases unwritten : wb.ptr = 0
        · have empty : blocks.current.buffer = [] := by
            apply List.eq_nil_of_length_eq_zero
            rw [← simulates.ptr]
            exact unwritten
          rw [if_pos unwritten, unwritten, empty]
          rfl
        · rw [if_neg unwritten, blocksFor_block (Nat.pos_of_ne_zero unwritten) short]
          by_cases whole : blockSize ≤ wb.ptr
          · have all : wb.ptr = blockSize := Nat.le_antisymm short whole
            rw [all] at written enough ⊢
            obtain ⟨fewer, rfl⟩ := Nat.exists_eq_succ_of_ne_zero (show rounds ≠ 0 by omega)
            rw [if_pos (Nat.le_refl _), next, Nat.sub_self, WriteBlock.copyOut, if_pos rfl, written,
              Option.map_some, List.append_nil]
            rfl
          · rw [if_neg whole, written]
            rfl

theorem Simulates.seri (simulates : Simulates wb blocks) (sound : blocks.Sound)
    (inside : blocks.contents.length + 4 ≤ intMax) :
    wb.seri = some (List.range (blocksFor blocks.contents.length),
      littleEndian 4 blocks.contents.length ++ blocks.contents) := by
  have length := sound.length_contents
  rw [← simulates.ptr] at length
  have copied := @Simulates.copyOut wb blocks (blocks.contents.length + 1) 0 simulates sound
    (Nat.zero_le _) (by rw [Nat.sub_zero, ← length]; exact Nat.lt_succ_self _)
  rw [Nat.sub_zero, ← length, ← List.range_eq_range', List.drop_zero] at copied
  unfold WriteBlock.seri
  rw [simulates.len, if_pos inside, copied]
  rfl

/-- A block that is not the last is full of what is written at its place. -/
theorem Simulates.full_node (simulates : Simulates wb blocks) (sound : blocks.Sound) {place : Nat}
    {node : Node} (present : wb.nodes[place]? = some node) (notLast : place + 1 < wb.nodes.length) :
    blockSize * (place + 1) ≤ blocks.contents.length ∧
      node.buffer = (blocks.contents.drop (blockSize * place)).take blockSize := by
  rw [simulates.nodes_length, simulates.current] at notLast
  have early : place < blocks.earlier.length := Nat.lt_of_succ_lt_succ notLast
  constructor
  · rw [sound.length_contents]
    exact Nat.le_add_right_of_le (Nat.mul_le_mul_left blockSize early)
  · rcases chain_cases (Nat.le_of_lt early) with ⟨_, block, member, found, rest⟩ | ⟨last, _, _⟩
    · have holds := simulates.holds place node block present found
      have full := sound.full block member
      have written := holds.written
      rw [full, List.take_of_length_le (Nat.le_of_eq holds.size)] at written
      have before : ((blocks.chain.take place).flatMap Block.buffer).length = blockSize * place := by
        rw [Blocks.chain, List.take_append_of_le_length (Nat.le_of_lt early), Blocks.flatMap_full,
          List.length_take, Nat.min_eq_left (Nat.le_of_lt early)]
        exact fun other earlier => sound.full other (List.mem_of_mem_take earlier)
      unfold Blocks.contents
      rw [← List.take_append_drop place blocks.chain, List.flatMap_append, List.drop_left' before,
        rest, List.flatMap_cons, List.take_left' full, written]
    · exact absurd last (Nat.ne_of_lt early)

theorem settled_nodes (simulates : Simulates wb blocks) (sound : blocks.Sound)
    (settled : blocks.Settled) : wb.nodes.length = max 1 (blocksFor blocks.contents.length) := by
  have short := sound.short
  rw [simulates.nodes_length, simulates.current, sound.length_contents]
  cases earlier : blocks.earlier with
  | nil =>
      unfold blocksFor blockSize at *
      rw [List.length_nil]
      omega
  | cons block rest =>
      have filled : 0 < blocks.current.buffer.length := by
        apply List.length_pos_iff.mpr
        apply settled
        rw [earlier]
        exact List.cons_ne_nil block rest
      unfold blocksFor blockSize at *
      rw [List.length_cons]
      omega

/-! ## The calls write the string -/

/-- The blocks in memory, behind what the calls are to have written. -/
structure Represents (state : WriteBlock × List Address) (text : Text) (blocks : Blocks) : Prop where
  simulates : Simulates state.1 blocks
  sound : blocks.Sound
  settled : blocks.Settled
  contents : blocks.contents = text.bytes
  places : state.2.map Address.place = text.tagged
  inside : forall address, address ∈ state.2 -> address.offset < blockSize

theorem init_represents (garbage : Garbage) : Represents (.init garbage, []) ⟨[], []⟩ .init where
  simulates := init_simulates garbage
  sound := Blocks.init_sound
  settled := fun more => absurd rfl more
  contents := rfl
  places := rfl
  inside := fun _ absent => absurd absent List.not_mem_nil

theorem Text.call_length {text next : Text} {call : Call} (called : text.call call = some next) :
    text.bytes.length ≤ next.bytes.length := by
  cases call with
  | push first rest =>
      cases called
      rw [List.length_append]
      exact Nat.le_add_right _ _
  | tag byte =>
      cases called
      rw [List.length_append]
      exact Nat.le_add_right _ _
  | mark number =>
      rw [Text.call] at called
      split at called
      · split at called
        · split at called
          · cases called
            rw [List.length_set]
          · cases called
        · cases called
      · cases called

theorem Text.callAll_length {text final : Text} {calls : List Call}
    (called : text.callAll calls = some final) : text.bytes.length ≤ final.bytes.length := by
  induction calls generalizing text with
  | nil =>
      cases called
      exact Nat.le_refl _
  | cons call rest inductionHypothesis =>
      rcases Option.bind_eq_some_iff.mp called with ⟨next, first, later⟩
      exact Nat.le_trans (Text.call_length first) (inductionHypothesis later)

/-- A call does to the blocks what it does to the string, as long as the length
of the string is an `int`. -/
theorem Represents.perform {state : WriteBlock × List Address} {text next : Text} {call : Call}
    (represents : Represents state text blocks) (called : text.call call = some next)
    (inside : next.bytes.length ≤ intMax) :
    Exists fun after => Seri.perform garbage call state = some after ∧
      Exists fun written => Represents after next written := by
  rcases state with ⟨wb, addresses⟩
  have simulates := represents.simulates
  have sound := represents.sound
  have contents := represents.contents
  cases call with
  | push first rest =>
      cases called
      rw [List.length_append, ← contents] at inside
      rcases @Simulates.wbPush garbage wb blocks (first :: rest) simulates sound inside with
        ⟨after, pushed, kept⟩
      refine ⟨(after, addresses), ?_, blocks.wbPush (first :: rest), ?_⟩
      · rw [Seri.perform, pushed]
        rfl
      · exact
          { simulates := kept
            sound := sound.wbPush _
            settled := sound.wbPush_settled (List.cons_ne_nil first rest)
            contents := by rw [sound.wbPush_contents, contents]
            places := represents.places
            inside := represents.inside }
  | tag byte =>
      cases called
      have room := @Simulates.makeRoom garbage wb blocks simulates
      have roomContents := (Blocks.makeRoom_contents blocks).trans contents
      rw [List.length_append, ← roomContents] at inside
      rcases @Simulates.wbPush garbage _ _ [byte] room sound.makeRoom inside with ⟨after, pushed, kept⟩
      refine ⟨(after, addresses ++ [(wb.makeRoom garbage).address]), ?_,
        blocks.makeRoom.wbPush [byte], ?_⟩
      · rw [Seri.perform]
        rw [pushed]
        rfl
      · exact
          { simulates := kept
            sound := sound.makeRoom.wbPush _
            settled := sound.makeRoom.wbPush_settled (List.cons_ne_nil byte [])
            contents := by rw [sound.makeRoom.wbPush_contents, roomContents]
            places := by
              rw [List.map_append, represents.places, List.map_singleton, room.address_eq,
                sound.makeRoom.address_place, roomContents]
            inside := by
              intro address member
              rcases List.mem_append.mp member with earlier | last
              · exact represents.inside address earlier
              · rw [List.mem_singleton.mp last, room.address_eq]
                exact sound.address_offset }
  | mark number =>
      rw [Text.call, ← represents.places, List.getElem?_map, ← contents] at called
      cases found : addresses[number]? with
      | none =>
          rw [found] at called
          cases called
      | some address =>
          rw [found, Option.map_some] at called
          dsimp only at called
          split at called
          · rename_i tag present
            split at called
            · rename_i isTable
              cases called
              have offset := represents.inside address (List.mem_of_getElem? found)
              have written := (List.getElem?_eq_some_iff.mp present).1
              rcases simulates.changeMark sound offset present isTable with ⟨after, changed, kept⟩
              refine ⟨(after, addresses), ?_,
                blocks.patch address (combineType typeTableMark (tag.toNat / 8)), ?_⟩
              · rw [Seri.perform, found]
                dsimp only
                rw [changed]
                rfl
              · exact
                  { simulates := kept
                    sound := sound.patch offset written _
                    settled := Blocks.patch_settled represents.settled address _
                    contents := sound.patch_contents offset written _
                    places := rfl
                    inside := represents.inside }
            · cases called
          · cases called

theorem Represents.performAll {state : WriteBlock × List Address} {text final : Text}
    {calls : List Call} (represents : Represents state text blocks)
    (called : text.callAll calls = some final) (inside : final.bytes.length ≤ intMax) :
    Exists fun after => Seri.performAll garbage calls state = some after ∧
      Exists fun written => Represents after final written := by
  induction calls generalizing state text blocks with
  | nil =>
      cases called
      exact ⟨state, rfl, blocks, represents⟩
  | cons call rest inductionHypothesis =>
      rcases Option.bind_eq_some_iff.mp called with ⟨next, first, later⟩
      have fits := Nat.le_trans (Text.callAll_length later) inside
      rcases @Represents.perform garbage _ _ _ _ _ represents first fits with
        ⟨middle, performed, written, kept⟩
      rcases inductionHypothesis kept later with ⟨after, finished, represented⟩
      refine ⟨after, ?_, represented⟩
      rw [Seri.performAll, performed]
      exact finished

end

/-- The calls end with `len` bytes in blocks that are full but for the last, each
address is the place of the byte written next, and `seri` reads exactly the
blocks that hold a byte, in their order, and answers the length and the string. -/
def WritesOut (garbage : Garbage) (calls : List Call) (text : Text) : Prop :=
  Exists fun wb => Exists fun addresses =>
    performAll garbage calls (.init garbage, []) = some (wb, addresses) ∧
    wb.len = text.bytes.length ∧
    wb.nodes.length = max 1 (blocksFor text.bytes.length) ∧
    (forall (place : Nat) (node : Node), wb.nodes[place]? = some node ->
      place + 1 < wb.nodes.length -> blockSize * (place + 1) ≤ text.bytes.length ∧
        node.buffer = (text.bytes.drop (blockSize * place)).take blockSize) ∧
    addresses.map Address.place = text.tagged ∧
    wb.seri = some (List.range (blocksFor text.bytes.length),
      littleEndian 4 text.bytes.length ++ text.bytes)

theorem WritesOut.fits {garbage : Garbage} {calls : List Call} {text : Text}
    (writes : WritesOut garbage calls text) : text.bytes.length + 4 ≤ intMax := by
  rcases writes with ⟨wb, addresses, _, length, _, _, _, answered⟩
  unfold WriteBlock.seri at answered
  rw [length] at answered
  by_contra large
  rw [if_neg large] at answered
  cases answered

/-- The blocks stand for one string of bytes exactly if the length of the buffer
that `seri` allocates is an `int`. -/
theorem chunked_writer (garbage : Garbage) {calls : List Call} {text : Text}
    (called : Text.callAll ⟨[], []⟩ calls = some text) :
    WritesOut garbage calls text <-> text.bytes.length + 4 ≤ intMax := by
  constructor
  · exact WritesOut.fits
  · intro fits
    rcases @Represents.performAll garbage _ _ _ _ _ (init_represents garbage) called (by omega) with
      ⟨⟨wb, addresses⟩, performed, blocks, represents⟩
    have simulates := represents.simulates
    have sound := represents.sound
    refine ⟨wb, addresses, performed, ?_⟩
    rw [← represents.contents] at fits ⊢
    exact ⟨simulates.len, settled_nodes simulates sound represents.settled,
      fun _ _ present notLast => simulates.full_node sound present notLast, represents.places,
      simulates.seri sound fits⟩

/-- The tag of a table that is marked after its elements have filled a block. -/
theorem chunked_writer_marked :
    WritesOut (fun _ => Vector.replicate blockSize 0)
      [.tag 5, .push 1 (List.replicate 200 2), .mark 0] ⟨6 :: 1 :: List.replicate 200 2, [0]⟩ :=
  (chunked_writer _ rfl).mpr (by
    rw [List.length_cons, List.length_cons, List.length_replicate]
    decide)

/-- Two equal strings of bytes that are not empty. -/
def twice (more : Nat) : List Call :=
  [.push 0 (List.replicate more 0), .push 0 (List.replicate more 0)]

def twiceText (more : Nat) : Text :=
  ⟨[] ++ (0 :: List.replicate more 0) ++ (0 :: List.replicate more 0), []⟩

theorem twice_called (more : Nat) : Text.callAll ⟨[], []⟩ (twice more) = some (twiceText more) := rfl

theorem twiceText_length (more : Nat) : (twiceText more).bytes.length = 2 * (more + 1) := by
  simp only [twiceText, List.nil_append, List.length_append, List.length_cons, List.length_replicate]
  omega

/-- Two pushes of a gibibyte: their length is not an `int`. -/
theorem chunked_writer_overflow :
    ¬ forall (garbage : Garbage) (calls : List Call) (text : Text),
      Text.callAll ⟨[], []⟩ calls = some text -> WritesOut garbage calls text := by
  intro writes
  have fits := (writes (fun _ => Vector.replicate blockSize 0) (twice 1073741823)
    (twiceText 1073741823) (twice_called 1073741823)).fits
  rw [twiceText_length] at fits
  exact absurd fits (by decide)

end Seri
end ServiceRuntime
