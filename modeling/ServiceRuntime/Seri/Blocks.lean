import Mathlib.Data.List.Count
import Mathlib.Data.List.Nodup
import Mathlib.Data.List.Range
import ServiceRuntime.Foundation.Bytes

namespace ServiceRuntime
namespace Seri

open Foundation

/-!
# The blocks the encoder writes to

A chain of blocks of `BLOCK_SIZE` bytes, of which the first lies on the C stack
and the others come from `malloc`.  A buffer is the list of the bytes written to
it so far, so that `ptr` is the length of the current one and `len` the length
of all of them.  The names `malloc` hands out count from one; the block on the
stack is named zero.
-/

/-- `BLOCK_SIZE`. -/
def blockSize : Nat := 128

/-- `struct block`. -/
structure Block where
  name : Nat
  buffer : List UInt8
  deriving DecidableEq, Repr

/-- A block in which one byte is changed. -/
def Block.change (block : Block) (offset : Nat) (byte : UInt8) : Block :=
  { block with buffer := block.buffer.set offset byte }

/-- Where a byte is: the place of its block in the chain, and its place there. -/
structure Address where
  block : Nat
  offset : Nat
  deriving DecidableEq, Repr

/-- The place of a byte in all that is written. -/
def Address.place (address : Address) : Nat := blockSize * address.block + address.offset

/-- The blocks of `struct write_block`, and the calls of `malloc` and `free`. -/
structure Blocks where
  earlier : List Block
  current : Block
  allocated : Nat
  freed : List Nat
  deriving DecidableEq, Repr

namespace Blocks

/-- The part of `wb_init` about the blocks. -/
def init : Blocks where
  earlier := []
  current := ⟨0, []⟩
  allocated := 0
  freed := []

/-- The chain from `head` on. -/
def chain (blocks : Blocks) : List Block := blocks.earlier ++ [blocks.current]

/-- All that is written. -/
def contents (blocks : Blocks) : List UInt8 := blocks.chain.flatMap Block.buffer

/-- `current = current->next = blk_alloc()`. -/
def blkAlloc (blocks : Blocks) : Blocks where
  earlier := blocks.earlier ++ [blocks.current]
  current := ⟨blocks.allocated + 1, []⟩
  allocated := blocks.allocated + 1
  freed := blocks.freed

/-- `memcpy` to the current block. -/
def append (blocks : Blocks) (buffer : List UInt8) : Blocks :=
  { blocks with current := { blocks.current with buffer := blocks.current.buffer ++ buffer } }

/-- `wb_push` from the label on, where the current block is not full.  One round
writes to one block; there are never more rounds than bytes. -/
def fill : Nat -> List UInt8 -> Blocks -> Blocks
  | 0, _, blocks => blocks
  | rounds + 1, buffer, blocks =>
      if blocks.current.buffer.length + buffer.length ≤ blockSize then blocks.append buffer
      else
        let copy := blockSize - blocks.current.buffer.length
        fill rounds (buffer.drop copy) (blocks.append (buffer.take copy)).blkAlloc

/-- A full block is followed by a new one. -/
def makeRoom (blocks : Blocks) : Blocks :=
  if blocks.current.buffer.length = blockSize then blocks.blkAlloc else blocks

/-- `wb_push`. -/
def wbPush (blocks : Blocks) (buffer : List UInt8) : Blocks :=
  fill (buffer.length + 1) buffer blocks.makeRoom

/-- The address that `wb_address` answers after it has made room. -/
def address (blocks : Blocks) : Address :=
  ⟨blocks.earlier.length, blocks.current.buffer.length⟩

/-- The byte at an address. -/
def byteAt (blocks : Blocks) (address : Address) : Option UInt8 :=
  (blocks.chain[address.block]?).bind fun block => block.buffer[address.offset]?

/-- A byte that is written is changed. -/
def patch (blocks : Blocks) (address : Address) (byte : UInt8) : Blocks :=
  if address.block < blocks.earlier.length then
    { blocks with
      earlier := blocks.earlier.modify address.block fun block => block.change address.offset byte }
  else { blocks with current := blocks.current.change address.offset byte }

/-- `wb_free`: the first block is on the stack. -/
def wbFree (blocks : Blocks) : Blocks where
  earlier := []
  current := ⟨0, []⟩
  allocated := blocks.allocated
  freed := blocks.freed ++ blocks.chain.tail.map Block.name

/-- The loop of `seri` over the blocks. -/
def gather : List Block -> Nat -> List UInt8
  | [], _ => []
  | block :: rest, len =>
      if len = 0 then []
      else if blockSize ≤ len then
        block.buffer.take blockSize ++ gather rest (len - blockSize)
      else block.buffer.take len

/-- `seri`: the name of the buffer and its bytes. -/
def seri (blocks : Blocks) : (Nat × List UInt8) × Blocks :=
  ((blocks.allocated + 1,
      littleEndian 4 blocks.contents.length ++ gather blocks.chain blocks.contents.length),
    { blocks with allocated := blocks.allocated + 1 })

/-- Exactly the blocks that `malloc` handed out have been freed, each of them
once, except those that are kept. -/
def Released (blocks : Blocks) (kept : List Nat) : Prop :=
  forall name, blocks.freed.count name =
    if 1 ≤ name ∧ name ≤ blocks.allocated ∧ name ∉ kept then 1 else 0

/-! ## What the chain looks like -/

/-- While it is written to, the chain is full up to the current block, holds
every block there is, and none is freed. -/
structure Sound (blocks : Blocks) : Prop where
  full : forall block, block ∈ blocks.earlier -> block.buffer.length = blockSize
  short : blocks.current.buffer.length ≤ blockSize
  names : blocks.chain.map Block.name = List.range (blocks.allocated + 1)
  kept : blocks.freed = []

/-- A block that was added has been written to. -/
def Settled (blocks : Blocks) : Prop :=
  blocks.earlier ≠ [] -> blocks.current.buffer ≠ []

theorem init_sound : init.Sound where
  full := fun _ absent => absurd absent List.not_mem_nil
  short := Nat.zero_le _
  names := rfl
  kept := rfl

theorem contents_eq (blocks : Blocks) :
    blocks.contents = blocks.earlier.flatMap Block.buffer ++ blocks.current.buffer := by
  unfold contents chain
  rw [List.flatMap_append, List.flatMap_singleton]

theorem flatMap_full {chain : List Block}
    (full : forall block, block ∈ chain -> block.buffer.length = blockSize) :
    (chain.flatMap Block.buffer).length = blockSize * chain.length := by
  induction chain with
  | nil => rfl
  | cons block rest inductionHypothesis =>
      obtain ⟨first, later⟩ := List.forall_mem_cons.mp full
      rw [List.flatMap_cons, List.length_append, first, inductionHypothesis later,
        List.length_cons, Nat.mul_succ, Nat.add_comm]

theorem Sound.length_contents {blocks : Blocks} (sound : blocks.Sound) :
    blocks.contents.length =
      blockSize * blocks.earlier.length + blocks.current.buffer.length := by
  rw [contents_eq, List.length_append, flatMap_full sound.full]

theorem Sound.allocated_eq {blocks : Blocks} (sound : blocks.Sound) :
    blocks.allocated = blocks.earlier.length := by
  have lengths := congrArg List.length sound.names
  rw [List.length_map, List.length_range, chain, List.length_append,
    List.length_singleton] at lengths
  omega

/-- The address of the next byte. -/
theorem Sound.address_place {blocks : Blocks} (sound : blocks.Sound) :
    blocks.address.place = blocks.contents.length :=
  sound.length_contents.symm

/-! ## Writing -/

theorem Sound.blkAlloc {blocks : Blocks} (sound : blocks.Sound)
    (full : blocks.current.buffer.length = blockSize) : blocks.blkAlloc.Sound where
  full := by
    intro block member
    rcases List.mem_append.mp member with earlier | last
    · exact sound.full block earlier
    · rw [List.mem_singleton.mp last]
      exact full
  short := Nat.zero_le _
  names := by
    have names := sound.names
    unfold chain at names
    unfold Blocks.blkAlloc chain
    rw [List.map_append, names]
    exact List.range_succ.symm
  kept := sound.kept

theorem blkAlloc_contents (blocks : Blocks) : blocks.blkAlloc.contents = blocks.contents := by
  rw [contents_eq]
  unfold contents chain blkAlloc
  exact List.append_nil _

theorem Sound.append {blocks : Blocks} (sound : blocks.Sound) {buffer : List UInt8}
    (fits : blocks.current.buffer.length + buffer.length ≤ blockSize) :
    (blocks.append buffer).Sound where
  full := sound.full
  short := by
    change (blocks.current.buffer ++ buffer).length ≤ blockSize
    rw [List.length_append]
    exact fits
  names := by
    have names := sound.names
    unfold chain at names ⊢
    rw [List.map_append] at names ⊢
    exact names
  kept := sound.kept

theorem append_contents (blocks : Blocks) (buffer : List UInt8) :
    (blocks.append buffer).contents = blocks.contents ++ buffer := by
  rw [contents_eq, contents_eq, List.append_assoc]
  rfl

theorem Sound.makeRoom {blocks : Blocks} (sound : blocks.Sound) : blocks.makeRoom.Sound := by
  unfold Blocks.makeRoom
  split
  · exact sound.blkAlloc ‹_›
  · exact sound

theorem makeRoom_contents (blocks : Blocks) : blocks.makeRoom.contents = blocks.contents := by
  unfold makeRoom
  split
  · exact blkAlloc_contents blocks
  · rfl

theorem Sound.makeRoom_short {blocks : Blocks} (sound : blocks.Sound) :
    blocks.makeRoom.current.buffer.length < blockSize := by
  unfold Blocks.makeRoom
  split
  · exact Nat.succ_pos 127
  · exact Nat.lt_of_le_of_ne sound.short ‹_›

/-- Every round writes at least one byte, and the last one all that is left. -/
theorem Sound.fill {rounds : Nat} {blocks : Blocks} {buffer : List UInt8} (sound : blocks.Sound)
    (room : blocks.current.buffer.length < blockSize) (enough : buffer.length < rounds) :
    (Blocks.fill rounds buffer blocks).Sound ∧
      (Blocks.fill rounds buffer blocks).contents = blocks.contents ++ buffer ∧
      (buffer ≠ [] -> (Blocks.fill rounds buffer blocks).current.buffer ≠ []) := by
  induction rounds generalizing blocks buffer with
  | zero => exact absurd enough (Nat.not_lt_zero _)
  | succ rounds inductionHypothesis =>
      rw [Blocks.fill]
      split
      · rename_i fits
        refine ⟨sound.append fits, append_contents blocks buffer, ?_⟩
        intro nonempty empty
        exact nonempty (List.append_eq_nil_iff.mp empty).2
      · rename_i long
        have copied : (buffer.take (blockSize - blocks.current.buffer.length)).length =
            blockSize - blocks.current.buffer.length := by
          rw [List.length_take]
          omega
        have filled := sound.append (by rw [copied]; omega :
          blocks.current.buffer.length +
            (buffer.take (blockSize - blocks.current.buffer.length)).length ≤ blockSize)
        have next := filled.blkAlloc (by
          change (blocks.current.buffer ++ _).length = blockSize
          rw [List.length_append, copied]
          omega)
        have left : buffer.drop (blockSize - blocks.current.buffer.length) ≠ [] := by
          intro empty
          have short := List.drop_eq_nil_iff.mp empty
          omega
        have fewer : (buffer.drop (blockSize - blocks.current.buffer.length)).length < rounds := by
          rw [List.length_drop]
          omega
        have rest := inductionHypothesis next (Nat.succ_pos 127) fewer
        refine ⟨rest.1, ?_, fun _ => rest.2.2 left⟩
        rw [rest.2.1, blkAlloc_contents, append_contents, List.append_assoc,
          List.take_append_drop]

theorem Sound.wbPush {blocks : Blocks} (sound : blocks.Sound) (buffer : List UInt8) :
    (blocks.wbPush buffer).Sound :=
  (sound.makeRoom.fill sound.makeRoom_short (Nat.lt_succ_self _)).1

theorem Sound.wbPush_contents {blocks : Blocks} (sound : blocks.Sound) (buffer : List UInt8) :
    (blocks.wbPush buffer).contents = blocks.contents ++ buffer := by
  have filled := sound.makeRoom.fill sound.makeRoom_short (Nat.lt_succ_self buffer.length)
  rw [← makeRoom_contents blocks]
  exact filled.2.1

theorem Sound.wbPush_settled {blocks : Blocks} (sound : blocks.Sound) {buffer : List UInt8}
    (filled : buffer ≠ []) : (blocks.wbPush buffer).Settled :=
  fun _ => (sound.makeRoom.fill sound.makeRoom_short (Nat.lt_succ_self _)).2.2 filled

/-- The address answered lies in a block that is there. -/
theorem Sound.address_offset {blocks : Blocks} (sound : blocks.Sound) :
    blocks.makeRoom.address.offset < blockSize :=
  sound.makeRoom_short

/-! ## Changing a byte -/

/-- A byte that is written lies in the block of its address, and only that block changes. -/
theorem Sound.exists_block {blocks : Blocks} (sound : blocks.Sound) {address : Address}
    (inside : address.offset < blockSize) (written : address.place < blocks.contents.length) :
    Exists fun before => Exists fun block => Exists fun after =>
      blocks.chain = before ++ block :: after ∧ before.length = address.block ∧
        address.offset < block.buffer.length ∧
        (forall other, other ∈ before -> other.buffer.length = blockSize) ∧
        forall byte, (blocks.patch address byte).chain =
          before ++ block.change address.offset byte :: after := by
  have length := sound.length_contents
  have short := sound.short
  unfold Address.place at written
  unfold blockSize at *
  rcases Nat.lt_trichotomy address.block blocks.earlier.length with early | last | beyond
  · refine ⟨blocks.earlier.take address.block, blocks.earlier[address.block],
      blocks.earlier.drop (address.block + 1) ++ [blocks.current], ?_, ?_, ?_, ?_, ?_⟩
    · rw [← List.cons_append, ← List.append_assoc, List.getElem_cons_drop,
        List.take_append_drop]
      rfl
    · rw [List.length_take, Nat.min_eq_left (Nat.le_of_lt early)]
    · rw [sound.full _ (List.getElem_mem early)]
      exact inside
    · exact fun other member => sound.full other (List.mem_of_mem_take member)
    · intro byte
      unfold patch
      rw [if_pos early]
      change blocks.earlier.modify address.block _ ++ [blocks.current] = _
      rw [List.modify_eq_take_cons_drop early, List.append_assoc]
      rfl
  · refine ⟨blocks.earlier, blocks.current, [], rfl, last.symm, ?_, sound.full, ?_⟩
    · rw [length, ← last] at written
      omega
    · intro byte
      unfold patch
      rw [if_neg (by omega)]
      rfl
  · rw [length] at written
    omega

theorem Sound.byteAt_eq {blocks : Blocks} (sound : blocks.Sound) {address : Address}
    (inside : address.offset < blockSize) (written : address.place < blocks.contents.length) :
    blocks.byteAt address = blocks.contents[address.place]? := by
  obtain ⟨before, block, after, chain, place, within, full, _⟩ :=
    sound.exists_block inside written
  have start : (before.flatMap Block.buffer).length = blockSize * address.block := by
    rw [flatMap_full full, place]
  unfold byteAt contents Address.place
  rw [chain, ← place, List.getElem?_append_right (Nat.le_refl _), Nat.sub_self,
    List.getElem?_cons_zero, List.flatMap_append, List.flatMap_cons, place,
    List.getElem?_append_right (by omega), start, Nat.add_sub_cancel_left,
    List.getElem?_append_left within]
  rfl

theorem Sound.patch_contents {blocks : Blocks} (sound : blocks.Sound) {address : Address}
    (inside : address.offset < blockSize) (written : address.place < blocks.contents.length)
    (byte : UInt8) :
    (blocks.patch address byte).contents = blocks.contents.set address.place byte := by
  obtain ⟨before, block, after, chain, place, within, full, patched⟩ :=
    sound.exists_block inside written
  have start : (before.flatMap Block.buffer).length = blockSize * address.block := by
    rw [flatMap_full full, place]
  unfold contents Address.place
  rw [patched, chain, List.flatMap_append, List.flatMap_cons, List.flatMap_append,
    List.flatMap_cons, List.set_append_right _ _ (by omega), start,
    Nat.add_sub_cancel_left, List.set_append_left _ _ within]
  rfl

theorem Sound.patch {blocks : Blocks} (sound : blocks.Sound) {address : Address}
    (inside : address.offset < blockSize) (written : address.place < blocks.contents.length)
    (byte : UInt8) : (blocks.patch address byte).Sound where
  full := by
    unfold Blocks.patch
    split
    · intro block member
      obtain ⟨place, found⟩ := List.mem_iff_getElem?.mp member
      rw [List.getElem?_modify] at found
      obtain ⟨original, present, rfl⟩ := Option.map_eq_some_iff.mp found
      have length := sound.full original (List.mem_of_getElem? present)
      split
      · change (original.buffer.set _ _).length = blockSize
        rw [List.length_set]
        exact length
      · exact length
    · exact sound.full
  short := by
    unfold Blocks.patch
    split
    · exact sound.short
    · change (blocks.current.buffer.set _ _).length ≤ blockSize
      rw [List.length_set]
      exact sound.short
  names := by
    obtain ⟨before, block, after, chain, _, _, _, patched⟩ := sound.exists_block inside written
    have kept : (blocks.patch address byte).allocated = blocks.allocated := by
      unfold Blocks.patch
      split <;> rfl
    rw [kept, ← sound.names, patched, chain, List.map_append, List.map_append]
    rfl
  kept := by
    have kept := sound.kept
    unfold Blocks.patch
    split <;> exact kept

theorem patch_settled {blocks : Blocks} (settled : blocks.Settled) (address : Address)
    (byte : UInt8) : (blocks.patch address byte).Settled := by
  unfold patch
  split
  · intro more
    apply settled
    intro empty
    apply more
    change blocks.earlier.modify _ _ = []
    rw [empty, List.modify_nil]
  · intro more empty
    apply settled more
    exact (List.set_eq_nil_iff _ _).mp empty

/-! ## The result -/

theorem gather_append {before : List Block} {block : Block}
    (full : forall other, other ∈ before -> other.buffer.length = blockSize)
    (short : block.buffer.length ≤ blockSize) :
    gather (before ++ [block]) (blockSize * before.length + block.buffer.length) =
      (before ++ [block]).flatMap Block.buffer := by
  have positive : 0 < blockSize := Nat.succ_pos 127
  induction before with
  | nil =>
      change gather [block] (blockSize * 0 + block.buffer.length) = block.buffer ++ []
      rw [Nat.mul_zero, Nat.zero_add, List.append_nil, gather]
      split
      · rename_i empty
        exact (List.eq_nil_of_length_eq_zero empty).symm
      split
      · rw [List.take_of_length_le short, gather, List.append_nil]
      · rw [List.take_length]
  | cons first rest inductionHypothesis =>
      obtain ⟨whole, later⟩ := List.forall_mem_cons.mp full
      have length : blockSize * (first :: rest).length + block.buffer.length =
          blockSize * rest.length + block.buffer.length + blockSize := by
        rw [List.length_cons, Nat.mul_succ]
        omega
      rw [length, List.cons_append, gather, if_neg (by omega), if_pos (Nat.le_add_left _ _),
        Nat.add_sub_cancel, inductionHypothesis later, List.flatMap_cons, ← whole,
        List.take_length]

/-- The buffer holds the length and all that was written. -/
theorem Sound.seri_bytes {blocks : Blocks} (sound : blocks.Sound) :
    blocks.seri.1.2 = littleEndian 4 blocks.contents.length ++ blocks.contents := by
  change littleEndian 4 blocks.contents.length ++ gather blocks.chain blocks.contents.length = _
  rw [sound.length_contents]
  unfold chain contents chain
  rw [gather_append sound.full sound.short]

/-! ## Freeing -/

theorem count_range' (start size name : Nat) :
    (List.range' start size).count name = if start ≤ name ∧ name < start + size then 1 else 0 := by
  split
  · rename_i inside
    exact List.nodup_iff_count_eq_one.mp List.nodup_range' name (List.mem_range'_1.mpr inside)
  · rename_i outside
    exact List.count_eq_zero_of_not_mem fun member => outside (List.mem_range'_1.mp member)

theorem Sound.freed {blocks : Blocks} (sound : blocks.Sound) :
    blocks.wbFree.freed = List.range' 1 blocks.allocated := by
  unfold wbFree
  rw [sound.kept, List.map_tail, sound.names, List.nil_append, List.range_eq_range',
    List.range'_succ]
  rfl

theorem Sound.released {blocks : Blocks} (sound : blocks.Sound) : blocks.wbFree.Released [] := by
  intro name
  rw [sound.freed, count_range']
  congr 1
  rw [eq_iff_iff]
  constructor
  · exact fun inside => ⟨inside.1, Nat.lt_one_add_iff.mp inside.2, List.not_mem_nil⟩
  · exact fun inside => ⟨inside.1, Nat.lt_one_add_iff.mpr inside.2.1⟩

/-- After `seri` only the buffer is left. -/
theorem Sound.seri_released {blocks : Blocks} (sound : blocks.Sound) :
    blocks.seri.2.wbFree.Released [blocks.seri.1.1] := by
  intro name
  have freed : blocks.seri.2.wbFree.freed = List.range' 1 blocks.allocated := sound.freed
  rw [freed, count_range']
  congr 1
  rw [eq_iff_iff]
  change _ ↔ 1 ≤ name ∧ name ≤ blocks.allocated + 1 ∧ name ∉ [blocks.allocated + 1]
  rw [List.mem_singleton]
  omega

/-- Blocks that are not freed are released only when there are none. -/
theorem Sound.released_iff {blocks : Blocks} (sound : blocks.Sound) :
    blocks.Released [] ↔ blocks.earlier = [] := by
  have allocated := sound.allocated_eq
  rw [← List.length_eq_zero_iff, ← allocated]
  constructor
  · intro released
    have first := released 1
    rw [sound.kept, List.count_nil] at first
    by_contra nonempty
    rw [if_pos ⟨Nat.le_refl 1, Nat.one_le_iff_ne_zero.mpr nonempty, List.not_mem_nil⟩] at first
    cases first
  · intro vanishes name
    rw [sound.kept, List.count_nil, if_neg (by omega)]

theorem Sound.released_settled {blocks : Blocks} (sound : blocks.Sound)
    (settled : blocks.Settled) :
    blocks.Released [] ↔ blocks.contents.length ≤ blockSize := by
  have short := sound.short
  rw [sound.released_iff, sound.length_contents]
  constructor
  · intro vanishes
    rw [vanishes]
    exact (Nat.zero_add _).le.trans short
  · intro few
    by_contra more
    have written := List.length_pos_iff.mpr (settled more)
    have count := List.length_pos_iff.mpr more
    have least : blockSize * 1 ≤ blockSize * blocks.earlier.length := Nat.mul_le_mul_left _ count
    omega

/-- Room that was made for the next byte counts like a byte. -/
theorem Sound.released_makeRoom {blocks : Blocks} (sound : blocks.Sound) :
    blocks.makeRoom.Released [] ↔ blocks.contents.length + 1 ≤ blockSize := by
  have short := sound.makeRoom_short
  rw [sound.makeRoom.released_iff, ← makeRoom_contents blocks, sound.makeRoom.length_contents]
  constructor
  · intro vanishes
    rw [vanishes]
    exact (Nat.zero_add _).le.trans short
  · intro few
    by_contra more
    have count := List.length_pos_iff.mpr more
    have least : blockSize * 1 ≤ blockSize * blocks.makeRoom.earlier.length :=
      Nat.mul_le_mul_left _ count
    omega

end Blocks

end Seri
end ServiceRuntime
