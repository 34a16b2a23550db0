import ServiceRuntime.Foundation.Ring
import ServiceRuntime.Message

namespace ServiceRuntime

open Foundation

/-!
# The growable ring of `mailbox.c`

Every function here is one spinlock-protected region of the source, as a
function of the mailbox it finds.  `mailbox_try_push` is the exception: it
drops the lock when the ring is full, allocates a spare buffer and comes
back, so it contributes two regions and an unlocked allocation between them.

The ring stores whatever it is given: no region inspects an item, so the item
type is a parameter.  Cells are a list whose length is the capacity; cells
that hold no queued item are arbitrary, as after `malloc`.
-/

/-- `SIZE_MAX` on the 64-bit targets of the library. -/
def sizeMax : Nat := 2 ^ 64 - 1

/-- `sizeof(message_t)`: four 32-bit fields, a pointer and a `size_t`. -/
def messageSize : Nat := 32

inductive MailboxResult where
  | ok
  | full
  | closed
  deriving DecidableEq, Repr

/-- `struct mailbox` without its lock. -/
structure Mailbox (Item : Type) where
  items : List Item
  capacity : Nat
  head : Nat
  tail : Nat
  count : Nat
  initialCapacity : Nat
  overload : Nat
  overloadThreshold : Nat
  closed : Bool
  scheduled : Bool
  deriving DecidableEq, Repr

namespace Mailbox

variable {Item : Type}

/-- `mailbox_new`.  `cells` is what `calloc` returned, `none` on failure; it
also fails when the size in bytes is not representable. -/
def new (capacity : Nat) (cells : Option (List Item)) : Option (Mailbox Item) :=
  if capacity = 0 ∨ sizeMax / messageSize < capacity then none
  else cells.map fun items =>
    { items, capacity, head := 0, tail := 0, count := 0, initialCapacity := capacity,
      overload := 0, overloadThreshold := capacity, closed := false, scheduled := false }

/-- `grow_locked`: move the queued items to the front of `grown`. -/
def growLocked (box : Mailbox Item) (grown : List Item) : Mailbox Item :=
  { box with
    items := ringCopy box.items box.head grown box.count
    head := 0
    tail := box.count
    capacity := box.capacity * 2 }

/-- What one region of `mailbox_try_push` ends with: the lock is dropped to
allocate room for twice the capacity seen, or the push returns. -/
inductive PushRegion where
  | allocate (capacity : Nat)
  | finished (result : MailboxResult) (notify : Bool)
  deriving DecidableEq, Repr

/-- The end of `mailbox_try_push` on an open ring with a free cell. -/
def store (box : Mailbox Item) (item : Item) : Mailbox Item × PushRegion :=
  ({ box with
      items := box.items.set box.tail item
      tail := (box.tail + 1) % box.capacity
      count := box.count + 1
      scheduled := true },
    .finished .ok (!box.scheduled))

/-- The locked part of `mailbox_try_push` from the `while` test on.  With a
spare buffer in hand the loop grows the ring and leaves; without one it must
drop the lock. -/
def tryPush (box : Mailbox Item) (spare : Option (List Item)) (item : Item) :
    Mailbox Item × PushRegion :=
  if box.closed = false ∧ box.count = box.capacity then
    match spare with
    | some grown => (box.growLocked grown).store item
    | none => (box, .allocate box.capacity)
  else if box.closed then (box, .finished .closed false)
  else box.store item

/-- Back under the lock with a buffer for twice `capacity` cells: it is thrown
away when another producer has grown the ring meanwhile. -/
def retryPush (box : Mailbox Item) (capacity : Nat) (grown : List Item) (item : Item) :
    Mailbox Item × PushRegion :=
  box.tryPush (if box.capacity = capacity then some grown else none) item

/-- The unlocked allocation: `malloc` is only tried for a representable size. -/
def allocateSpare (capacity : Nat) (malloc : Option (List Item)) : Option (List Item) :=
  if capacity ≤ sizeMax / 2 / messageSize then malloc else none

/-- The `while` loop of `mailbox_try_pop`, at most `fuel` rounds. -/
def raiseThreshold (count : Nat) : Nat -> Nat × Nat -> Nat × Nat
  | 0, report => report
  | fuel + 1, (overload, threshold) =>
      if threshold < count then raiseThreshold count fuel (count, threshold * 2)
      else (overload, threshold)

/-- `mailbox_try_pop`.  Doubling a positive threshold passes `count` within
`count` rounds, so the fuel is never used up on a mailbox in use. -/
def tryPop (box : Mailbox Item) : Mailbox Item × Option Item :=
  if 0 < box.count then
    let count := box.count - 1
    let report := raiseThreshold count count (box.overload, box.overloadThreshold)
    ({ box with
        head := (box.head + 1) % box.capacity
        count
        overload := report.1
        overloadThreshold := report.2 },
      box.items[box.head]?)
  else
    ({ box with scheduled := false, overloadThreshold := box.initialCapacity }, none)

/-- `mailbox_finish_batch`: true asks the consumer to wake itself again. -/
def finishBatch (box : Mailbox Item) : Mailbox Item × Bool :=
  if box.closed = false ∧ 0 < box.count then (box, true)
  else ({ box with scheduled := false }, false)

/-- `mailbox_overload`: read and clear the report. -/
def takeOverload (box : Mailbox Item) : Mailbox Item × Nat :=
  ({ box with overload := 0 }, box.overload)

/-- `mailbox_close`. -/
def close (box : Mailbox Item) : Mailbox Item :=
  { box with closed := true }

/-! ## The queue a ring stands for -/

/-- The queued items in the order the consumer will pop them. -/
def contents (box : Mailbox Item) : List Item :=
  ringRead box.items box.head box.count

/-- The representation invariant of the ring. -/
structure WellFormed (box : Mailbox Item) : Prop where
  cells : box.items.length = box.capacity
  count_le : box.count ≤ box.capacity
  head_lt : box.head < box.capacity
  tail_eq : box.tail = (box.head + box.count) % box.capacity
  doubled : Exists fun doublings => box.capacity = box.initialCapacity * 2 ^ doublings
  initial_pos : 0 < box.initialCapacity
  representable : box.capacity ≤ sizeMax / messageSize

namespace WellFormed

variable {box : Mailbox Item}

theorem capacity_pos (valid : box.WellFormed) : 0 < box.capacity :=
  Nat.lt_of_le_of_lt (Nat.zero_le box.head) valid.head_lt

theorem contents_length (valid : box.WellFormed) : box.contents.length = box.count :=
  length_ringRead (by rw [valid.cells]; exact valid.capacity_pos) _ _

theorem contents_eq_nil_iff (valid : box.WellFormed) : box.contents = [] <-> box.count = 0 := by
  rw [← valid.contents_length, List.length_eq_zero_iff]

end WellFormed

theorem new_wellFormed {capacity : Nat} {cells : Option (List Item)} {box : Mailbox Item}
    (sized : forall items, cells = some items -> items.length = capacity)
    (created : new capacity cells = some box) : box.WellFormed := by
  unfold new at created
  split at created
  · cases created
  · rename_i accepted
    rcases Option.map_eq_some_iff.mp created with ⟨items, present, rfl⟩
    have positive : 0 < capacity := Nat.pos_of_ne_zero fun zero => accepted (Or.inl zero)
    exact
      { cells := sized items present
        count_le := Nat.zero_le capacity
        head_lt := positive
        tail_eq := (Nat.zero_mod capacity).symm
        doubled := ⟨0, (Nat.mul_one capacity).symm⟩
        initial_pos := positive
        representable := Nat.not_lt.mp fun large => accepted (Or.inr large) }

theorem new_contents {capacity : Nat} {cells : Option (List Item)} {box : Mailbox Item}
    (created : new capacity cells = some box) :
    box.contents = [] ∧ box.closed = false ∧ box.scheduled = false ∧
      box.initialCapacity = capacity := by
  unfold new at created
  split at created
  · cases created
  · rcases Option.map_eq_some_iff.mp created with ⟨items, present, rfl⟩
    exact ⟨rfl, rfl, rfl, rfl⟩

/-! ## Growth -/

theorem growLocked_wellFormed {box : Mailbox Item} (valid : box.WellFormed)
    {grown : List Item} (twice : grown.length = box.capacity * 2)
    (fits : box.capacity ≤ sizeMax / 2 / messageSize) :
    (box.growLocked grown).WellFormed where
  cells := by simpa only [growLocked, length_ringCopy] using twice
  count_le := by
    have := valid.count_le
    simp only [growLocked]
    omega
  head_lt := by
    have := valid.capacity_pos
    simp only [growLocked]
    omega
  tail_eq := by
    have := valid.capacity_pos
    have := valid.count_le
    simp only [growLocked, Nat.zero_add]
    rw [Nat.mod_eq_of_lt (by omega)]
  doubled := by
    rcases valid.doubled with ⟨doublings, equal⟩
    refine ⟨doublings + 1, ?_⟩
    simp only [growLocked, Nat.pow_succ]
    rw [equal, Nat.mul_assoc]
  initial_pos := valid.initial_pos
  representable := by
    simp only [growLocked]
    unfold sizeMax messageSize at *
    omega

theorem growLocked_contents {box : Mailbox Item} (valid : box.WellFormed)
    {grown : List Item} (twice : grown.length = box.capacity * 2) :
    (box.growLocked grown).contents = box.contents := by
  have room : box.count ≤ grown.length := by
    have := valid.count_le
    omega
  exact ringRead_ringCopy (by rw [valid.cells]; exact valid.capacity_pos) box.head room

/-! ## What a push region does -/

theorem store_wellFormed {box : Mailbox Item} (valid : box.WellFormed)
    (room : box.count < box.capacity) (item : Item) : (box.store item).1.WellFormed where
  cells := by simpa only [store, List.length_set] using valid.cells
  count_le := room
  head_lt := valid.head_lt
  tail_eq := by
    simp only [store]
    rw [valid.tail_eq, Nat.mod_add_mod, Nat.add_assoc]
  doubled := valid.doubled
  initial_pos := valid.initial_pos
  representable := valid.representable

theorem store_contents {box : Mailbox Item} (valid : box.WellFormed)
    (room : box.count < box.capacity) (item : Item) :
    (box.store item).1.contents = box.contents ++ [item] := by
  have inside : box.count < box.items.length := by
    rw [valid.cells]
    exact room
  simp only [store, contents]
  rw [valid.tail_eq, ← valid.cells]
  exact ringRead_set_tail inside item

/-- A spare buffer is usable in the region that finds it: it has exactly twice
the capacity the ring has there. -/
def SpareFits (box : Mailbox Item) (spare : Option (List Item)) : Prop :=
  forall grown, spare = some grown ->
    grown.length = box.capacity * 2 ∧ box.capacity ≤ sizeMax / 2 / messageSize

/-- Everything a locked push region can do, guards included. -/
theorem tryPush_cases (box : Mailbox Item) (spare : Option (List Item)) (item : Item) :
    (box.closed = true ∧ box.tryPush spare item = (box, .finished .closed false)) ∨
    (box.closed = false ∧ box.count = box.capacity ∧ spare = none ∧
      box.tryPush spare item = (box, .allocate box.capacity)) ∨
    (Exists fun grown => box.closed = false ∧ box.count = box.capacity ∧ spare = some grown ∧
      box.tryPush spare item = (box.growLocked grown).store item) ∨
    (box.closed = false ∧ box.count ≠ box.capacity ∧
      box.tryPush spare item = box.store item) := by
  unfold tryPush
  by_cases full : box.closed = false ∧ box.count = box.capacity
  · rw [if_pos full]
    cases spare with
    | none => exact Or.inr (Or.inl ⟨full.1, full.2, rfl, rfl⟩)
    | some grown => exact Or.inr (Or.inr (Or.inl ⟨grown, full.1, full.2, rfl, rfl⟩))
  · rw [if_neg full]
    cases shut : box.closed with
    | true => exact Or.inl ⟨rfl, rfl⟩
    | false =>
        refine Or.inr (Or.inr (Or.inr ⟨rfl, fun equal => full ⟨shut, equal⟩, ?_⟩))
        simp only [Bool.false_eq_true, if_false]

/-- The effect of a push region on the abstract queue: it either stores the
item behind everything queued, reporting whether it was the one to schedule
the consumer, or leaves the mailbox as it was. -/
theorem tryPush_spec {box : Mailbox Item} (valid : box.WellFormed)
    {spare : Option (List Item)} (fits : box.SpareFits spare) (item : Item)
    {next : Mailbox Item} {region : PushRegion} (taken : box.tryPush spare item = (next, region)) :
    next.WellFormed ∧ next.closed = box.closed ∧ next.initialCapacity = box.initialCapacity ∧
    ((region = .finished .ok (!box.scheduled) ∧ box.closed = false ∧
        next.contents = box.contents ++ [item] ∧ next.scheduled = true) ∨
      (region = .finished .closed false ∧ box.closed = true ∧ next = box) ∨
      (region = .allocate box.capacity ∧ box.closed = false ∧ next = box)) := by
  rcases tryPush_cases box spare item with
    ⟨shut, result⟩ | ⟨isOpen, _full, _none, result⟩ | ⟨grown, isOpen, full, present, result⟩ |
      ⟨isOpen, room, result⟩
  · cases result.symm.trans taken
    exact ⟨valid, rfl, rfl, Or.inr (Or.inl ⟨rfl, shut, rfl⟩)⟩
  · cases result.symm.trans taken
    exact ⟨valid, rfl, rfl, Or.inr (Or.inr ⟨rfl, isOpen, rfl⟩)⟩
  · cases result.symm.trans taken
    have twice := fits grown present
    have larger := growLocked_wellFormed valid twice.1 twice.2
    have room : (box.growLocked grown).count < (box.growLocked grown).capacity := by
      have := valid.capacity_pos
      simp only [growLocked]
      omega
    refine ⟨store_wellFormed larger room item, rfl, rfl, Or.inl ⟨rfl, isOpen, ?_, rfl⟩⟩
    exact (store_contents larger room item).trans
      (congrArg (· ++ [item]) (growLocked_contents valid twice.1))
  · cases result.symm.trans taken
    have below : box.count < box.capacity := Nat.lt_of_le_of_ne valid.count_le room
    exact ⟨store_wellFormed valid below item, rfl, rfl,
      Or.inl ⟨rfl, isOpen, store_contents valid below item, rfl⟩⟩

/-! ## The consumer's regions -/

/-- The effect of a pop on the abstract queue. -/
theorem tryPop_spec {box : Mailbox Item} (valid : box.WellFormed)
    {next : Mailbox Item} {found : Option Item} (taken : box.tryPop = (next, found)) :
    next.WellFormed ∧ next.closed = box.closed ∧ next.initialCapacity = box.initialCapacity ∧
    next.capacity = box.capacity ∧
    ((Exists fun item => found = some item ∧ box.contents = item :: next.contents ∧
        next.scheduled = box.scheduled) ∨
      (found = none ∧ box.contents = [] ∧ next.contents = [] ∧ next.scheduled = false)) := by
  unfold tryPop at taken
  by_cases occupied : 0 < box.count
  · rw [if_pos occupied] at taken
    cases taken
    rcases Nat.exists_eq_succ_of_ne_zero (Nat.ne_of_gt occupied) with ⟨rest, counted⟩
    have inside : box.head < box.items.length := by
      rw [valid.cells]
      exact valid.head_lt
    refine ⟨?_, rfl, rfl, rfl, Or.inl ⟨box.items[box.head], List.getElem?_eq_getElem inside, ?_, rfl⟩⟩
    · exact
        { cells := valid.cells
          count_le := Nat.le_trans (Nat.sub_le _ _) valid.count_le
          head_lt := Nat.mod_lt _ valid.capacity_pos
          tail_eq := by
            simp only
            rw [valid.tail_eq, Nat.mod_add_mod]
            congr 1
            omega
          doubled := valid.doubled
          initial_pos := valid.initial_pos
          representable := valid.representable }
    · simp only [contents, counted, Nat.succ_eq_add_one, Nat.add_sub_cancel]
      rw [ringRead_cons inside, valid.cells]
  · rw [if_neg occupied] at taken
    cases taken
    have empty : box.count = 0 := Nat.eq_zero_of_not_pos occupied
    have nothing : box.contents = [] := valid.contents_eq_nil_iff.mpr empty
    exact ⟨⟨valid.cells, valid.count_le, valid.head_lt, valid.tail_eq, valid.doubled,
      valid.initial_pos, valid.representable⟩, rfl, rfl, rfl,
      Or.inr ⟨rfl, nothing, nothing, rfl⟩⟩

/-- `mailbox_finish_batch` never moves an item; it gives up the schedule
exactly when there is nothing left to do. -/
theorem finishBatch_spec {box : Mailbox Item} (valid : box.WellFormed)
    {next : Mailbox Item} {more : Bool} (taken : box.finishBatch = (next, more)) :
    next.WellFormed ∧ next.closed = box.closed ∧ next.contents = box.contents ∧
    next.capacity = box.capacity ∧ next.initialCapacity = box.initialCapacity ∧
    ((more = true ∧ box.closed = false ∧ box.contents ≠ [] ∧ next = box) ∨
      (more = false ∧ (box.closed = true ∨ box.contents = []) ∧ next.scheduled = false)) := by
  unfold finishBatch at taken
  by_cases busy : box.closed = false ∧ 0 < box.count
  · rw [if_pos busy] at taken
    cases taken
    refine ⟨valid, rfl, rfl, rfl, rfl, Or.inl ⟨rfl, busy.1, ?_, rfl⟩⟩
    intro empty
    exact Nat.ne_of_gt busy.2 (valid.contents_eq_nil_iff.mp empty)
  · rw [if_neg busy] at taken
    cases taken
    refine ⟨⟨valid.cells, valid.count_le, valid.head_lt, valid.tail_eq, valid.doubled,
      valid.initial_pos, valid.representable⟩, rfl, rfl, rfl, rfl, Or.inr ⟨rfl, ?_, rfl⟩⟩
    cases shut : box.closed with
    | true => exact Or.inl rfl
    | false =>
        refine Or.inr (valid.contents_eq_nil_iff.mpr ?_)
        exact Nat.eq_zero_of_not_pos fun positive => busy ⟨shut, positive⟩

theorem close_wellFormed {box : Mailbox Item} (valid : box.WellFormed) : box.close.WellFormed :=
  ⟨valid.cells, valid.count_le, valid.head_lt, valid.tail_eq, valid.doubled,
    valid.initial_pos, valid.representable⟩

theorem takeOverload_wellFormed {box : Mailbox Item} (valid : box.WellFormed) :
    box.takeOverload.1.WellFormed :=
  ⟨valid.cells, valid.count_le, valid.head_lt, valid.tail_eq, valid.doubled,
    valid.initial_pos, valid.representable⟩

@[simp] theorem takeOverload_contents (box : Mailbox Item) :
    box.takeOverload.1.contents = box.contents := rfl

end Mailbox

end ServiceRuntime
