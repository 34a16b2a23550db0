import ServiceRuntime.Foundation.SpinLock
import ServiceRuntime.Mailbox.Overload

namespace ServiceRuntime

open Foundation

/-!
# The mailbox statement by statement

`Mailbox.Ring` makes one function of every region between `spin_lock` and
`spin_unlock`.  Here the regions are what the source has, one statement or one
condition after the other, under the lock of `mailbox.c` with its exchange and
its loop of relaxed loads.  Any number of threads call whatever functions of
`mailbox.h` they like on a mailbox that exists: `mailbox_new` comes before
all of them, and `mailbox_delete` after.

The flag is the only atomic.  Loads and stores are sequentially consistent,
which is what acquire and release amount to for data that is only touched
inside.  The buffers a push frees are not tracked.
-/

namespace MailboxStatements

variable {Item : Type}

open MailboxSystem (AllocationFits acceptedFrom okItems)

/-- A buffer for twice the capacity a push has seen. -/
structure Spare (Item : Type) (seen : Nat) where
  cells : List Item
  twice : cells.length = seen * 2
  fits : seen ≤ sizeMax / 2 / messageSize

/-- What all threads see: the mailbox, and as ghosts what it has handed out and
what it has accepted from whom. -/
structure Shared (Item : Type) where
  box : Mailbox Item
  popped : List Item
  accepted : List (Nat × Item)

/-- Where a thread stands outside the lock. -/
inductive Outside (Item : Type) where
  | idle
  | push (item : Item)
  | allocate (item : Item) (seen : Nat)
  | relock (item : Item) (seen : Nat) (spare : Spare Item seen)
  | pop
  | finishBatch
  | overload
  | capacity
  | close

/-- The statements inside, named by what they read or write. -/
inductive Statement (Item : Type) where
  | recheck (item : Item) (seen : Nat) (spare : Spare Item seen)
  | full (item : Item) (spare : Option (List Item))
  | copy (item : Item) (grown : List Item) (index : Nat)
  | grownItems (item : Item) (grown : List Item)
  | grownHead (item : Item)
  | grownTail (item : Item)
  | grownCapacity (item : Item)
  | closed (item : Item)
  | storeItem (item : Item)
  | storeTail (item : Item)
  | storeCount (item : Item)
  | schedule (item : Item)
  | occupied
  | takeItem
  | takeHead
  | takeCount
  | exceeded
  | recordOverload
  | doubleThreshold
  | unschedule
  | resetThreshold
  | more
  | giveUp
  | readOverload
  | clearOverload
  | readCapacity
  | shut

/-- A thread: its position in the pool, where it stands, and what its pushes
have returned so far. -/
structure Thread (Item Pc : Type) where
  self : Nat
  pc : Pc
  returned : List (Item × MailboxResult)

namespace Thread

variable {Pc Next : Type}

def goto (thread : Thread Item Pc) (pc : Next) : Thread Item Next :=
  { thread with pc }

def finish (thread : Thread Item Pc) (item : Item) (result : MailboxResult) :
    Thread Item (Outside Item) :=
  { thread with pc := .idle, returned := thread.returned ++ [(item, result)] }

end Thread

/-- What a thread decides to call, and what `malloc` answers. -/
inductive Input (Item : Type) where
  | push (item : Item)
  | malloc (buffer : Option (List Item))
  | pop
  | finishBatch
  | overload
  | capacity
  | close

/-! ## The program -/

/-- The first statement after `spin_lock`. -/
def Outside.enters : Outside Item -> Option (Statement Item)
  | .idle | .allocate _ _ => none
  | .push item => some (.full item none)
  | .relock item seen spare => some (.recheck item seen spare)
  | .pop => some .occupied
  | .finishBatch => some .more
  | .overload => some .readOverload
  | .capacity => some .readCapacity
  | .close => some .shut

/-- What a thread does without the lock. -/
def outside (thread : Thread Item (Outside Item)) (input : Input Item) :
    Option (Thread Item (Outside Item)) :=
  match thread.pc, input with
  | .idle, .push item => some (thread.goto (.push item))
  | .idle, .pop => some (thread.goto .pop)
  | .idle, .finishBatch => some (thread.goto .finishBatch)
  | .idle, .overload => some (thread.goto .overload)
  | .idle, .capacity => some (thread.goto .capacity)
  | .idle, .close => some (thread.goto .close)
  | .allocate item _, .malloc none => some (thread.finish item .full)
  | .allocate item seen, .malloc (some cells) =>
      if twice : cells.length = seen * 2 then
        -- `malloc` is only called for a representable size.
        if fits : seen ≤ sizeMax / 2 / messageSize then
          some (thread.goto (.relock item seen ⟨cells, twice, fits⟩))
        else some (thread.finish item .full)
      else none
  | _, _ => none

/-- One statement between `spin_lock` and `spin_unlock`: it goes on to the next
one, or it was the last. -/
def statement (shared : Shared Item) (thread : Thread Item (Statement Item)) :
    Shared Item × (Thread Item (Statement Item) ⊕ Thread Item (Outside Item)) :=
  let box := shared.box
  let write (box : Mailbox Item) (next : Statement Item) :
      Shared Item × (Thread Item (Statement Item) ⊕ Thread Item (Outside Item)) :=
    ({ shared with box }, .inl (thread.goto next))
  let read (next : Statement Item) :
      Shared Item × (Thread Item (Statement Item) ⊕ Thread Item (Outside Item)) :=
    (shared, .inl (thread.goto next))
  let leave (box : Mailbox Item) :
      Shared Item × (Thread Item (Statement Item) ⊕ Thread Item (Outside Item)) :=
    ({ shared with box }, .inr (thread.goto .idle))
  match thread.pc with
  | .recheck item seen spare =>
      read (.full item (if box.capacity ≠ seen then none else some spare.cells))
  | .full item spare =>
      if box.closed = false ∧ box.count = box.capacity then
        match spare with
        | some grown => read (.copy item grown 0)
        | none => (shared, .inr (thread.goto (.allocate item box.capacity)))
      else read (.closed item)
  | .copy item grown index =>
      if index < box.count then
        match box.items[(box.head + index) % box.capacity]? with
        | some cell => read (.copy item (grown.set index cell) (index + 1))
        | none => read (.copy item grown (index + 1))
      else read (.grownItems item grown)
  | .grownItems item grown => write { box with items := grown } (.grownHead item)
  | .grownHead item => write { box with head := 0 } (.grownTail item)
  | .grownTail item => write { box with tail := box.count } (.grownCapacity item)
  | .grownCapacity item => write { box with capacity := box.capacity * 2 } (.closed item)
  | .closed item =>
      if box.closed then (shared, .inr (thread.finish item .closed)) else read (.storeItem item)
  | .storeItem item => write { box with items := box.items.set box.tail item } (.storeTail item)
  | .storeTail item => write { box with tail := (box.tail + 1) % box.capacity } (.storeCount item)
  | .storeCount item => write { box with count := box.count + 1 } (.schedule item)
  | .schedule item =>
      ({ shared with
          box := { box with scheduled := true }
          accepted := shared.accepted ++ [(thread.self, item)] },
        .inr (thread.finish item .ok))
  | .occupied => if 0 < box.count then read .takeItem else read .unschedule
  | .takeItem =>
      ({ shared with popped := shared.popped ++ (box.items[box.head]?).toList },
        .inl (thread.goto .takeHead))
  | .takeHead => write { box with head := (box.head + 1) % box.capacity } .takeCount
  | .takeCount => write { box with count := box.count - 1 } .exceeded
  | .exceeded => if box.overloadThreshold < box.count then read .recordOverload else leave box
  | .recordOverload => write { box with overload := box.count } .doubleThreshold
  | .doubleThreshold =>
      write { box with overloadThreshold := box.overloadThreshold * 2 } .exceeded
  | .unschedule => write { box with scheduled := false } .resetThreshold
  | .resetThreshold => leave { box with overloadThreshold := box.initialCapacity }
  | .more => if box.closed = false ∧ 0 < box.count then leave box else read .giveUp
  | .giveUp => leave { box with scheduled := false }
  | .readOverload => read .clearOverload
  | .clearOverload => leave { box with overload := 0 }
  | .readCapacity => leave box
  | .shut => leave { box with closed := true }

def program (Item : Type) :
    Program (Shared Item) (Thread Item (Outside Item)) (Thread Item (Statement Item)) (Input Item) where
  born self := ⟨self, .idle, []⟩
  wants thread := thread.pc.enters.map thread.goto
  statement := statement
  outside := outside

/-- A new mailbox, of which nothing has been handed out or accepted. -/
def Created (capacity : Nat) (shared : Shared Item) : Prop :=
  Exists fun cells => cells.length = capacity ∧
    Mailbox.new capacity (some cells) = some shared.box ∧ shared.popped = [] ∧ shared.accepted = []

/-- Any number of threads on a mailbox created with the given capacity. -/
def machine (Item : Type) (capacity : Nat) :=
  SpinLock.machine (program Item) (Created capacity)

/-! ## The regions of `Mailbox.Ring` -/

/-- The end of a locked region of a push. -/
def afterPush {Pc : Type} (shared : Shared Item) (thread : Thread Item Pc) (item : Item) :
    Mailbox Item × Mailbox.PushRegion -> Shared Item × Thread Item (Outside Item)
  | (box, .allocate capacity) => ({ shared with box }, thread.goto (.allocate item capacity))
  | (box, .finished result _) =>
      ({ shared with
          box
          accepted := if result = .ok then shared.accepted ++ [(thread.self, item)] else shared.accepted },
        thread.finish item result)

/-- The region a thread is about to enter, as one function. -/
def whole (shared : Shared Item) (thread : Thread Item (Outside Item)) :
    Shared Item × Thread Item (Outside Item) :=
  match thread.pc with
  | .idle | .allocate _ _ => (shared, thread)
  | .push item => afterPush shared thread item (shared.box.tryPush none item)
  | .relock item seen spare =>
      afterPush shared thread item (shared.box.retryPush seen spare.cells item)
  | .pop =>
      ({ shared with
          box := shared.box.tryPop.1, popped := shared.popped ++ shared.box.tryPop.2.toList },
        thread.goto .idle)
  | .finishBatch => ({ shared with box := shared.box.finishBatch.1 }, thread.goto .idle)
  | .overload => ({ shared with box := shared.box.takeOverload.1 }, thread.goto .idle)
  | .capacity => (shared, thread.goto .idle)
  | .close => ({ shared with box := shared.box.close }, thread.goto .idle)

/-- What the statements rely on. -/
structure Good (shared : Shared Item) : Prop where
  valid : shared.box.WellFormed
  threshold : 0 < shared.box.overloadThreshold

/-! ## Each region is what its statements do -/

section Regions

variable {Pc : Type}

/-- The end of a push on an open ring. -/
theorem store_leads (shared : Shared Item) (thread : Thread Item Pc) (item : Item)
    (isOpen : shared.box.closed = false) :
    (program Item).Leads shared (thread.goto (.closed item))
      { shared with
        box := (shared.box.store item).1
        accepted := shared.accepted ++ [(thread.self, item)] }
      (thread.finish item .ok) := by
  have passed : ¬ shared.box.closed = true := Bool.eq_false_iff.mp isOpen
  refine .goesOn (if_neg passed) ?_
  refine .goesOn rfl ?_
  refine .goesOn rfl ?_
  refine .goesOn rfl ?_
  exact .leaves rfl

/-- The loop of `grow_locked` from an index on. -/
theorem copy_leads {shared after : Shared Item} (valid : shared.box.WellFormed)
    (thread : Thread Item Pc) (item : Item) (grown : List Item) {there : Thread Item (Outside Item)}
    (copied : (program Item).Leads shared
      (thread.goto (.grownItems item
        (ringCopy shared.box.items shared.box.head grown shared.box.count))) after there)
    (left : Nat) : left ≤ shared.box.count ->
    (program Item).Leads shared
      (thread.goto (.copy item
        (ringCopy shared.box.items shared.box.head grown (shared.box.count - left))
        (shared.box.count - left))) after there := by
  induction left with
  | zero =>
      intro _
      refine .goesOn (if_neg (Nat.lt_irrefl _)) ?_
      exact copied
  | succ left inductionHypothesis =>
      intro within
      have going : shared.box.count - (left + 1) < shared.box.count := by omega
      have next : shared.box.count - left = shared.box.count - (left + 1) + 1 := by omega
      have later := inductionHypothesis (by omega)
      rw [next, ringCopy, valid.cells] at later
      cases present : shared.box.items[(shared.box.head + (shared.box.count - (left + 1))) %
          shared.box.capacity]? with
      | none =>
          rw [present] at later
          refine .goesOn ?_ later
          simp only [program, statement, Thread.goto, if_pos going, present]
      | some cell =>
          rw [present] at later
          refine .goesOn ?_ later
          simp only [program, statement, Thread.goto, if_pos going, present]

/-- A push from the test of its loop on. -/
theorem full_leads {shared : Shared Item} (good : Good shared) (thread : Thread Item Pc)
    (item : Item) (spare : Option (List Item)) :
    (program Item).Leads shared (thread.goto (.full item spare))
      (afterPush shared thread item (shared.box.tryPush spare item)).1
      (afterPush shared thread item (shared.box.tryPush spare item)).2 := by
  rcases Mailbox.tryPush_cases shared.box spare item with
    ⟨shut, result⟩ | ⟨isOpen, full, rfl, result⟩ | ⟨grown, isOpen, full, rfl, result⟩ |
      ⟨isOpen, room, result⟩
  · rw [result]
    have passed : ¬ (shared.box.closed = false ∧ shared.box.count = shared.box.capacity) :=
      fun both => Bool.false_ne_true (both.1.symm.trans shut)
    refine .goesOn (if_neg passed) ?_
    exact .leaves (if_pos shut)
  · rw [result]
    exact .leaves (if_pos ⟨isOpen, full⟩)
  · rw [result]
    refine .goesOn (if_pos ⟨isOpen, full⟩) ?_
    have stored := store_leads { shared with box := shared.box.growLocked grown } thread item isOpen
    have installed : (program Item).Leads shared
        (thread.goto (.grownItems item
          (ringCopy shared.box.items shared.box.head grown shared.box.count))) _ _ :=
      .goesOn rfl (.goesOn rfl (.goesOn rfl (.goesOn rfl stored)))
    have copied := copy_leads good.valid thread item grown installed shared.box.count (le_refl _)
    rw [Nat.sub_self] at copied
    exact copied
  · rw [result]
    have passed : ¬ (shared.box.closed = false ∧ shared.box.count = shared.box.capacity) :=
      fun both => room both.2
    refine .goesOn (if_neg passed) ?_
    exact store_leads shared thread item isOpen

/-- The loop of `mailbox_try_pop`. -/
theorem exceeded_leads (thread : Thread Item Pc) (fuel : Nat) :
    forall shared : Shared Item, 0 < shared.box.overloadThreshold ->
      shared.box.count - shared.box.overloadThreshold ≤ fuel ->
      (program Item).Leads shared (thread.goto .exceeded)
        { shared with
          box := { shared.box with
            overload := (Mailbox.raiseThreshold shared.box.count fuel
              (shared.box.overload, shared.box.overloadThreshold)).1
            overloadThreshold := (Mailbox.raiseThreshold shared.box.count fuel
              (shared.box.overload, shared.box.overloadThreshold)).2 } }
        (thread.goto .idle) := by
  induction fuel with
  | zero =>
      intro shared _ enough
      have within : ¬ shared.box.overloadThreshold < shared.box.count := by omega
      exact .leaves (if_neg within)
  | succ fuel inductionHypothesis =>
      intro shared positive enough
      rw [Mailbox.raiseThreshold]
      by_cases above : shared.box.overloadThreshold < shared.box.count
      · rw [if_pos above]
        refine .goesOn (if_pos above) ?_
        refine .goesOn rfl ?_
        refine .goesOn rfl ?_
        exact inductionHypothesis
          { shared with
            box := { shared.box with
              overload := shared.box.count
              overloadThreshold := shared.box.overloadThreshold * 2 } }
          (by dsimp only; omega) (by dsimp only; omega)
      · rw [if_neg above]
        exact .leaves (if_neg above)

/-- `mailbox_try_pop`. -/
theorem pop_leads {shared : Shared Item} (good : Good shared) (thread : Thread Item Pc) :
    (program Item).Leads shared (thread.goto .occupied)
      { shared with
        box := shared.box.tryPop.1
        popped := shared.popped ++ shared.box.tryPop.2.toList }
      (thread.goto .idle) := by
  unfold Mailbox.tryPop
  by_cases occupied : 0 < shared.box.count
  · rw [if_pos occupied]
    refine .goesOn (if_pos occupied) (.goesOn rfl (.goesOn rfl (.goesOn rfl ?_)))
    exact exceeded_leads thread (shared.box.count - 1)
      { shared with
        box := { shared.box with
          head := (shared.box.head + 1) % shared.box.capacity
          count := shared.box.count - 1 }
        popped := shared.popped ++ (shared.box.items[shared.box.head]?).toList }
      good.threshold (Nat.sub_le _ _)
  · rw [if_neg occupied]
    refine .goesOn (if_neg occupied) (.goesOn rfl ?_)
    rw [Option.toList_none, List.append_nil]
    exact .leaves rfl

/-- `mailbox_finish_batch`. -/
theorem more_leads (shared : Shared Item) (thread : Thread Item Pc) :
    (program Item).Leads shared (thread.goto .more)
      { shared with box := shared.box.finishBatch.1 } (thread.goto .idle) := by
  unfold Mailbox.finishBatch
  by_cases busy : shared.box.closed = false ∧ 0 < shared.box.count
  · rw [if_pos busy]
    exact .leaves (if_pos busy)
  · rw [if_neg busy]
    exact .goesOn (if_neg busy) (.leaves rfl)

end Regions

theorem Good.afterPush {shared : Shared Item} (good : Good shared) {Pc : Type}
    (thread : Thread Item Pc) (item : Item) {spare : Option (List Item)}
    (fits : shared.box.SpareFits spare) :
    Good (afterPush shared thread item (shared.box.tryPush spare item)).1 := by
  have threshold := Mailbox.tryPush_threshold shared.box spare item
  rcases result : shared.box.tryPush spare item with ⟨box, region⟩
  have spec := Mailbox.tryPush_spec good.valid fits item result
  rw [result] at threshold
  have positive : 0 < box.overloadThreshold := threshold ▸ good.threshold
  cases region with
  | allocate seen => exact ⟨spec.1, positive⟩
  | finished result notify => exact ⟨spec.1, positive⟩

/-- A push that comes back with a buffer either finds the ring it was made for
or has thrown it away. -/
theorem Spare.fits_retry {seen : Nat} (spare : Spare Item seen) (box : Mailbox Item) :
    box.SpareFits (if box.capacity = seen then some spare.cells else none) := by
  intro grown present
  by_cases same : box.capacity = seen
  · rw [if_pos same] at present
    cases present
    rw [same]
    exact ⟨spare.twice, spare.fits⟩
  · rw [if_neg same] at present
    cases present

theorem Good.pop {shared : Shared Item} (good : Good shared) {popped : List Item} :
    Good { shared with box := shared.box.tryPop.1, popped } where
  valid := (Mailbox.tryPop_spec good.valid rfl).1
  threshold := by
    by_cases occupied : 0 < shared.box.count
    · have report := (Mailbox.tryPop_found occupied).2
      have raised : LeastDoubling _ _
          (Mailbox.raiseThreshold _ _ (shared.box.overload, shared.box.overloadThreshold)).2 :=
        Mailbox.raiseThreshold_least good.threshold (Doubling.zero _)
          (Nat.sub_le (shared.box.count - 1) shared.box.overloadThreshold)
      rw [← (Prod.mk.inj report).2] at raised
      exact Nat.lt_of_lt_of_le good.threshold raised.doubling.base_le
    · rw [Mailbox.tryPop_empty occupied]
      exact good.valid.initial_pos

theorem Good.finishBatch {shared : Shared Item} (good : Good shared) :
    Good { shared with box := shared.box.finishBatch.1 } where
  valid := (Mailbox.finishBatch_spec good.valid rfl).1
  threshold := by
    rw [Mailbox.finishBatch_threshold]
    exact good.threshold

/-- Every region is what its statements do, and keeps what they rely on. -/
theorem contract : SpinLock.Contract (program Item) whole Good where
  leads := by
    rintro shared ⟨self, pc, returned⟩ inner good wanted
    cases pc with
    | idle => cases wanted
    | allocate item seen => cases wanted
    | push item =>
        cases wanted
        exact full_leads good (Thread.mk self (Outside.push item) returned) item none
    | relock item seen spare =>
        cases wanted
        have same : (if shared.box.capacity ≠ seen then none else some spare.cells) =
            if shared.box.capacity = seen then some spare.cells else none := ite_not _ _ _
        have pushed := full_leads good (Thread.mk self (Outside.relock item seen spare) returned) item
          (if shared.box.capacity = seen then some spare.cells else none)
        rw [← same] at pushed
        refine .goesOn rfl ?_
        simp only [whole, Mailbox.retryPush, ← same]
        exact pushed
    | pop =>
        cases wanted
        exact pop_leads good (Thread.mk self (Outside.pop : Outside Item) returned)
    | finishBatch =>
        cases wanted
        exact more_leads shared (Thread.mk self Outside.finishBatch returned)
    | overload =>
        cases wanted
        exact .goesOn rfl (.leaves rfl)
    | capacity =>
        cases wanted
        exact .leaves rfl
    | close =>
        cases wanted
        exact .leaves rfl
  keeps := by
    rintro shared ⟨self, pc, returned⟩ inner good wanted
    cases pc with
    | idle => exact good
    | allocate item seen => exact good
    | push item => exact good.afterPush _ item (by intro grown present; cases present)
    | relock item seen spare => exact good.afterPush _ item (spare.fits_retry shared.box)
    | pop => exact good.pop
    | finishBatch => exact good.finishBatch
    | overload => exact ⟨Mailbox.takeOverload_wellFormed good.valid, good.threshold⟩
    | capacity => exact good
    | close => exact ⟨Mailbox.close_wellFormed good.valid, good.threshold⟩

/-! ## Whole regions are the steps of `Mailbox.Producers` -/

/-- Where `Mailbox.Producers` has a thread; what is no push is done by its consumer. -/
def Outside.producer : Outside Item -> MailboxSystem.ProducerPc Item
  | .push item => .entering item
  | .allocate item seen => .allocating item seen
  | .relock item seen spare => .relocking item seen spare.cells
  | _ => .idle

def Thread.producer (thread : Thread Item (Outside Item)) : MailboxSystem.Producer Item where
  pc := thread.pc.producer
  returned := thread.returned

/-- The same mailbox, the same ghosts, and each thread as a producer. -/
structure Matches (state : Atomic.State (Shared Item) (Thread Item (Outside Item)))
    (model : MailboxSystem.State Item) : Prop where
  box : model.box = state.data.box
  popped : model.popped = state.data.popped
  accepted : model.accepted = state.data.accepted
  producers : model.producers = state.locals.map Thread.producer
  named : forall (index : Nat) thread, state.locals[index]? = some thread -> thread.self = index

/-- What a push does with the answer of `malloc`. -/
theorem allocate_next {self seen : Nat} {item : Item} {returned : List (Item × MailboxResult)}
    {buffer : Option (List Item)} {next : Thread Item (Outside Item)}
    (went : outside ⟨self, .allocate item seen, returned⟩ (.malloc buffer) = some next) :
    AllocationFits seen buffer ∧ next.self = self ∧
      next.producer =
        match Mailbox.allocateSpare seen buffer with
        | some grown => ⟨.relocking item seen grown, returned⟩
        | none => MailboxSystem.Producer.finish ⟨.allocating item seen, returned⟩ item .full := by
  cases buffer with
  | none =>
      cases went
      refine ⟨trivial, rfl, ?_⟩
      unfold Mailbox.allocateSpare
      rw [ite_self]
      rfl
  | some cells =>
      simp only [outside] at went
      split at went
      · rename_i twice
        refine ⟨twice, ?_⟩
        unfold Mailbox.allocateSpare
        split at went <;> rename_i fits <;> cases went
        · rw [if_pos fits]
          exact ⟨rfl, rfl⟩
        · rw [if_neg fits]
          exact ⟨rfl, rfl⟩
      · cases went

section Sections

variable {state : Atomic.State (Shared Item) (Thread Item (Outside Item))}
  {model : MailboxSystem.State Item} {index : Nat} {thread next : Thread Item (Outside Item)}

theorem Matches.present (same : Matches state model)
    (present : state.locals[index]? = some thread) :
    model.producers[index]? = some thread.producer := by
  rw [same.producers, List.getElem?_map, present]
  rfl

/-- A thread that moves as a producer does. -/
theorem Matches.moves (same : Matches state model)
    (present : state.locals[index]? = some thread) (named : next.self = thread.self) :
    Matches ⟨state.data, state.locals.set index next⟩
      { model with producers := model.producers.set index next.producer } where
  box := same.box
  popped := same.popped
  accepted := same.accepted
  producers := by
    rw [List.map_set, same.producers]
  named := forall_set same.named fun _ => named.trans (same.named index thread present)

/-- A locked region of a push is one of `Mailbox.Producers`. -/
theorem Matches.pushes (same : Matches state model)
    (present : state.locals[index]? = some thread) (item : Item)
    (outcome : Mailbox Item × Mailbox.PushRegion) :
    Matches
      ⟨(afterPush state.data thread item outcome).1,
        state.locals.set index (afterPush state.data thread item outcome).2⟩
      (MailboxSystem.afterRegion model index thread.producer item outcome) := by
  have itself := same.named index thread present
  rcases outcome with ⟨box, seen | ⟨result, notify⟩⟩
  · refine ⟨rfl, same.popped, same.accepted, ?_, ?_⟩
    · simp only [MailboxSystem.afterRegion, afterPush, List.map_set, same.producers]
      rfl
    · exact forall_set same.named fun _ => itself
  · refine ⟨rfl, same.popped, ?_, ?_, ?_⟩
    · simp only [MailboxSystem.afterRegion, afterPush, same.accepted, itself]
    · simp only [MailboxSystem.afterRegion, afterPush, List.map_set, same.producers]
      rfl
    · exact forall_set same.named fun _ => itself

/-- A thread that does nothing a producer would do. -/
theorem Matches.idles (same : Matches state model)
    (present : state.locals[index]? = some thread) (stays : next.producer = thread.producer)
    (named : next.self = thread.self) :
    Matches ⟨state.data, state.locals.set index next⟩ model where
  box := same.box
  popped := same.popped
  accepted := same.accepted
  producers := by
    rw [map_set_same Thread.producer present next stays]
    exact same.producers
  named := forall_set same.named fun _ => named.trans (same.named index thread present)

/-- The consumer changes the mailbox and what has been handed out. -/
theorem Matches.consumes (same : Matches state model) (box : Mailbox Item) (popped : List Item) :
    Matches { state with data := { state.data with box, popped } } { model with box, popped } :=
  ⟨rfl, rfl, same.accepted, same.producers, same.named⟩

/-- What a thread does without the lock is a step of a producer, or none. -/
theorem Matches.outside (same : Matches state model)
    (present : state.locals[index]? = some thread) {input : Input Item}
    (went : outside thread input = some next) :
    Exists fun moves => Exists fun after =>
      (MailboxSystem.machine Item capacity).run model moves = some after ∧
        Matches ⟨state.data, state.locals.set index next⟩ after := by
  have producer := same.present present
  rcases thread with ⟨self, pc, returned⟩
  cases pc with
  | idle =>
      cases input with
      | push item =>
          cases went
          refine Simulation.single (.push index item) ?_ (same.moves present rfl)
          simp only [MailboxSystem.machine, MailboxSystem.step, producer]
          rfl
      | malloc buffer => cases went
      | pop | finishBatch | overload | capacity | close =>
          cases went
          exact Simulation.stutter (same.idles present rfl rfl)
  | allocate item seen =>
      cases input with
      | malloc buffer =>
          rcases allocate_next went with ⟨allowed, known, made⟩
          refine Simulation.single (.allocate index buffer) ?_ (same.moves present known)
          rw [made]
          simp only [MailboxSystem.machine, MailboxSystem.step, producer, MailboxSystem.producerStep,
            Thread.producer, Outside.producer, if_pos allowed]
          cases Mailbox.allocateSpare seen buffer <;> rfl
      | push item => cases went
      | pop | finishBatch | overload | capacity | close => cases went
  | push item => cases input <;> cases went
  | relock item seen spare => cases input <;> cases went
  | pop | finishBatch | overload | capacity | close => cases input <;> cases went

/-- A whole section is one step of `Mailbox.Producers`, or none. -/
theorem Matches.section (same : Matches state model)
    (present : state.locals[index]? = some thread) :
    Exists fun moves => Exists fun after =>
      (MailboxSystem.machine Item capacity).run model moves = some after ∧
        Matches ⟨(whole state.data thread).1, state.locals.set index (whole state.data thread).2⟩
          after := by
  have producer := same.present present
  have pushes := same.pushes present
  rcases thread with ⟨self, pc, returned⟩
  cases pc with
  | idle => exact Simulation.stutter (same.idles present rfl rfl)
  | allocate item seen => exact Simulation.stutter (same.idles present rfl rfl)
  | push item =>
      refine Simulation.single (.enter index) ?_ (pushes item _)
      simp only [MailboxSystem.machine, MailboxSystem.step, producer, MailboxSystem.producerStep,
        Thread.producer, Outside.producer, same.box]
  | relock item seen spare =>
      refine Simulation.single (.relock index) ?_ (pushes item _)
      simp only [MailboxSystem.machine, MailboxSystem.step, producer, MailboxSystem.producerStep,
        Thread.producer, Outside.producer, same.box]
  | pop =>
      have idle : Matches ⟨state.data, state.locals.set index ⟨self, .idle, returned⟩⟩ model :=
        same.idles present rfl rfl
      refine Simulation.single .pop ?_ (idle.consumes state.data.box.tryPop.1
        (state.data.popped ++ state.data.box.tryPop.2.toList))
      simp only [MailboxSystem.machine, MailboxSystem.step, MailboxSystem.consumerPop, same.box,
        same.popped]
  | finishBatch =>
      have idle : Matches ⟨state.data, state.locals.set index ⟨self, .idle, returned⟩⟩ model :=
        same.idles present rfl rfl
      refine Simulation.single .finishBatch ?_
        (idle.consumes state.data.box.finishBatch.1 state.data.popped)
      simp only [MailboxSystem.machine, MailboxSystem.step, same.box, same.popped]
  | overload =>
      have idle : Matches ⟨state.data, state.locals.set index ⟨self, .idle, returned⟩⟩ model :=
        same.idles present rfl rfl
      refine Simulation.single .takeOverload ?_
        (idle.consumes state.data.box.takeOverload.1 state.data.popped)
      simp only [MailboxSystem.machine, MailboxSystem.step, same.box, same.popped]
  | capacity => exact Simulation.stutter (same.idles present rfl rfl)
  | close =>
      have idle : Matches ⟨state.data, state.locals.set index ⟨self, .idle, returned⟩⟩ model :=
        same.idles present rfl rfl
      refine Simulation.single .close ?_ (idle.consumes state.data.box.close state.data.popped)
      simp only [MailboxSystem.machine, MailboxSystem.step, same.box, same.popped]

end Sections

theorem sections_simulation (Item : Type) (capacity : Nat) :
    Simulation (Atomic.machine (program Item) whole (Created capacity))
      (MailboxSystem.machine Item capacity) Matches where
  starts := by
    rintro ⟨shared, locals⟩ ⟨⟨cells, sized, created, popped, accepted⟩, rfl⟩
    refine ⟨⟨shared.box, [], [], []⟩, ⟨cells, sized, created, rfl, rfl, rfl⟩, ?_⟩
    refine ⟨rfl, popped.symm, accepted.symm, rfl, ?_⟩
    intro index thread present
    cases present
  steps := by
    intro state action next model _ _ same moved
    cases action with
    | spawn =>
        cases moved
        have taken : (MailboxSystem.machine Item capacity).step model .spawn =
            some { model with producers := model.producers ++ [⟨.idle, []⟩] } := rfl
        apply Simulation.single .spawn taken
        refine ⟨same.box, same.popped, same.accepted, ?_, ?_⟩
        · rw [List.map_append, ← same.producers]
          rfl
        · exact forall_append_singleton same.named rfl
    | outside index input =>
        rcases Option.bind_eq_some_iff.mp moved with ⟨thread, present, taken⟩
        rcases Option.map_eq_some_iff.mp taken with ⟨later, went, rfl⟩
        exact same.outside present went
    | «section» index =>
        rcases Option.bind_eq_some_iff.mp moved with ⟨thread, present, taken⟩
        rcases Option.map_eq_some_iff.mp taken with ⟨inner, wanted, rfl⟩
        exact same.section present

/-! ## Any interleaving of the statements -/

theorem Created.good {capacity : Nat} {shared : Shared Item} (created : Created capacity shared) :
    Good shared := by
  rcases created with ⟨cells, sized, made, _⟩
  have fits : forall items, some cells = some items -> items.length = capacity := by
    rintro items ⟨⟩
    exact sized
  have valid := Mailbox.new_wellFormed fits made
  refine ⟨valid, ?_⟩
  rw [Mailbox.new_threshold made, ← (Mailbox.new_contents made).2.2.2]
  exact valid.initial_pos

/-- The threads of the pool as `Mailbox.Producers` would see them, and the
mailbox as it was before the section in progress. -/
structure Stands (state : SpinLock.State (Shared Item) (Thread Item (Outside Item))
    (Thread Item (Statement Item))) (model : MailboxSystem.State Item) : Prop where
  returned : model.producers.map MailboxSystem.Producer.returned =
    state.places.map fun place => place.owner.returned
  settled : (forall (index : Nat) before here, state.places[index]? ≠ some (.inside before here)) ->
    model.box = state.data.box ∧ model.popped = state.data.popped ∧
      model.accepted = state.data.accepted

theorem stands {capacity : Nat} {state : SpinLock.State (Shared Item) (Thread Item (Outside Item))
    (Thread Item (Statement Item))} (reachable : (machine Item capacity).Reachable state) :
    Exists fun model => (MailboxSystem.machine Item capacity).Reachable model ∧
      Stands state model := by
  rcases (SpinLock.simulation contract fun _ => Created.good).reachable reachable with
    ⟨sections, sofar, same⟩
  rcases (sections_simulation Item capacity).reachable sofar with ⟨model, reached, matching⟩
  refine ⟨model, reached, ?_, ?_⟩
  · rw [matching.producers, same.owners, List.map_map, List.map_map]
    rfl
  · intro nobodyInside
    have data := same.settled nobodyInside
    rw [data]
    exact ⟨matching.box, matching.popped, matching.accepted⟩

/-- `spin_lock` and `spin_unlock` make the regions of the mailbox atomic.  However
the statements of any number of threads interleave, at most one thread is
inside, and exactly while the flag is up; it gets out without help and lets go
of the flag; and while none is inside, the mailbox, what has been handed out,
what has been accepted and what every push has returned are what
`Mailbox.Producers` says, so that the ring is still a FIFO queue. -/
theorem statements_atomic {capacity : Nat} {state : SpinLock.State (Shared Item)
    (Thread Item (Outside Item)) (Thread Item (Statement Item))}
    (reachable : (machine Item capacity).Reachable state) :
    weight SpinLock.Place.holds state.places = state.locked.toNat ∧
    (forall index before here, state.places[index]? = some (.inside before here) ->
      Exists fun count => Exists fun after => Exists fun there =>
        (machine Item capacity).run state (List.replicate count (.advance index)) =
          some ⟨after, false, state.places.set index (.outside there)⟩) ∧
    (Exists fun model => (MailboxSystem.machine Item capacity).Reachable model ∧
      Stands state model) ∧
    ((forall (index : Nat) before here, state.places[index]? ≠ some (.inside before here)) ->
      state.data.popped ++ state.data.box.contents = state.data.accepted.map Prod.snd ∧
      forall (index : Nat) place, state.places[index]? = some place ->
        acceptedFrom state.data.accepted index = okItems place.owner.returned) := by
  refine ⟨SpinLock.exclusive contract (fun _ => Created.good) reachable, ?_, stands reachable, ?_⟩
  · intro index before here present
    rcases (SpinLock.simulation contract fun _ => Created.good).reachable reachable with
      ⟨sections, _, same⟩
    have ends := (same.pending index before here present).ends
    rcases SpinLock.finishes ends before index state.locked state.places present with ⟨count, ran⟩
    exact ⟨count, _, _, ran⟩
  · intro nobodyInside
    rcases stands reachable with ⟨model, reached, same⟩
    have holds := MailboxSystem.reachable_invariant reached
    rcases same.settled nobodyInside with ⟨box, popped, accepted⟩
    refine ⟨?_, ?_⟩
    · rw [← box, ← popped, ← accepted]
      exact holds.fifo
    · intro index place present
      have seen := congrArg (fun list => list[index]?) same.returned
      simp only [List.getElem?_map, present, Option.map_some] at seen
      rcases Option.map_eq_some_iff.mp seen with ⟨producer, there, returned⟩
      rw [← accepted, (holds.perProducer index producer there).1, returned]

/-- A thread that stores, and another that meets the flag up, watches it, and
pops what the first has stored. -/
def watchedRun : List (SpinLock.Action (Input Nat)) :=
  [.spawn, .spawn, .outside 0 (.push 10), .advance 0, .advance 0, .outside 1 .pop, .advance 1,
    .advance 1, .advance 0, .advance 0, .advance 0, .advance 1, .advance 0, .advance 0, .advance 0,
    .advance 0, .advance 1, .advance 1, .advance 1, .advance 1, .advance 1]

theorem statements_atomic_watched :
    Exists fun state => (machine Nat 1).Reachable state ∧ state.locked = true ∧
      weight SpinLock.Place.holds state.places = 1 ∧ state.data.popped = [10] ∧
      Exists fun model => (MailboxSystem.machine Nat 1).Reachable model ∧ Stands state model := by
  let start : SpinLock.State (Shared Nat) (Thread Nat (Outside Nat)) (Thread Nat (Statement Nat)) :=
    { data :=
        { box := { items := [0], capacity := 1, head := 0, tail := 0, count := 0,
                   initialCapacity := 1, overload := 0, overloadThreshold := 1, closed := false,
                   scheduled := false }
          popped := [], accepted := [] }
      locked := false, places := [] }
  have enabled : ((machine Nat 1).run start watchedRun).isSome = true := by decide
  rcases Option.isSome_iff_exists.mp enabled with ⟨state, taken⟩
  have reachable : (machine Nat 1).Reachable state :=
    ⟨start, watchedRun, ⟨⟨[0], rfl, by decide, rfl, rfl⟩, rfl, rfl⟩, taken⟩
  have observed : ((machine Nat 1).run start watchedRun).map
      (fun final => (final.locked, final.data.popped)) = some (true, [10]) := by decide
  rw [taken, Option.map_some, Option.some.injEq, Prod.mk.injEq] at observed
  have holds := statements_atomic reachable
  rw [observed.1] at holds
  exact ⟨state, reachable, observed.1, holds.1, observed.2, holds.2.2.1⟩

end MailboxStatements

end ServiceRuntime
