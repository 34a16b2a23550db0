import ServiceRuntime.Foundation.Transition
import ServiceRuntime.Foundation.Pool
import ServiceRuntime.Mailbox.Ring

namespace ServiceRuntime

open Foundation

/-!
# Any number of producers and one consumer on a ring

The regions of `Mailbox.Ring` become the atomic steps of a machine.  A
producer that finds the ring full leaves the lock, allocates outside it, and
returns to a ring which other producers may have grown, which the consumer may
have emptied, and which may have been closed.  The allocator is part of the
action: it may fail, and a buffer it returns has arbitrary contents.

Two ghost sequences record what an abstract FIFO queue would see: the items
handed to the consumer, and the items whose push returned `MAILBOX_OK`, in the
order of the region that stored them.
-/

namespace MailboxSystem

variable {Item : Type}

/-- Where a producer stands in `mailbox_try_push`. -/
inductive ProducerPc (Item : Type) where
  | idle
  | entering (item : Item)
  | allocating (item : Item) (capacity : Nat)
  | relocking (item : Item) (capacity : Nat) (grown : List Item)
  deriving DecidableEq, Repr

/-- A producer and the results its pushes have returned so far, oldest first. -/
structure Producer (Item : Type) where
  pc : ProducerPc Item
  returned : List (Item × MailboxResult)
  deriving DecidableEq, Repr

structure State (Item : Type) where
  box : Mailbox Item
  producers : List (Producer Item)
  popped : List Item
  accepted : List (Nat × Item)
  deriving DecidableEq, Repr

inductive Action (Item : Type) where
  | spawn
  | push (producer : Nat) (item : Item)
  | enter (producer : Nat)
  | allocate (producer : Nat) (malloc : Option (List Item))
  | relock (producer : Nat)
  | pop
  | finishBatch
  | takeOverload
  | close

/-- A producer returns from its push. -/
def Producer.finish (producer : Producer Item) (item : Item) (result : MailboxResult) :
    Producer Item :=
  { pc := .idle, returned := producer.returned ++ [(item, result)] }

/-- The outcome of a locked push region of one producer. -/
def afterRegion (state : State Item) (index : Nat) (producer : Producer Item) (item : Item) :
    Mailbox Item × Mailbox.PushRegion -> State Item
  | (box, .allocate capacity) =>
      { state with
        box
        producers := state.producers.set index { producer with pc := .allocating item capacity } }
  | (box, .finished result _notify) =>
      { state with
        box
        producers := state.producers.set index (producer.finish item result)
        accepted :=
          if result = .ok then state.accepted ++ [(index, item)] else state.accepted }

/-- What `malloc` may return for `capacity * 2` messages. -/
def AllocationFits (capacity : Nat) (malloc : Option (List Item)) : Prop :=
  match malloc with
  | none => True
  | some grown => grown.length = capacity * 2

instance (capacity : Nat) (malloc : Option (List Item)) :
    Decidable (AllocationFits capacity malloc) := by
  unfold AllocationFits
  cases malloc <;> infer_instance

/-- One step of a given producer. -/
def producerStep (state : State Item) (index : Nat) (producer : Producer Item) :
    Action Item -> Option (State Item)
  | .push _ item =>
      match producer.pc with
      | .idle => some { state with
          producers := state.producers.set index { producer with pc := .entering item } }
      | _ => none
  | .enter _ =>
      match producer.pc with
      | .entering item =>
          some (afterRegion state index producer item (state.box.tryPush none item))
      | _ => none
  | .allocate _ malloc =>
      match producer.pc with
      | .allocating item capacity =>
          if AllocationFits capacity malloc then
            match Mailbox.allocateSpare capacity malloc with
            | some grown => some { state with
                producers := state.producers.set index
                  { producer with pc := .relocking item capacity grown } }
            | none => some { state with
                producers := state.producers.set index (producer.finish item .full) }
          else none
      | _ => none
  | .relock _ =>
      match producer.pc with
      | .relocking item capacity grown =>
          some (afterRegion state index producer item
            (state.box.retryPush capacity grown item))
      | _ => none
  | _ => none

def consumerPop (state : State Item) : State Item :=
  { state with
    box := state.box.tryPop.1
    popped := state.popped ++ state.box.tryPop.2.toList }

def step (state : State Item) (action : Action Item) : Option (State Item) :=
  match action with
  | .spawn => some { state with producers := state.producers ++ [⟨.idle, []⟩] }
  | .push index _ | .enter index | .allocate index _ | .relock index =>
      match state.producers[index]? with
      | some producer => producerStep state index producer action
      | none => none
  | .pop => some (consumerPop state)
  | .finishBatch => some { state with box := state.box.finishBatch.1 }
  | .takeOverload => some { state with box := state.box.takeOverload.1 }
  | .close => some { state with box := state.box.close }

/-- The machine of a mailbox created with the given capacity, before any
producer exists. -/
def machine (Item : Type) (capacity : Nat) : Machine (State Item) (Action Item) where
  initial state := Exists fun cells => cells.length = capacity ∧
    Mailbox.new capacity (some cells) = some state.box ∧
    state.producers = [] ∧ state.popped = [] ∧ state.accepted = []
  step := step

/-! ## What a step can do -/

/-- The items a list of returns has accepted. -/
def okItems (returned : List (Item × MailboxResult)) : List Item :=
  (returned.filter fun entry => entry.2 = .ok).map Prod.fst

/-- The items accepted from one producer, in the order of the ring. -/
def acceptedFrom (accepted : List (Nat × Item)) (index : Nat) : List Item :=
  (accepted.filter fun entry => entry.1 = index).map Prod.snd

@[simp] theorem okItems_append (returned : List (Item × MailboxResult)) (item : Item)
    (result : MailboxResult) :
    okItems (returned ++ [(item, result)]) =
      okItems returned ++ (if result = .ok then [item] else []) := by
  cases result <;> simp [okItems]

@[simp] theorem acceptedFrom_append (accepted : List (Nat × Item)) (owner index : Nat)
    (item : Item) :
    acceptedFrom (accepted ++ [(owner, item)]) index =
      acceptedFrom accepted index ++ (if owner = index then [item] else []) := by
  by_cases same : owner = index <;> simp [acceptedFrom, same]

/-- The buffer a producer carries has exactly twice the capacity it saw, and
that size was representable. -/
def PcFits : ProducerPc Item -> Prop
  | .relocking _ capacity grown =>
      grown.length = capacity * 2 ∧ capacity ≤ sizeMax / 2 / messageSize
  | _ => True

/-- The simulation invariant. -/
structure Invariant (capacity : Nat) (state : State Item) : Prop where
  valid : state.box.WellFormed
  initial : state.box.initialCapacity = capacity
  fifo : state.popped ++ state.box.contents = state.accepted.map Prod.snd
  owners : forall entry, entry ∈ state.accepted -> entry.1 < state.producers.length
  perProducer : forall index producer, state.producers[index]? = some producer ->
    acceptedFrom state.accepted index = okItems producer.returned ∧ PcFits producer.pc

private theorem spareFits_none (box : Mailbox Item) : box.SpareFits none := by
  intro grown present
  cases present

private theorem spareFits_retry {box : Mailbox Item} {capacity : Nat} {grown : List Item}
    (fits : grown.length = capacity * 2 ∧ capacity ≤ sizeMax / 2 / messageSize) :
    box.SpareFits (if box.capacity = capacity then some grown else none) := by
  intro installed present
  by_cases same : box.capacity = capacity
  · rw [if_pos same] at present
    cases present
    rw [same]
    exact fits
  · rw [if_neg same] at present
    cases present

/-- A producer that gains no accepted item leaves the ledger of every
producer as it was. -/
private theorem invariant_of_quiet {capacity : Nat} {state : State Item} {index : Nat}
    {producer : Producer Item} (holds : Invariant capacity state)
    (present : state.producers[index]? = some producer) {next : Producer Item}
    (returns : okItems next.returned = okItems producer.returned) (fits : PcFits next.pc) :
    Invariant capacity { state with producers := state.producers.set index next } where
  valid := holds.valid
  initial := holds.initial
  fifo := holds.fifo
  owners := by
    intro entry member
    rw [List.length_set]
    exact holds.owners entry member
  perProducer := forall_set holds.perProducer fun _below =>
    ⟨(holds.perProducer index producer present).1.trans returns.symm, fits⟩

/-- One push region, with a buffer that fits the ring, keeps the invariant. -/
private theorem afterRegion_invariant {capacity : Nat} {state : State Item} {index : Nat}
    {producer : Producer Item} (holds : Invariant capacity state)
    (present : state.producers[index]? = some producer)
    {spare : Option (List Item)} (fits : state.box.SpareFits spare) (item : Item) :
    Invariant capacity (afterRegion state index producer item (state.box.tryPush spare item)) := by
  rcases result : state.box.tryPush spare item with ⟨box, region⟩
  rcases Mailbox.tryPush_spec holds.valid fits item result with
    ⟨valid, _closed, initial, stored | refused | allocating⟩
  · rcases stored with ⟨rfl, _isOpen, contents, _scheduled⟩
    simp only [afterRegion, if_true]
    exact
      { valid
        initial := initial.trans holds.initial
        fifo := by
          rw [contents, ← List.append_assoc, holds.fifo, List.map_append]
          rfl
        owners := by
          intro entry member
          rw [List.length_set]
          rcases List.mem_append.mp member with earlier | last
          · exact holds.owners entry earlier
          · rw [List.mem_singleton.mp last]
            exact length_of_getElem? present
        perProducer := by
          intro other member found
          by_cases same : other = index
          · subst same
            rw [List.getElem?_set_self (length_of_getElem? present)] at found
            cases found
            rw [acceptedFrom_append, if_pos rfl, (holds.perProducer other producer present).1]
            simp only [Producer.finish, okItems_append, if_true, PcFits, and_self]
          · rw [List.getElem?_set_ne (Ne.symm same)] at found
            rw [acceptedFrom_append, if_neg (Ne.symm same), List.append_nil]
            exact holds.perProducer other member found }
  · rcases refused with ⟨rfl, _shut, rfl⟩
    simp only [afterRegion, reduceCtorEq, if_false]
    refine invariant_of_quiet holds present ?_ trivial
    simp only [Producer.finish, okItems_append, reduceCtorEq, if_false, List.append_nil]
  · rcases allocating with ⟨rfl, _isOpen, rfl⟩
    exact invariant_of_quiet holds present rfl trivial

/-- A region of the consumer that moves no item keeps the invariant. -/
private theorem invariant_of_box {capacity : Nat} {state : State Item} (holds : Invariant capacity state)
    {box : Mailbox Item} (valid : box.WellFormed)
    (initial : box.initialCapacity = state.box.initialCapacity)
    (contents : box.contents = state.box.contents) :
    Invariant capacity { state with box } where
  valid := valid
  initial := initial.trans holds.initial
  fifo := by rw [contents]; exact holds.fifo
  owners := holds.owners
  perProducer := holds.perProducer

private theorem pop_invariant {capacity : Nat} {state : State Item} (holds : Invariant capacity state) :
    Invariant capacity (consumerPop state) := by
  rcases result : state.box.tryPop with ⟨box, found⟩
  rcases Mailbox.tryPop_spec holds.valid result with
    ⟨valid, _closed, initial, _capacity, ⟨item, rfl, contents, _scheduled⟩ | ⟨rfl, before, after, _⟩⟩
  · simp only [consumerPop, result]
    exact
      { valid
        initial := initial.trans holds.initial
        fifo := by
          rw [← holds.fifo, contents]
          simp only [Option.toList_some, List.append_assoc, List.singleton_append]
        owners := holds.owners
        perProducer := holds.perProducer }
  · simp only [consumerPop, result, Option.toList_none, List.append_nil]
    exact invariant_of_box holds valid initial (after.trans before.symm)

private theorem producerStep_invariant {capacity : Nat} {state next : State Item} {index : Nat}
    {producer : Producer Item} {action : Action Item} (holds : Invariant capacity state)
    (present : state.producers[index]? = some producer)
    (moved : producerStep state index producer action = some next) : Invariant capacity next := by
  have own := holds.perProducer index producer present
  cases action with
  | push _ item =>
      cases pc : producer.pc <;> simp only [producerStep, pc, reduceCtorEq, Option.some.injEq] at moved
      cases moved
      exact invariant_of_quiet holds present rfl trivial
  | enter _ =>
      cases pc : producer.pc <;> simp only [producerStep, pc, reduceCtorEq, Option.some.injEq] at moved
      cases moved
      exact afterRegion_invariant holds present (spareFits_none _) _
  | allocate _ malloc =>
      cases pc : producer.pc <;> simp only [producerStep, pc, reduceCtorEq] at moved
      rename_i item seen
      by_cases fits : AllocationFits seen malloc
      · rw [if_pos fits] at moved
        cases allocated : Mailbox.allocateSpare seen malloc with
        | none =>
            simp only [allocated, Option.some.injEq] at moved
            cases moved
            refine invariant_of_quiet holds present ?_ trivial
            simp only [Producer.finish, okItems_append, reduceCtorEq, if_false, List.append_nil]
        | some grown =>
            simp only [allocated, Option.some.injEq] at moved
            cases moved
            refine invariant_of_quiet holds present rfl ?_
            unfold Mailbox.allocateSpare at allocated
            split at allocated
            · rename_i representable
              subst allocated
              exact ⟨fits, representable⟩
            · cases allocated
      · rw [if_neg fits] at moved
        cases moved
  | relock _ =>
      cases pc : producer.pc <;> simp only [producerStep, pc, reduceCtorEq, Option.some.injEq] at moved
      cases moved
      rw [pc] at own
      exact afterRegion_invariant holds present (spareFits_retry own.2) _
  | spawn => cases moved
  | pop => cases moved
  | finishBatch => cases moved
  | takeOverload => cases moved
  | close => cases moved

theorem step_of_producer {state next : State Item} {index : Nat} {action : Action Item}
    (moved : (match state.producers[index]? with
      | some producer => producerStep state index producer action
      | none => none) = some next) :
    Exists fun producer => state.producers[index]? = some producer ∧
      producerStep state index producer action = some next := by
  cases present : state.producers[index]? with
  | none =>
      rw [present] at moved
      cases moved
  | some producer =>
      rw [present] at moved
      exact ⟨producer, rfl, moved⟩

theorem step_invariant {capacity : Nat} {state next : State Item} {action : Action Item}
    (holds : Invariant capacity state) (moved : step state action = some next) :
    Invariant capacity next := by
  cases action with
  | spawn =>
      cases moved
      exact
        { valid := holds.valid
          initial := holds.initial
          fifo := holds.fifo
          owners := by
            intro entry member
            rw [List.length_append]
            exact Nat.lt_add_right 1 (holds.owners entry member)
          perProducer := forall_append_singleton holds.perProducer ⟨by
            have foreign : forall entry, entry ∈ state.accepted ->
                ¬ decide (entry.1 = state.producers.length) = true := by
              intro entry member equal
              exact Nat.ne_of_lt (holds.owners entry member) (of_decide_eq_true equal)
            simp only [acceptedFrom, List.filter_eq_nil_iff.mpr foreign, List.map_nil, okItems,
              List.filter_nil], trivial⟩ }
  | push index item =>
      rcases step_of_producer moved with ⟨producer, present, own⟩
      exact producerStep_invariant holds present own
  | enter index =>
      rcases step_of_producer moved with ⟨producer, present, own⟩
      exact producerStep_invariant holds present own
  | allocate index malloc =>
      rcases step_of_producer moved with ⟨producer, present, own⟩
      exact producerStep_invariant holds present own
  | relock index =>
      rcases step_of_producer moved with ⟨producer, present, own⟩
      exact producerStep_invariant holds present own
  | pop =>
      cases moved
      exact pop_invariant holds
  | finishBatch =>
      cases moved
      rcases result : state.box.finishBatch with ⟨box, more⟩
      rcases Mailbox.finishBatch_spec holds.valid result with
        ⟨valid, _closed, contents, _capacity, initial, _⟩
      exact invariant_of_box holds valid initial contents
  | takeOverload =>
      cases moved
      exact invariant_of_box holds (Mailbox.takeOverload_wellFormed holds.valid) rfl rfl
  | close =>
      cases moved
      exact invariant_of_box holds (Mailbox.close_wellFormed holds.valid) rfl rfl

theorem initial_invariant {capacity : Nat} {state : State Item}
    (initial : (machine Item capacity).initial state) : Invariant capacity state := by
  rcases initial with ⟨cells, sized, created, producers, popped, accepted⟩
  have fresh := Mailbox.new_contents created
  exact
    { valid := Mailbox.new_wellFormed (fun items present => by cases present; exact sized) created
      initial := fresh.2.2.2
      fifo := by rw [popped, accepted, fresh.1]; rfl
      owners := by
        intro entry member
        rw [accepted] at member
        cases member
      perProducer := by
        intro index producer present
        rw [producers] at present
        cases present }

theorem reachable_invariant {capacity : Nat} {state : State Item}
    (reachable : (machine Item capacity).Reachable state) : Invariant capacity state :=
  reachable.invariant (fun _start initial => initial_invariant initial)
    (fun _state _action _next holds moved => step_invariant holds moved)

/-! ## Where growth, refusal and closing happen -/

/-- The capacity changes only where a full, open ring finds a spare buffer. -/
theorem tryPush_growth {box : Mailbox Item} {spare : Option (List Item)} {item : Item}
    (changed : (box.tryPush spare item).1.capacity ≠ box.capacity) :
    Exists fun grown => spare = some grown ∧ box.count = box.capacity ∧
      (box.tryPush spare item).1 = ((box.growLocked grown).store item).1 := by
  rcases Mailbox.tryPush_cases box spare item with
    ⟨_shut, result⟩ | ⟨_isOpen, _full, _none, result⟩ | ⟨grown, _isOpen, full, present, result⟩ |
      ⟨_isOpen, _room, result⟩
  · exact False.elim (changed (by rw [result]))
  · exact False.elim (changed (by rw [result]))
  · exact ⟨grown, present, full, by rw [result]⟩
  · exact False.elim (changed (by rw [result]; rfl))

theorem afterRegion_box (state : State Item) (index : Nat) (producer : Producer Item) (item : Item)
    (outcome : Mailbox Item × Mailbox.PushRegion) :
    (afterRegion state index producer item outcome).box = outcome.1 := by
  rcases outcome with ⟨box, _capacity | ⟨_result, _notify⟩⟩ <;> rfl

/-- The ring grows in exactly one place: a producer returns to the lock with a
buffer of twice the capacity and still finds the ring full. -/
def GrowsOnlyWhenFull (state : State Item) (action : Action Item) (next : State Item) : Prop :=
  next.box.capacity ≠ state.box.capacity ->
    Exists fun index => Exists fun producer => Exists fun item => Exists fun grown =>
      action = .relock index ∧ state.producers[index]? = some producer ∧
      producer.pc = .relocking item state.box.capacity grown ∧
      state.box.count = state.box.capacity ∧ grown.length = state.box.capacity * 2 ∧
      next.box = ((state.box.growLocked grown).store item).1

/-- `MAILBOX_FULL` is returned only when no buffer could be had. -/
def FullOnlyWithoutMemory (state : State Item) (action : Action Item) (next : State Item) : Prop :=
  forall index before after item,
    state.producers[index]? = some before -> next.producers[index]? = some after ->
    after.returned = before.returned ++ [(item, .full)] ->
    Exists fun malloc => Exists fun seen =>
      action = .allocate index malloc ∧ before.pc = .allocating item seen ∧
      (malloc = none ∨ sizeMax / 2 / messageSize < seen)

theorem step_grows {capacity : Nat} {state next : State Item} {action : Action Item}
    (holds : Invariant capacity state) (moved : step state action = some next) :
    GrowsOnlyWhenFull state action next := by
  intro changed
  cases action with
  | enter index =>
      rcases step_of_producer moved with ⟨producer, _present, own⟩
      cases pc : producer.pc <;> simp only [producerStep, pc, reduceCtorEq, Option.some.injEq] at own
      subst own
      rw [afterRegion_box] at changed
      rcases tryPush_growth changed with ⟨grown, impossible, _⟩
      cases impossible
  | relock index =>
      rcases step_of_producer moved with ⟨producer, present, own⟩
      have fits := (holds.perProducer index producer present).2
      cases pc : producer.pc <;> simp only [producerStep, pc, reduceCtorEq, Option.some.injEq] at own
      rename_i item seen grown
      subst own
      rw [pc] at fits
      rw [afterRegion_box] at changed
      rcases tryPush_growth changed with ⟨installed, chosen, full, result⟩
      by_cases same : state.box.capacity = seen
      · rw [if_pos same] at chosen
        cases chosen
        subst same
        exact ⟨index, producer, item, grown, rfl, present, pc, full, fits.1,
          (afterRegion_box _ _ _ _ _).trans result⟩
      · rw [if_neg same] at chosen
        cases chosen
  | push index item =>
      rcases step_of_producer moved with ⟨producer, _present, own⟩
      cases pc : producer.pc <;> simp only [producerStep, pc, reduceCtorEq, Option.some.injEq] at own
      subst own
      exact False.elim (changed rfl)
  | allocate index malloc =>
      rcases step_of_producer moved with ⟨producer, _present, own⟩
      cases pc : producer.pc <;> simp only [producerStep, pc, reduceCtorEq] at own
      split at own
      · split at own <;> cases own <;> exact False.elim (changed rfl)
      · cases own
  | spawn =>
      cases moved
      exact False.elim (changed rfl)
  | pop =>
      cases moved
      rcases result : state.box.tryPop with ⟨box, found⟩
      have kept := (Mailbox.tryPop_spec holds.valid result).2.2.2.1
      simp only [consumerPop, result] at changed
      exact False.elim (changed kept)
  | finishBatch =>
      cases moved
      rcases result : state.box.finishBatch with ⟨box, more⟩
      have kept := (Mailbox.finishBatch_spec holds.valid result).2.2.2.1
      simp only [result] at changed
      exact False.elim (changed kept)
  | takeOverload =>
      cases moved
      exact False.elim (changed rfl)
  | close =>
      cases moved
      exact False.elim (changed rfl)

/-- A producer's list of returns after a locked region: nothing, or one entry
that is not `MAILBOX_FULL`. -/
private theorem region_never_full {capacity : Nat} {state : State Item} {index other : Nat}
    {producer before after : Producer Item} (holds : Invariant capacity state)
    (present : state.producers[index]? = some producer) {spare : Option (List Item)}
    (fits : state.box.SpareFits spare) (item : Item)
    (own : state.producers[other]? = some before)
    (found : (afterRegion state index producer item
      (state.box.tryPush spare item)).producers[other]? = some after) (full : Item) :
    after.returned ≠ before.returned ++ [(full, .full)] := by
  intro returned
  rcases result : state.box.tryPush spare item with ⟨box, region⟩
  rw [result] at found
  by_cases same : other = index
  · subst same
    cases present.symm.trans own
    rcases Mailbox.tryPush_spec holds.valid fits item result with
      ⟨_, _, _, ⟨rfl, _⟩ | ⟨rfl, _⟩ | ⟨rfl, _⟩⟩
    all_goals
      simp only [afterRegion, List.getElem?_set_self (length_of_getElem? present),
        Option.some.injEq] at found
      subst found
      simp [Producer.finish] at returned
  · have untouched : state.producers[other]? = some after := by
      rcases region with _ | ⟨_, _⟩ <;>
        simpa only [afterRegion, List.getElem?_set_ne (Ne.symm same)] using found
    cases own.symm.trans untouched
    simp at returned

private theorem returned_ne_of_same {state : State Item} {other : Nat}
    {before after : Producer Item} (own : state.producers[other]? = some before)
    (found : state.producers[other]? = some after) (item : Item) (result : MailboxResult) :
    after.returned ≠ before.returned ++ [(item, result)] := by
  cases own.symm.trans found
  simp

theorem step_full {capacity : Nat} {state next : State Item} {action : Action Item}
    (holds : Invariant capacity state) (moved : step state action = some next) :
    FullOnlyWithoutMemory state action next := by
  intro other before after item own found returned
  cases action with
  | enter index =>
      rcases step_of_producer moved with ⟨producer, present, mine⟩
      cases pc : producer.pc <;> simp only [producerStep, pc, reduceCtorEq, Option.some.injEq] at mine
      subst mine
      exact False.elim
        (region_never_full holds present (spareFits_none _) _ own found item returned)
  | relock index =>
      rcases step_of_producer moved with ⟨producer, present, mine⟩
      have fits := (holds.perProducer index producer present).2
      cases pc : producer.pc <;> simp only [producerStep, pc, reduceCtorEq, Option.some.injEq] at mine
      subst mine
      rw [pc] at fits
      exact False.elim
        (region_never_full holds present (spareFits_retry fits) _ own found item returned)
  | allocate index malloc =>
      rcases step_of_producer moved with ⟨producer, present, mine⟩
      cases pc : producer.pc <;> simp only [producerStep, pc, reduceCtorEq] at mine
      rename_i pushed seen
      split at mine
      · rename_i fits
        by_cases same : other = index
        · subst same
          cases present.symm.trans own
          cases allocated : Mailbox.allocateSpare seen malloc with
          | some grown =>
              simp only [allocated, Option.some.injEq] at mine
              subst mine
              rw [List.getElem?_set_self (length_of_getElem? present)] at found
              cases found
              simp at returned
          | none =>
              simp only [allocated, Option.some.injEq] at mine
              subst mine
              rw [List.getElem?_set_self (length_of_getElem? present)] at found
              cases found
              simp only [Producer.finish, List.append_cancel_left_eq, List.cons.injEq,
                Prod.mk.injEq, and_true] at returned
              subst returned
              refine ⟨malloc, seen, rfl, pc, ?_⟩
              unfold Mailbox.allocateSpare at allocated
              split at allocated
              · exact Or.inl allocated
              · rename_i large
                exact Or.inr (Nat.not_le.mp large)
        · have untouched : state.producers[other]? = some after := by
            split at mine <;> cases mine <;>
              simpa only [List.getElem?_set_ne (Ne.symm same)] using found
          exact False.elim (returned_ne_of_same own untouched item .full returned)
      · cases mine
  | push index pushed =>
      rcases step_of_producer moved with ⟨producer, present, mine⟩
      cases pc : producer.pc <;> simp only [producerStep, pc, reduceCtorEq, Option.some.injEq] at mine
      subst mine
      by_cases same : other = index
      · subst same
        cases present.symm.trans own
        rw [List.getElem?_set_self (length_of_getElem? present)] at found
        cases found
        simp at returned
      · simp only [List.getElem?_set_ne (Ne.symm same)] at found
        exact False.elim (returned_ne_of_same own found item .full returned)
  | spawn =>
      cases moved
      rw [List.getElem?_append_left (length_of_getElem? own)] at found
      exact False.elim (returned_ne_of_same own found item .full returned)
  | pop =>
      cases moved
      exact False.elim (returned_ne_of_same own found item .full returned)
  | finishBatch =>
      cases moved
      exact False.elim (returned_ne_of_same own found item .full returned)
  | takeOverload =>
      cases moved
      exact False.elim (returned_ne_of_same own found item .full returned)
  | close =>
      cases moved
      exact False.elim (returned_ne_of_same own found item .full returned)

/-- A closed mailbox stays closed and accepts nothing. -/
def ClosedForGood (state next : State Item) : Prop :=
  state.box.closed = true -> next.box.closed = true ∧ next.accepted = state.accepted

private theorem region_closed {state : State Item} (shut : state.box.closed = true) (index : Nat)
    (producer : Producer Item) (spare : Option (List Item)) (item : Item) :
    (afterRegion state index producer item (state.box.tryPush spare item)).box.closed = true ∧
      (afterRegion state index producer item (state.box.tryPush spare item)).accepted =
        state.accepted := by
  have refused : state.box.tryPush spare item = (state.box, .finished .closed false) := by
    unfold Mailbox.tryPush
    rw [if_neg (by rw [shut]; rintro ⟨impossible, _⟩; cases impossible), if_pos shut]
  rw [refused]
  exact ⟨shut, rfl⟩

theorem step_closed {state next : State Item} {action : Action Item}
    (moved : step state action = some next) : ClosedForGood state next := by
  intro shut
  cases action with
  | enter index =>
      rcases step_of_producer moved with ⟨producer, _present, own⟩
      cases pc : producer.pc <;> simp only [producerStep, pc, reduceCtorEq, Option.some.injEq] at own
      subst own
      exact region_closed shut _ _ _ _
  | relock index =>
      rcases step_of_producer moved with ⟨producer, _present, own⟩
      cases pc : producer.pc <;> simp only [producerStep, pc, reduceCtorEq, Option.some.injEq] at own
      subst own
      exact region_closed shut _ _ _ _
  | push index item =>
      rcases step_of_producer moved with ⟨producer, _present, own⟩
      cases pc : producer.pc <;> simp only [producerStep, pc, reduceCtorEq, Option.some.injEq] at own
      subst own
      exact ⟨shut, rfl⟩
  | allocate index malloc =>
      rcases step_of_producer moved with ⟨producer, _present, own⟩
      cases pc : producer.pc <;> simp only [producerStep, pc, reduceCtorEq] at own
      split at own
      · split at own <;> cases own <;> exact ⟨shut, rfl⟩
      · cases own
  | spawn =>
      cases moved
      exact ⟨shut, rfl⟩
  | pop =>
      cases moved
      refine ⟨?_, rfl⟩
      simp only [consumerPop, Mailbox.tryPop]
      split <;> exact shut
  | finishBatch =>
      cases moved
      refine ⟨?_, rfl⟩
      simp only [Mailbox.finishBatch]
      split <;> exact shut
  | takeOverload =>
      cases moved
      exact ⟨shut, rfl⟩
  | close =>
      cases moved
      exact ⟨rfl, rfl⟩

theorem run_closed {capacity : Nat} {state final : State Item} {schedule : List (Action Item)}
    (taken : (machine Item capacity).run state schedule = some final) :
    ClosedForGood state final := by
  apply (machine Item capacity).run_relates _ _ _ taken
  · intro current shut
    exact ⟨shut, rfl⟩
  · intro first second third earlier later shut
    have middle := earlier shut
    have last := later middle.1
    exact ⟨last.1, last.2.trans middle.2⟩
  · intro current action next moved
    exact step_closed moved

/-! ## The refinement -/

/-- The ring refines an unbounded FIFO queue under every interleaving of its
regions.  What was popped, followed by what the ring holds, is what was
accepted, in the order of acceptance; a producer's accepted items are those
whose push returned `MAILBOX_OK`, in its own order; refusal, growth and
closing happen only where the source says they do. -/
theorem ring_refines_fifo {capacity : Nat} {state : State Item}
    (reachable : (machine Item capacity).Reachable state) :
    state.popped ++ state.box.contents = state.accepted.map Prod.snd ∧
    (forall index producer, state.producers[index]? = some producer ->
      acceptedFrom state.accepted index = okItems producer.returned) ∧
    (state.box.count ≤ state.box.capacity ∧ state.box.head < state.box.capacity ∧
      state.box.tail = (state.box.head + state.box.count) % state.box.capacity ∧
      Exists fun doublings => state.box.capacity = capacity * 2 ^ doublings) ∧
    (forall action next, step state action = some next ->
      FullOnlyWithoutMemory state action next ∧ GrowsOnlyWhenFull state action next) ∧
    (forall schedule final, (machine Item capacity).run state schedule = some final ->
      ClosedForGood state final) := by
  have holds := reachable_invariant reachable
  refine ⟨holds.fifo, fun index producer present => (holds.perProducer index producer present).1,
    ⟨holds.valid.count_le, holds.valid.head_lt, holds.valid.tail_eq, ?_⟩,
    fun action next moved => ⟨step_full holds moved, step_grows holds moved⟩,
    fun schedule final taken => run_closed taken⟩
  rcases holds.valid.doubled with ⟨doublings, equal⟩
  exact ⟨doublings, by rw [equal, holds.initial]⟩

/-- Two producers meet a full ring of capacity one: the second returns from
its allocation after the first has grown the ring, stores without growing,
and the consumer then pops across the old boundary. -/
def contendedRun : List (Action Nat) :=
  [.spawn, .spawn, .push 0 10, .enter 0, .push 0 11, .push 1 20, .enter 0, .enter 1,
    .allocate 0 (some [0, 0]), .allocate 1 (some [0, 0]), .relock 0, .pop, .relock 1, .pop,
    .close, .push 0 12, .enter 0]

theorem ring_refines_fifo_contended :
    Exists fun state => (machine Nat 1).Reachable state ∧
      state.popped = [10, 11] ∧ state.box.contents = [20] ∧ state.box.capacity = 2 ∧
      state.popped ++ state.box.contents = state.accepted.map Prod.snd := by
  let start : State Nat :=
    { box := { items := [0], capacity := 1, head := 0, tail := 0, count := 0, initialCapacity := 1,
               overload := 0, overloadThreshold := 1, closed := false, scheduled := false }
      producers := [], popped := [], accepted := [] }
  have enabled : ((machine Nat 1).run start contendedRun).isSome = true := by decide
  rcases Option.isSome_iff_exists.mp enabled with ⟨state, taken⟩
  have reachable : (machine Nat 1).Reachable state :=
    ⟨start, contendedRun, ⟨[0], rfl, by decide, rfl, rfl, rfl⟩, taken⟩
  have observed : ((machine Nat 1).run start contendedRun).map
      (fun final => (final.popped, final.box.contents, final.box.capacity)) =
      some ([10, 11], [20], 2) := by decide
  rw [taken, Option.map_some, Option.some.injEq, Prod.mk.injEq, Prod.mk.injEq] at observed
  exact ⟨state, reachable, observed.1, observed.2.1, observed.2.2, (ring_refines_fifo reachable).1⟩

end MailboxSystem

end ServiceRuntime
