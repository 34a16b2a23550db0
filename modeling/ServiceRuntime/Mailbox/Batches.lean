import ServiceRuntime.Lua.Dispatcher
import ServiceRuntime.Mailbox.Overload

namespace ServiceRuntime
namespace Batches

open Foundation
open MailboxSystem (consumerPop)

/-!
# The overload threshold over the rounds of the dispatcher

The consumer of `Mailbox.Producers` pops whenever it likes.  Here it pops as
the dispatcher does, in rounds of at most `DISPATCH_BATCH_SIZE` messages.  A
round that pops an empty mailbox is over at once; after a full batch
`mailbox_finish_batch` decides whether there is more to do.  In both ways a
round can end on a drained queue with `scheduled` cleared, but only an empty pop
also resets the threshold.
-/

variable {Item : Type}

/-- Where the consumer stands in a round: about to pop with so many messages
processed, before `mailbox_overload`, or before `mailbox_finish_batch`. -/
inductive ConsumerPc where
  | resting
  | popping (processed : Nat)
  | reporting (batchFull : Bool)
  | finishing
  deriving DecidableEq, Repr

/-- The mailbox with its producers, the consumer, and two notes on the run: the
lengths left by the pops since the last empty one, and whether a round has ended
on a drained queue and no pop since has left more than the initial capacity. -/
structure State (Item : Type) where
  system : MailboxSystem.State Item
  consumer : ConsumerPc
  lefts : List Nat
  drained : Bool
  deriving DecidableEq, Repr

abbrev State.box (state : State Item) : Mailbox Item := state.system.box

inductive Action (Item : Type) where
  /-- A step of a producer, or a close. -/
  | other (action : MailboxSystem.Action Item)
  | wake
  | pop
  /-- The loop of the dispatcher is left without an empty pop: at the end of a
  batch, or before it, when the service quits, stops or fails. -/
  | leave (early : Bool)
  | report
  | finish

/-- The steps that are not the consumer's. -/
def isConsumer : MailboxSystem.Action Item -> Bool
  | .pop | .finishBatch | .takeOverload => true
  | .spawn | .push _ _ | .enter _ | .allocate _ _ | .relock _ | .close => false

/-- `mailbox_try_pop` in a round. -/
def pop (state : State Item) (processed : Nat) : State Item :=
  if 0 < state.box.count then
    { system := consumerPop state.system
      consumer := .popping (processed + 1)
      lefts := state.lefts ++ [state.box.count - 1]
      drained := state.drained && decide (state.box.count - 1 ≤ state.box.initialCapacity) }
  else
    { system := consumerPop state.system
      consumer := .reporting false
      lefts := []
      drained := true }

/-- `mailbox_finish_batch` at the end of a full batch. -/
def finish (state : State Item) : State Item :=
  { system := { state.system with box := state.box.finishBatch.1 }
    consumer := .resting
    lefts := state.lefts
    drained := state.drained || decide (state.box.count = 0) }

def step (state : State Item) : Action Item -> Option (State Item)
  | .other action =>
      if isConsumer action then none
      else (MailboxSystem.step state.system action).map fun system => { state with system }
  | .wake =>
      match state.consumer with
      | .resting => some { state with consumer := .popping 0 }
      | _ => none
  | .pop =>
      match state.consumer with
      | .popping processed =>
          if processed < Lua.dispatchBatchSize then some (pop state processed) else none
      | _ => none
  | .leave early =>
      match state.consumer with
      | .popping processed =>
          if early = true ∨ processed = Lua.dispatchBatchSize then
            some { state with consumer := .reporting (!early) }
          else none
      | _ => none
  | .report =>
      match state.consumer with
      | .reporting batchFull =>
          some { state with
            system := { state.system with box := state.box.takeOverload.1 }
            consumer := if batchFull then .finishing else .resting }
      | _ => none
  | .finish =>
      match state.consumer with
      | .finishing => some (finish state)
      | _ => none

def machine (Item : Type) (capacity : Nat) : Machine (State Item) (Action Item) where
  initial state := (MailboxSystem.machine Item capacity).initial state.system ∧
    state.consumer = .resting ∧ state.lefts = [] ∧ state.drained = false
  step := step

/-- Once a round has ended on a drained queue, the threshold is the initial
capacity, and the first pop that leaves more is reported. -/
def ResetWhenDrained (state : State Item) : Prop :=
  state.drained = true ->
    state.box.overloadThreshold = state.box.initialCapacity ∧
      (state.box.initialCapacity < state.box.count - 1 ->
        state.box.tryPop.1.overload = state.box.count - 1)

/-- A batch does not end on a drained queue while a pop since the last empty one
has left more than the initial capacity. -/
def EndsWithEmptyPop (state : State Item) : Action Item -> Prop
  | .finish => state.box.count = 0 -> forall left, left ∈ state.lefts ->
      left ≤ state.box.initialCapacity
  | _ => True

instance (state : State Item) : forall action, Decidable (EndsWithEmptyPop state action)
  | .finish => inferInstanceAs (Decidable (state.box.count = 0 -> forall left, left ∈ state.lefts ->
      left ≤ state.box.initialCapacity))
  | .other _ | .wake | .pop | .leave _ | .report => .isTrue trivial

/-! ## What a step does to the threshold -/

/-- The threshold is explained by the lengths left since the last empty pop. -/
structure Tracked (capacity : Nat) (state : State Item) : Prop where
  system : MailboxSystem.Invariant capacity state.system
  threshold : LeastDoubling capacity (capacity :: state.lefts) state.box.overloadThreshold
  reset : state.drained = true -> state.box.overloadThreshold = capacity

theorem Tracked.resetWhenDrained {capacity : Nat} {state : State Item}
    (tracked : Tracked capacity state) : ResetWhenDrained state := by
  intro drained
  have same := tracked.reset drained
  have initial : state.box.initialCapacity = capacity := tracked.system.initial
  rw [initial]
  refine ⟨same, ?_⟩
  intro above
  have report := congrArg Prod.fst
    (Mailbox.tryPop_found (show 0 < state.box.count by omega)).2
  dsimp only at report
  rw [same, Mailbox.raiseThreshold_overload tracked.system.capacity_pos (Nat.sub_le _ _),
    if_pos above] at report
  exact report

theorem Tracked.frame {capacity : Nat} {state next : State Item} (tracked : Tracked capacity state)
    (system : MailboxSystem.Invariant capacity next.system)
    (threshold : next.box.overloadThreshold = state.box.overloadThreshold)
    (lefts : next.lefts = state.lefts) (drained : next.drained = state.drained) :
    Tracked capacity next where
  system := system
  threshold := by
    rw [lefts, threshold]
    exact tracked.threshold
  reset := by
    rw [drained, threshold]
    exact tracked.reset

theorem Tracked.pop {capacity : Nat} {state : State Item} (tracked : Tracked capacity state)
    (processed : Nat) : Tracked capacity (Batches.pop state processed) := by
  have system : MailboxSystem.Invariant capacity (consumerPop state.system) :=
    @MailboxSystem.step_invariant Item capacity state.system _ .pop tracked.system rfl
  have initial : state.box.initialCapacity = capacity := tracked.system.initial
  unfold Batches.pop
  split
  · rename_i found
    have positive : 0 < state.box.overloadThreshold :=
      Nat.lt_of_lt_of_le tracked.system.capacity_pos tracked.threshold.doubling.base_le
    have report := congrArg Prod.snd (Mailbox.tryPop_found found).2
    dsimp only at report
    have raised : LeastDoubling capacity [state.box.overloadThreshold, state.box.count - 1]
        state.box.tryPop.1.overloadThreshold := by
      rw [report]
      exact Mailbox.raiseThreshold_least positive tracked.threshold.doubling (Nat.sub_le _ _)
    refine ⟨system, tracked.threshold.append raised, ?_⟩
    intro still
    rw [Bool.and_eq_true, decide_eq_true_eq, initial] at still
    apply raised.eq_base_iff.mpr
    intro value member
    rcases List.mem_cons.mp member with rfl | last
    · exact Nat.le_of_eq (tracked.reset still.1)
    · rw [List.mem_singleton.mp last]
      exact still.2
  · rename_i empty
    have threshold : state.box.tryPop.1.overloadThreshold = capacity := by
      rw [Mailbox.tryPop_empty empty]
      exact initial
    refine ⟨system, ?_, fun _ => threshold⟩
    change LeastDoubling capacity [capacity] state.box.tryPop.1.overloadThreshold
    rw [threshold]
    exact LeastDoubling.start (Doubling.zero capacity)

/-- The threshold is the initial capacity as long as no pop has left more. -/
theorem Tracked.unraised_iff {capacity : Nat} {state : State Item} (tracked : Tracked capacity state) :
    state.box.overloadThreshold = capacity <->
      forall left, left ∈ state.lefts -> left ≤ state.box.initialCapacity := by
  have initial : state.box.initialCapacity = capacity := tracked.system.initial
  rw [tracked.threshold.eq_base_iff, List.forall_mem_cons, and_iff_right (Nat.le_refl capacity),
    initial]

/-- `mailbox_finish_batch` leaves the threshold as it is. -/
theorem Tracked.finish {capacity : Nat} {state : State Item} (tracked : Tracked capacity state)
    (ends : EndsWithEmptyPop state .finish) : Tracked capacity (Batches.finish state) where
  system := @MailboxSystem.step_invariant Item capacity state.system _ .finishBatch tracked.system rfl
  threshold := by
    change LeastDoubling _ _ state.box.finishBatch.1.overloadThreshold
    rw [Mailbox.finishBatch_threshold]
    exact tracked.threshold
  reset := by
    intro drained
    change state.box.finishBatch.1.overloadThreshold = capacity
    rw [Mailbox.finishBatch_threshold]
    rcases (Bool.or_eq_true _ _).mp drained with earlier | now
    · exact tracked.reset earlier
    · exact tracked.unraised_iff.mpr (ends (of_decide_eq_true now))

theorem Tracked.ends_of_reset {capacity : Nat} {state : State Item} (tracked : Tracked capacity state)
    (reset : ResetWhenDrained (Batches.finish state)) : EndsWithEmptyPop state .finish := by
  intro empty
  have drained : (Batches.finish state).drained = true := by
    unfold Batches.finish
    dsimp only
    rw [decide_eq_true empty, Bool.or_true]
  have finished : MailboxSystem.Invariant capacity (Batches.finish state).system :=
    @MailboxSystem.step_invariant Item capacity state.system _ .finishBatch tracked.system rfl
  have threshold := (reset drained).1
  rw [show (Batches.finish state).box.initialCapacity = capacity from finished.initial] at threshold
  apply tracked.unraised_iff.mp
  rw [← threshold]
  exact (Mailbox.finishBatch_threshold state.box).symm

theorem step_finish {state next : State Item} (moved : step state .finish = some next) :
    next = finish state := by
  rw [step] at moved
  split at moved
  · exact (Option.some.inj moved).symm
  · cases moved

/-- Every step but `mailbox_finish_batch` keeps the threshold explained. -/
theorem step_tracked {capacity : Nat} {state next : State Item} {action : Action Item}
    (tracked : Tracked capacity state) (moved : step state action = some next)
    (other : action ≠ .finish) : Tracked capacity next := by
  cases action with
  | other own =>
      rw [step] at moved
      split at moved
      · cases moved
      · rename_i producers
        rcases Option.map_eq_some_iff.mp moved with ⟨system, taken, rfl⟩
        have notPop : own ≠ .pop := by
          rintro rfl
          exact producers rfl
        exact tracked.frame (MailboxSystem.step_invariant tracked.system taken)
          (MailboxSystem.step_threshold taken notPop) rfl rfl
  | wake =>
      rw [step] at moved
      split at moved
      · cases moved
        exact tracked.frame tracked.system rfl rfl rfl
      · cases moved
  | pop =>
      rw [step] at moved
      split at moved
      · split at moved
        · cases moved
          exact tracked.pop _
        · cases moved
      · cases moved
  | leave early =>
      rw [step] at moved
      split at moved
      · split at moved
        · cases moved
          exact tracked.frame tracked.system rfl rfl rfl
        · cases moved
      · cases moved
  | report =>
      rw [step] at moved
      split at moved
      · cases moved
        have system := @MailboxSystem.step_invariant Item capacity state.system _ .takeOverload
          tracked.system rfl
        exact tracked.frame system rfl rfl rfl
      · cases moved
  | finish => exact absurd rfl other

theorem endsWithEmptyPop_other {state : State Item} {action : Action Item} (other : action ≠ .finish) :
    EndsWithEmptyPop state action := by
  cases action with
  | finish => exact absurd rfl other
  | other own | wake | pop | leave early | report => trivial

theorem initial_tracked {capacity : Nat} {state : State Item}
    (initial : (machine Item capacity).initial state) : Tracked capacity state := by
  rcases initial with ⟨system, _, lefts, drained⟩
  have valid := MailboxSystem.initial_invariant system
  have threshold : state.box.overloadThreshold = capacity := by
    rcases system with ⟨cells, _, created, _⟩
    exact Mailbox.new_threshold created
  refine ⟨valid, ?_, ?_⟩
  · rw [lefts, threshold]
    exact LeastDoubling.start (Doubling.zero capacity)
  · intro _
    exact threshold

/-- A drained queue comes with the initial threshold, in every state of a run,
exactly if no batch of the run ends on a drained queue while a pop since the last
empty one has left more than the initial capacity. -/
theorem threshold_reset {capacity : Nat} {start : State Item}
    (initial : (machine Item capacity).initial start) (schedule : List (Action Item)) :
    (machine Item capacity).Throughout ResetWhenDrained start schedule <->
      (machine Item capacity).Obeys EndsWithEmptyPop start schedule := by
  apply (machine Item capacity).throughout_iff_obeys (Tracked capacity)
  · intro state tracked
    exact tracked.resetWhenDrained
  · intro state action next tracked allowed moved
    by_cases isFinish : action = .finish
    · subst isFinish
      rw [step_finish moved]
      exact tracked.finish allowed
    · exact step_tracked tracked moved isFinish
  · intro state action next tracked refused moved reset
    by_cases isFinish : action = .finish
    · subst isFinish
      rw [step_finish moved] at reset
      exact refused (tracked.ends_of_reset reset)
    · exact refused (endsWithEmptyPop_other isFinish)
  · exact initial_tracked initial

/-- Push one message into a ring with a free cell. -/
def pushOne : List (Action Unit) := [.other (.push 0 ()), .other (.enter 0)]

/-- Push one message into a full ring. -/
def pushGrowing (cells : Nat) : List (Action Unit) :=
  pushOne ++ [.other (.allocate 0 (some (List.replicate cells ()))), .other (.relock 0)]

/-- Three messages wait on a ring of capacity one. -/
def backlog : List (Action Unit) :=
  [.other .spawn] ++ pushOne ++ pushGrowing 2 ++ pushGrowing 4

def idle : State Unit where
  system :=
    { box := { items := [()], capacity := 1, head := 0, tail := 0, count := 0, initialCapacity := 1,
               overload := 0, overloadThreshold := 1, closed := false, scheduled := false }
      producers := [], popped := [], accepted := [] }
  consumer := .resting
  lefts := []
  drained := false

theorem idle_initial : (machine Unit 1).initial idle :=
  ⟨⟨[()], rfl, by decide, rfl, rfl, rfl⟩, rfl, rfl, rfl⟩

/-- The round that takes the backlog ends with an empty pop. -/
theorem threshold_reset_backlog :
    (machine Unit 1).Throughout ResetWhenDrained idle
      (backlog ++ [.wake, .pop, .pop, .pop, .pop, .report]) :=
  (threshold_reset idle_initial _).mpr (by decide)

/-- While the backlog waits, as many messages arrive as are popped, until a batch
is full and the queue empty. -/
def exactBatch : List (Action Unit) :=
  backlog ++ [.wake, .pop] ++ (List.replicate 253 (pushOne ++ [.pop])).flatten ++
    [.pop, .pop, .leave false, .report, .finish]

/-- The queue is drained and `scheduled` cleared, but the threshold is two. -/
theorem threshold_stays_raised :
    ¬ forall (Item : Type) (capacity : Nat) (state : State Item),
      (machine Item capacity).Reachable state -> ResetWhenDrained state := by
  intro resets
  have observed : ((machine Unit 1).run idle exactBatch).any
      (fun state => decide (state.drained = true ∧
        state.box.overloadThreshold ≠ state.box.initialCapacity)) = true := by
    decide +kernel
  rcases (machine Unit 1).exists_reachable idle_initial observed with ⟨state, reachable, drained, raised⟩
  exact raised (resets Unit 1 state reachable drained).1

end Batches
end ServiceRuntime
