import ServiceRuntime.Foundation.Pool
import ServiceRuntime.Scheduler.Queue

namespace ServiceRuntime
namespace Scheduler

open Foundation

/-!
# What the scheduler executes

Every task whose registration returned is accounted for: a task for one moment
has been invoked or is in the queue, a daily task is executing or in the queue.
The log of invocations shows in which order and at which readings of the clock.

The drain gives a daily task up when the clock or the calendar fails it, so the
account is kept along runs in which the drain can read both.  Registrations and
the timer may fail.
-/

/-- The clock and the calendar serve the task that has just executed. -/
def readsDaily (env : DrainEnv) (task : Task) : Bool :=
  match task.kind, env.dailyNow, task.dailySpec with
  | .at, _, _ => true
  | .daily, none, _ => false
  | .daily, some now, some spec => (nextDailyDeadline env.calendar spec now).isOk
  | .daily, some _, none => true

/-- The readings the drain takes in this step succeed. -/
def Reads (state : State) : Action -> Prop
  | .register _ _ => True
  | .timer env => env.now.isSome = true
  | .finish _ env => env.now.isSome = true ∧
      (state.executing.all fun execution => readsDaily env (state.tasks execution.task)) = true

instance (state : State) (action : Action) : Decidable (Reads state action) := by
  cases action <;> unfold Reads <;> infer_instance

/-! ## The account -/

def State.invoked (state : State) : List Ref :=
  state.invocations.map Invocation.task

/-- Where a registered task is counted when it is not in the queue. -/
def State.held (state : State) (ref : Ref) : Nat :=
  match (state.tasks ref).kind with
  | .at => state.invoked.count ref
  | .daily => if state.executing.map Execution.task = some ref then 1 else 0

/-- The invocations of one drain. -/
def State.drained (state : State) (tick : Nat) : Nat :=
  state.invocations.countP fun invocation => invocation.tick = tick

/-- A task for one moment with the same deadline that was registered before has
been invoked before. -/
def Preceded (tasks : Ref -> Task) (registered : List Ref) (invocations : List Invocation)
    (position : Nat) (invocation : Invocation) : Prop :=
  (tasks invocation.task).kind = .at ->
    forall ref, ref ∈ registered -> (tasks ref).kind = .at ->
      (tasks ref).deadline = (tasks invocation.task).deadline -> ref < invocation.task ->
      Exists fun earlier => Exists fun before => earlier < position ∧
        invocations[earlier]? = some before ∧ before.task = ref

structure Account (state : State) : Prop where
  unique : state.registered.Nodup
  bounded : forall ref, ref ∈ state.registered -> ref < state.created
  logged : forall invocation, invocation ∈ state.invocations -> invocation.task < state.created
  balance : forall ref, state.registered.count ref = state.held ref + state.heap.slots.count ref
  constant : forall invocation, invocation ∈ state.invocations ->
    (state.tasks invocation.task).kind = .at ->
    invocation.deadline = (state.tasks invocation.task).deadline
  due : forall invocation, invocation ∈ state.invocations -> invocation.deadline ≤ invocation.now
  least : forall invocation, invocation ∈ state.invocations ->
    forall other, other ∈ invocation.others ->
      toLex (invocation.deadline, invocation.sequence) < other
  ordered : forall (position : Nat) invocation, state.invocations[position]? = some invocation ->
    Preceded state.tasks state.registered state.invocations position invocation
  ticks : forall invocation, invocation ∈ state.invocations -> invocation.tick ≤ state.tick
  paced : forall tick, state.drained tick ≤ maxTasksPerTick
  progress : forall execution, state.executing = some execution ->
    state.drained state.tick = execution.processed + 1

/-- The account does not look at the timer. -/
theorem Account.frame {state next : State} (account : Account state)
    (only : Exists fun draining => TimerOnly { state with draining } next) : Account next := by
  rcases only with ⟨_, _, _, _, _, rfl⟩
  exact ⟨account.unique, account.bounded, account.logged, account.balance, account.constant,
    account.due, account.least, account.ordered, account.ticks, account.paced, account.progress⟩

theorem State.held_congr {state next : State} {ref : Ref}
    (kind : (next.tasks ref).kind = (state.tasks ref).kind)
    (invocations : next.invocations = state.invocations)
    (executing : next.executing = state.executing) : next.held ref = state.held ref := by
  unfold State.held State.invoked
  rw [kind, invocations, executing]

/-- Nobody holds a task that does not exist yet. -/
theorem Account.held_new {state next : State} (account : Account state) (sound : Sound state)
    (invocations : next.invocations = state.invocations)
    (executing : next.executing = state.executing) : next.held state.created = 0 := by
  unfold State.held State.invoked
  rw [invocations, executing]
  split
  · rw [List.count_eq_zero]
    intro member
    rcases List.mem_map.mp member with ⟨invocation, logged, same⟩
    have below := account.logged invocation logged
    exact Nat.lt_irrefl _ (same ▸ below)
  · rw [if_neg]
    intro same
    rcases Option.map_eq_some_iff.mp same with ⟨execution, present, equal⟩
    have below := (sound.apart execution present).2
    exact Nat.lt_irrefl _ (equal ▸ below)

theorem Account.newTask {state : State} (account : Account state) (sound : Sound state)
    (deadline : Rat) (kind : Kind) (spec : Option DailySpec) :
    Account (newTask state deadline kind spec) := by
  have older : forall ref, ref < state.created ->
      (Scheduler.newTask state deadline kind spec).tasks ref = state.tasks ref :=
    fun ref old => newTask_other state deadline kind spec old
  have kinds : forall ref, ref ≠ state.created ->
      (Scheduler.newTask state deadline kind spec).tasks ref = state.tasks ref :=
    fun ref different => Function.update_of_ne different _ _
  constructor
  · exact account.unique
  · exact fun ref member => Nat.lt_succ_of_lt (account.bounded ref member)
  · exact fun invocation member => Nat.lt_succ_of_lt (account.logged invocation member)
  · intro ref
    by_cases new : ref = state.created
    · have unknown : state.registered.count ref = 0 := by
        rw [List.count_eq_zero]
        intro member
        exact Nat.lt_irrefl _ (new ▸ account.bounded ref member)
      have unqueued : state.heap.slots.count ref = 0 := by
        rw [List.count_eq_zero]
        intro member
        exact Nat.lt_irrefl _ (new ▸ sound.known ref member)
      have unheld : (Scheduler.newTask state deadline kind spec).held ref = 0 := by
        rw [new]
        exact account.held_new sound rfl rfl
      show state.registered.count ref = _ + state.heap.slots.count ref
      rw [unheld, unknown, unqueued]
    · have same : (Scheduler.newTask state deadline kind spec).held ref = state.held ref :=
        State.held_congr (by rw [kinds ref new]) rfl rfl
      rw [same]
      exact account.balance ref
  · intro invocation member
    rw [older invocation.task (account.logged invocation member)]
    exact account.constant invocation member
  · exact account.due
  · exact account.least
  · intro position invocation present
    have known := account.logged invocation (List.mem_of_getElem? present)
    unfold Preceded
    rw [older invocation.task known]
    intro isAt ref member
    rw [older ref (account.bounded ref member)]
    exact account.ordered position invocation present isAt ref member
  · exact account.ticks
  · exact account.paced
  · exact account.progress

/-- The account only counts what is in the queue. -/
theorem Account.rearrange {state : State} (account : Account state) {heap : Heap Ref}
    (perm : heap.slots.Perm state.heap.slots) : Account { state with heap } := by
  refine ⟨account.unique, account.bounded, account.logged, ?_, account.constant, account.due,
    account.least, account.ordered, account.ticks, account.paced, account.progress⟩
  intro ref
  show state.registered.count ref = state.held ref + heap.slots.count ref
  rw [perm.count_eq]
  exact account.balance ref

/-- A task that is not registered yet enters the queue and the register. -/
theorem Account.enroll {state : State} (account : Account state) {ref : Ref}
    (unregistered : ref ∉ state.registered) (exists_ref : ref < state.created)
    (newest : forall invocation, invocation ∈ state.invocations -> invocation.task ≤ ref) :
    Account { heapPush state ref with registered := state.registered ++ [ref] } := by
  constructor
  · exact List.nodup_append.mpr ⟨account.unique, List.nodup_singleton ref, by
      rintro one first other second rfl
      rw [List.mem_singleton] at second
      exact unregistered (second ▸ first)⟩
  · intro other member
    rcases List.mem_append.mp member with old | new
    · exact account.bounded other old
    · rw [List.mem_singleton] at new
      exact new ▸ exists_ref
  · exact account.logged
  · intro other
    have before := account.balance other
    have queued := (heapPush_perm state ref).count_eq other
    show (state.registered ++ [ref]).count other = state.held other +
      (heapPush state ref).heap.slots.count other
    rw [queued, List.count_append, List.count_singleton, List.count_cons, before]
    exact Nat.add_assoc _ _ _
  · exact account.constant
  · exact account.due
  · exact account.least
  · intro position invocation present isAt other member
    rcases List.mem_append.mp member with old | new
    · exact account.ordered position invocation present isAt other old
    · rw [List.mem_singleton] at new
      intro _ _ earlier
      exact absurd (newest invocation (List.mem_of_getElem? present)) (Nat.not_le_of_lt (new ▸ earlier))
  · exact account.ticks
  · exact account.paced
  · exact account.progress

theorem Account.enrolled {state next : State} (account : Account state) (sound : Sound state)
    (enrolled : Enrolled state next) : Account next := by
  cases enrolled with
  | refused only => exact account.frame ⟨state.draining, only⟩
  | undone deadline kind spec heap specified valid perm only =>
      exact ((account.newTask sound deadline kind spec).rearrange perm).frame ⟨state.draining, only⟩
  | done deadline kind spec specified only =>
      have fresh := account.newTask sound deadline kind spec
      have unregistered : state.created ∉ state.registered :=
        fun member => Nat.lt_irrefl _ (account.bounded _ member)
      have queued := fresh.enroll unregistered (Nat.lt_succ_self _)
        (fun invocation member => Nat.le_of_lt (account.logged invocation member))
      exact queued.frame ⟨state.draining, only⟩

/-! ## The account along a drain -/

/-- A registered task with the deadline of the root that was registered before
it has left the queue. -/
theorem Sound.overtaken {state popped : State} {root ref : Ref} (sound : Sound state)
    (taken : Scheduler.heapPop state = some (root, popped))
    (isAt : (state.tasks ref).kind = .at) (rootAt : (state.tasks root).kind = .at)
    (same : (state.tasks ref).deadline = (state.tasks root).deadline) (earlier : ref < root) :
    ref ∉ state.heap.slots := by
  rcases sound.heapPop taken with ⟨-, perm, -, atRoot, -, least⟩
  intro member
  have exists_root := sound.known root (Heap.mem_slots_iff.mpr ⟨1, atRoot⟩)
  have less := sound.ascending ref root earlier exists_root isAt rootAt
  rcases List.mem_cons.mp (perm.mem_iff.mp member) with equal | left
  · exact Nat.lt_irrefl _ (equal ▸ earlier)
  · have later := least ref left
    unfold key at later
    rw [Prod.Lex.toLex_lt_toLex, same] at later
    rcases later with before | ⟨-, after⟩
    · exact lt_irrefl _ before
    · exact Nat.lt_asymm less after

/-- An invocation makes its task held once more. -/
theorem State.held_invokeAction {state : State} (free : state.executing = none) (heap : Heap Ref)
    (root : Ref) (processed : Nat) (now : Rat) (ref : Ref) :
    (invokeAction { state with heap } root processed now).held ref =
      state.held ref + if root = ref then 1 else 0 := by
  unfold State.held State.invoked invokeAction
  dsimp only
  rw [free]
  cases (state.tasks ref).kind with
  | «at» =>
      simp only [List.map_append, List.map_cons, List.map_nil, List.count_append,
        List.count_singleton, beq_iff_eq]
  | daily =>
      simp only [Option.map_some, Option.some.injEq, Option.map_none, reduceCtorEq, if_false,
        Nat.zero_add]

theorem State.drained_invokeAction (state : State) (root : Ref) (processed : Nat) (now : Rat)
    (tick : Nat) :
    (invokeAction state root processed now).drained tick =
      state.drained tick + if state.tick = tick then 1 else 0 := by
  unfold State.drained invokeAction
  dsimp only
  rw [List.countP_append, List.countP_singleton]
  simp only [decide_eq_true_eq]

theorem mem_invokeAction {state : State} {root : Ref} {processed : Nat} {now : Rat}
    {invocation : Invocation}
    (member : invocation ∈ (invokeAction state root processed now).invocations) :
    invocation ∈ state.invocations ∨
      invocation = ⟨root, (state.tasks root).deadline, (state.tasks root).sequence, now, state.tick,
        state.heap.slots.map (key state.tasks)⟩ := by
  rcases List.mem_append.mp member with old | new
  · exact Or.inl old
  · exact Or.inr (List.mem_singleton.mp new)

/-- A registered task for one moment is in the log or in the queue. -/
theorem Account.logged_of_absent {state : State} (account : Account state) {ref : Ref}
    (member : ref ∈ state.registered) (isAt : (state.tasks ref).kind = .at)
    (absent : ref ∉ state.heap.slots) :
    Exists fun position : Nat => Exists fun invocation : Invocation =>
      state.invocations[position]? = some invocation ∧ invocation.task = ref := by
  have once := account.balance ref
  have positive := List.count_pos_iff.mpr member
  have held : state.held ref = state.invoked.count ref := by
    unfold State.held
    rw [isAt]
  rw [List.count_eq_zero.mpr absent, held] at once
  have present : ref ∈ state.invoked := List.count_pos_iff.mp (by omega)
  rcases List.mem_map.mp present with ⟨invocation, logged, equal⟩
  rcases List.getElem?_of_mem logged with ⟨position, located⟩
  exact ⟨position, invocation, located, equal⟩

/-- The root moves from the queue to the log. -/
theorem Account.invokeAction {state popped : State} {root : Ref} {processed : Nat} {now : Rat}
    (account : Account state) (sound : Sound state) (free : state.executing = none)
    (count : state.drained state.tick = processed) (taken : heapPop state = some (root, popped))
    (due : (state.tasks root).deadline ≤ now) (room : processed < maxTasksPerTick) :
    Account (invokeAction popped root processed now) := by
  rcases sound.heapPop taken with ⟨-, perm, ⟨heap, rfl⟩, atRoot, gone, least⟩
  have exists_root := sound.known root (Heap.mem_slots_iff.mpr ⟨1, atRoot⟩)
  constructor
  · exact account.unique
  · exact account.bounded
  · intro other member
    rcases mem_invokeAction member with old | rfl
    · exact account.logged other old
    · exact exists_root
  · intro ref
    have before := account.balance ref
    have queued := perm.count_eq ref
    have held := State.held_invokeAction free heap root processed now ref
    rw [List.count_cons] at queued
    simp only [beq_iff_eq] at queued
    rw [held]
    refine before.trans ?_
    rw [queued, Nat.add_right_comm]
    exact (Nat.add_assoc _ _ _).symm
  · intro other member
    rcases mem_invokeAction member with old | rfl
    · exact account.constant other old
    · exact fun _ => rfl
  · intro other member
    rcases mem_invokeAction member with old | rfl
    · exact account.due other old
    · exact due
  · intro other member
    rcases mem_invokeAction member with old | rfl
    · exact account.least other old
    · intro queued present
      rcases List.mem_map.mp present with ⟨ref, inside, rfl⟩
      exact least ref inside
  · apply forall_append_singleton
    · intro position entry present isAt ref member alsoAt same earlier
      rcases account.ordered position entry present isAt ref member alsoAt same earlier with
        ⟨first, before, less, located, equal⟩
      refine ⟨first, before, less, ?_, equal⟩
      exact (List.getElem?_append_left (List.getElem?_eq_some_iff.mp located).1).trans located
    · intro isAt ref member alsoAt same earlier
      have absent := sound.overtaken taken alsoAt isAt same earlier
      rcases account.logged_of_absent member alsoAt absent with ⟨first, before, located, equal⟩
      have inside := (List.getElem?_eq_some_iff.mp located).1
      exact ⟨first, before, inside, (List.getElem?_append_left inside).trans located, equal⟩
  · intro other member
    rcases mem_invokeAction member with old | rfl
    · exact account.ticks other old
    · exact Nat.le_refl _
  · intro tick
    have before := account.paced tick
    rw [State.drained_invokeAction]
    split
    · rename_i same
      rw [← same]
      refine Nat.succ_le_of_lt ?_
      exact lt_of_eq_of_lt count room
    · exact before
  · rintro execution ⟨⟩
    refine (State.drained_invokeAction _ root processed now state.tick).trans ?_
    rw [if_pos rfl]
    exact congrArg (· + 1) count

theorem Account.drainLoop {state : State} (account : Account state) (sound : Sound state)
    (free : state.executing = none) {processed : Nat} (count : state.drained state.tick = processed)
    (env : DrainEnv) : Account (drainLoop state processed env) := by
  rcases drainLoop_cases state processed env with
    ⟨aborted, left⟩ | ⟨now, root, popped, -, taken, due, room, invoked⟩
  · rw [left]
    exact account.frame ⟨false, leaveDrain_timerOnly state aborted env⟩
  · rw [invoked]
    exact account.invokeAction sound free count taken due room

/-- When an action ends, a daily task is held once less. -/
theorem State.held_ended {state : State} {execution : Execution}
    (executing : state.executing = some execution) (ref : Ref) :
    state.held ref = State.held { state with executing := none } ref +
      if execution.task = ref ∧ (state.tasks ref).kind = .daily then 1 else 0 := by
  unfold State.held State.invoked
  dsimp only
  rw [executing]
  cases (state.tasks ref).kind with
  | «at» => simp only [reduceCtorEq, and_false, if_false, Nat.add_zero]
  | daily => simp only [Option.map_some, Option.some.injEq, Option.map_none, reduceCtorEq, if_false,
      and_true, Nat.zero_add]

/-- A task for one moment is done with when its action ends. -/
theorem Account.ended {state : State} (account : Account state) {execution : Execution}
    (executing : state.executing = some execution)
    (isAt : (state.tasks execution.task).kind = .at) :
    Account { state with executing := none } := by
  refine ⟨account.unique, account.bounded, account.logged, ?_, account.constant, account.due,
    account.least, account.ordered, account.ticks, account.paced, ?_⟩
  · intro ref
    have before := account.balance ref
    rw [State.held_ended executing ref, if_neg, Nat.add_zero] at before
    · exact before
    · rintro ⟨rfl, isDaily⟩
      cases isAt.symm.trans isDaily
  · rintro other ⟨⟩

/-- A daily task goes back into the queue. -/
theorem Account.requeued {state : State} (account : Account state) {execution : Execution}
    (executing : state.executing = some execution)
    (isDaily : (state.tasks execution.task).kind = .daily) (deadline : Rat) :
    Account (heapPush (renewTask { state with executing := none } execution.task deadline)
      execution.task) := by
  have others : forall ref, (state.tasks ref).kind = .at ->
      (renewTask { state with executing := none } execution.task deadline).tasks ref =
        state.tasks ref := by
    intro ref isAt
    apply renewTask_other
    rintro rfl
    cases isDaily.symm.trans isAt
  have kinds := fun ref => renewTask_kind { state with executing := none } execution.task ref deadline
  constructor
  · exact account.unique
  · exact account.bounded
  · exact account.logged
  · intro ref
    have before := account.balance ref
    have queued := (heapPush_perm (renewTask { state with executing := none } execution.task deadline)
      execution.task).count_eq ref
    have held : State.held (heapPush (renewTask { state with executing := none } execution.task
        deadline) execution.task) ref = State.held { state with executing := none } ref :=
      State.held_congr (kinds ref) rfl rfl
    rw [State.held_ended executing ref] at before
    rw [held, queued, List.count_cons]
    refine before.trans ?_
    by_cases same : execution.task = ref
    · rw [if_pos ⟨same, same ▸ isDaily⟩, if_pos (beq_iff_eq.mpr same)]
      exact (Nat.add_right_comm _ _ _).trans (Nat.add_assoc _ _ _)
    · rw [if_neg (fun both => same both.1), if_neg (fun equal => same (beq_iff_eq.mp equal))]
      rfl
  · intro invocation member isAt
    have before : (state.tasks invocation.task).kind = .at := (kinds invocation.task).symm.trans isAt
    refine (account.constant invocation member before).trans ?_
    exact congrArg Task.deadline (others invocation.task before).symm
  · exact account.due
  · exact account.least
  · intro position invocation present isAt ref member alsoAt same earlier
    have first : (state.tasks invocation.task).kind = .at := (kinds invocation.task).symm.trans isAt
    have second : (state.tasks ref).kind = .at := (kinds ref).symm.trans alsoAt
    apply account.ordered position invocation present first ref member second _ earlier
    rw [← others invocation.task first, ← others ref second]
    exact same
  · exact account.ticks
  · exact account.paced
  · rintro other ⟨⟩

theorem requeue_succeeds {state : State} {ref : Ref} {env : DrainEnv}
    (isDaily : (state.tasks ref).kind = .daily)
    (specified : (state.tasks ref).dailySpec.isSome = true)
    (reads : readsDaily env (state.tasks ref) = true) :
    Exists fun deadline => requeue state ref env = (heapPush (renewTask state ref deadline) ref, none) := by
  rcases Option.isSome_iff_exists.mp specified with ⟨spec, given⟩
  unfold readsDaily at reads
  unfold requeue
  rw [isDaily, given] at reads
  cases reading : env.dailyNow with
  | none =>
      rw [reading] at reads
      cases reads
  | some now =>
      rw [reading] at reads
      simp only at reads
      dsimp only
      rw [given]
      cases result : nextDailyDeadline env.calendar spec now with
      | error error =>
          rw [result] at reads
          cases reads
      | ok deadline =>
          simp only [Option.map_some, result]
          exact ⟨deadline, rfl⟩

theorem Account.finishAction {state : State} (account : Account state) (sound : Sound state)
    {execution : Execution} (executing : state.executing = some execution) (raised : Option String)
    {env : DrainEnv} (reads : readsDaily env (state.tasks execution.task) = true) :
    Account (finishAction state execution raised env) := by
  have apart := sound.apart execution executing
  have count := account.progress execution executing
  unfold Scheduler.finishAction
  dsimp only [reportError]
  split
  · rename_i isAt
    exact (account.ended executing isAt).drainLoop sound.ended rfl count env
  · rename_i isDaily
    rcases @requeue_succeeds { state with executing := none } execution.task env isDaily
      (sound.specified execution.task apart.2 isDaily) reads with ⟨deadline, queued⟩
    rw [queued]
    exact (account.requeued executing isDaily deadline).drainLoop
      (sound.ended.requeued apart.1 apart.2 isDaily rfl deadline) rfl count env

theorem Account.onTimer {state : State} (account : Account state) (sound : Sound state)
    (env : DrainEnv) : Account (onTimer state env) := by
  unfold Scheduler.onTimer
  split
  · exact account
  · rename_i outside
    have free := sound.idle (Bool.not_eq_true _ ▸ outside)
    have begun : Account (beginDrain state) := by
      refine ⟨account.unique, account.bounded, account.logged, account.balance, account.constant,
        account.due, account.least, account.ordered, ?_, account.paced, ?_⟩
      · exact fun invocation member => Nat.le_succ_of_le (account.ticks invocation member)
      · intro execution executing
        cases free.symm.trans executing
    have sound' : Sound (beginDrain state) :=
      sound.congr rfl rfl rfl rfl sound.apart fun _ => free
    have untouched : (beginDrain state).drained (beginDrain state).tick = 0 := by
      unfold State.drained
      rw [List.countP_eq_zero]
      intro invocation member same
      have before := account.ticks invocation member
      have now := of_decide_eq_true same
      simp only [beginDrain] at now
      omega
    exact begun.drainLoop sound' free untouched env

theorem step_account {state next : State} {action : Action} (sound : Sound state)
    (account : Account state) (reads : Reads state action) (moved : step state action = some next) :
    Account next := by
  cases action with
  | register request env =>
      cases moved
      exact account.enrolled sound (register_enrolled sound request env)
  | timer env =>
      cases moved
      exact account.onTimer sound env
  | finish raised env =>
      rcases Option.map_eq_some_iff.mp moved with ⟨execution, executing, rfl⟩
      have served := reads.2
      rw [executing] at served
      exact account.finishAction sound executing raised served

theorem loaded_account : Account .loaded where
  unique := List.nodup_nil
  bounded := fun _ impossible => absurd impossible List.not_mem_nil
  logged := fun _ impossible => absurd impossible List.not_mem_nil
  balance := fun _ => rfl
  constant := fun _ impossible => absurd impossible List.not_mem_nil
  due := fun _ impossible => absurd impossible List.not_mem_nil
  least := fun _ impossible => absurd impossible List.not_mem_nil
  ordered := by
    intro position invocation impossible
    cases impossible
  ticks := fun _ impossible => absurd impossible List.not_mem_nil
  paced := fun _ => Nat.zero_le _
  progress := by
    rintro execution ⟨⟩

theorem reachable_account {state : State} (reachable : (machine.restrict Reads).Reachable state) :
    Account state := by
  apply Machine.Reachable.induction _ _ reachable
  · rintro start rfl
    exact loaded_account
  · intro current action next reached account moved
    rcases Machine.restrict_step_eq_some moved with ⟨reads, taken⟩
    exact step_account (reachable_sound reached.of_restrict) account reads taken

/-! ## The promises of the scheduler -/

def State.isAt (state : State) (ref : Ref) : Bool :=
  (state.tasks ref).kind = .at

/-- What the log and the queue of a state show. -/
structure Executed (state : State) : Prop where
  once : forall ref, state.isAt ref = true -> state.invoked.count ref ≤ 1
  due : forall invocation, invocation ∈ state.invocations -> invocation.deadline ≤ invocation.now ∧
    (state.isAt invocation.task = true ->
      invocation.deadline = (state.tasks invocation.task).deadline)
  least : forall invocation, invocation ∈ state.invocations ->
    forall other, other ∈ invocation.others ->
      toLex (invocation.deadline, invocation.sequence) < other
  ordered : forall (position : Nat) invocation, state.invocations[position]? = some invocation ->
    Preceded state.tasks state.registered state.invocations position invocation
  paced : forall tick, state.drained tick ≤ maxTasksPerTick
  balance : (state.registered.filter state.isAt).length =
    (state.invoked.filter state.isAt).length + (state.heap.slots.filter state.isAt).length
  dailies : state.executing = none -> forall ref, ref ∈ state.registered ->
    state.isAt ref = false -> state.heap.slots.count ref = 1

theorem Account.held_at {state : State} {ref : Ref} (isAt : state.isAt ref = true) :
    state.held ref = state.invoked.count ref := by
  unfold State.held
  rw [of_decide_eq_true isAt]

theorem Account.perm_at {state : State} (account : Account state) :
    (state.registered.filter state.isAt).Perm
      (state.invoked.filter state.isAt ++ state.heap.slots.filter state.isAt) := by
  rw [List.perm_iff_count]
  intro ref
  rw [List.count_append]
  by_cases isAt : state.isAt ref = true
  · rw [List.count_filter isAt, List.count_filter isAt, List.count_filter isAt, account.balance,
      Account.held_at isAt]
  · have absent : forall refs : List Ref, (refs.filter state.isAt).count ref = 0 := by
      intro refs
      rw [List.count_eq_zero]
      exact fun member => isAt (List.mem_filter.mp member).2
    rw [absent, absent, absent]

theorem Account.executed {state : State} (account : Account state) : Executed state := by
  have once : forall ref, ref ∈ state.registered -> state.registered.count ref = 1 :=
    fun ref member => List.count_eq_one_of_mem account.unique member
  constructor
  · intro ref isAt
    have balance := account.balance ref
    rw [Account.held_at isAt] at balance
    have atMost := List.nodup_iff_count_le_one.mp account.unique ref
    omega
  · intro invocation member
    exact ⟨account.due invocation member, fun isAt =>
      account.constant invocation member (of_decide_eq_true isAt)⟩
  · exact account.least
  · exact account.ordered
  · exact account.paced
  · have lengths := account.perm_at.length_eq
    rw [List.length_append] at lengths
    exact lengths
  · intro free ref member isDaily
    have balance := account.balance ref
    have unheld : state.held ref = 0 := by
      unfold State.held
      rw [free]
      cases kind : (state.tasks ref).kind with
      | «at» => simp only [State.isAt, kind, decide_true, Bool.true_eq_false] at isDaily
      | daily => rfl
    rw [unheld, once ref member] at balance
    omega

/-- The clock reading at the head of the loop. -/
def Action.reading : Action -> Option Rat
  | .register _ _ => none
  | .timer env | .finish _ env => env.now

/-- A step invokes nothing, or one task, which it notes as it was: with the
reading just taken and with the queue that is left. -/
def Noted (action : Action) (state next : State) : Prop :=
  next.invocations = state.invocations ∨
    Exists fun invocation => next.invocations = state.invocations ++ [invocation] ∧
      action.reading = some invocation.now ∧
      next.executing.map Execution.task = some invocation.task ∧
      invocation.deadline = (next.tasks invocation.task).deadline ∧
      invocation.sequence = (next.tasks invocation.task).sequence ∧
      invocation.others = next.heap.slots.map (key next.tasks) ∧ invocation.tick = next.tick

theorem TimerOnly.invocations {state next : State} (only : TimerOnly state next) :
    next.invocations = state.invocations := by
  rcases only with ⟨_, _, _, _, rfl⟩
  rfl

theorem drainLoop_noted {action : Action} {state first : State} {processed : Nat} {env : DrainEnv}
    (reading : action.reading = env.now) (same : first.invocations = state.invocations) :
    Noted action state (drainLoop first processed env) := by
  rcases drainLoop_cases first processed env with
    ⟨aborted, left⟩ | ⟨now, root, popped, taken, pops, -, -, invoked⟩
  · rw [left]
    exact Or.inl ((leaveDrain_timerOnly first aborted env).invocations.trans same)
  · rcases Option.map_eq_some_iff.mp pops with ⟨⟨top, heap⟩, -, equal⟩
    obtain ⟨rfl, rfl⟩ := Prod.mk.inj equal
    rw [invoked]
    refine Or.inr ⟨⟨top, (first.tasks top).deadline, (first.tasks top).sequence, now, first.tick,
      heap.slots.map (key first.tasks)⟩, ?_, ?_, rfl, rfl, rfl, rfl, rfl⟩
    · exact congrArg (· ++ _) same
    · exact reading.trans taken

theorem step_noted {state next : State} {action : Action} (sound : Sound state)
    (moved : step state action = some next) : Noted action state next := by
  cases action with
  | register request env =>
      cases moved
      refine Or.inl ?_
      cases register_enrolled sound request env with
      | refused only => exact only.invocations
      | undone deadline kind spec heap specified valid perm only => exact only.invocations
      | done deadline kind spec specified only => exact only.invocations
  | timer env =>
      cases moved
      unfold onTimer
      split
      · exact Or.inl rfl
      · exact drainLoop_noted rfl rfl
  | finish raised env =>
      rcases Option.map_eq_some_iff.mp moved with ⟨execution, executing, rfl⟩
      unfold finishAction
      dsimp only [reportError]
      split
      · exact drainLoop_noted rfl rfl
      · rcases requeue_cases { state with executing := none } execution.task env with
          ⟨error, failed⟩ | ⟨deadline, queued⟩
        · rw [failed]
          exact Or.inl (leaveDrain_timerOnly _ _ env).invocations
        · rw [queued]
          exact drainLoop_noted rfl rfl

/-- Whatever is registered when, however the clock jumps and whichever actions
raise: no task for one moment is invoked twice or early, every task invoked is
the least in the queue, no drain invokes more than its share, nothing
registered is lost, and an action that raises is like one that returns. -/
theorem scheduler_executes {state : State} (reachable : (machine.restrict Reads).Reachable state) :
    Executed state ∧
    (forall action next, machine.step state action = some next -> Noted action state next) ∧
    (forall raised env, machine.step state (.finish raised env) =
      machine.step state (.finish none env)) := by
  refine ⟨(reachable_account reachable).executed, ?_, ?_⟩
  · intro action next moved
    exact step_noted (reachable_sound reachable.of_restrict) moved
  · intro raised env
    rfl

/-- A day is a hundred seconds long and has no hours. -/
def toyCalendar : Calendar where
  date := fun second => some ⟨0, 0, second / 100⟩
  time := fun date spec => some (date.day * 100 + spec.second)

/-- Two tasks for the same moment and a daily one come due; the first of them
raises after it has registered another that is overdue. -/
def crowdedTick : List Action :=
  let calm : ArmEnv := ⟨⟨none, .usable, none⟩, some 0, true, true⟩
  let late : DrainEnv := ⟨some 9000, toyCalendar, some 9000, calm⟩
  let quiet : RegisterEnv := ⟨some 0, toyCalendar, none, .function, calm.timer, calm⟩
  [.register (.at 5000) quiet, .register (.daily ⟨0, 0, 7⟩) quiet, .register (.at 5000) quiet,
    .timer late, .register (.at 1) quiet, .timer late, .finish (some "error") late,
    .finish none late, .finish none late, .finish none late]

theorem scheduler_executes_crowded :
    Exists fun state => (machine.restrict Reads).Reachable state ∧
      state.invoked = [0, 3, 2, 1] ∧ state.heap.slots = [1] ∧
      (state.tasks 1).deadline = 107000 ∧ state.executing = none ∧
      (state.registered.filter state.isAt).length =
        (state.invoked.filter state.isAt).length + (state.heap.slots.filter state.isAt).length := by
  have ends : (((machine.restrict Reads).run .loaded crowdedTick).any fun state => decide
      (state.invoked = [0, 3, 2, 1] ∧ state.heap.slots = [1] ∧
        (state.tasks 1).deadline = 107000 ∧ state.executing = none)) = true := by
    decide +kernel
  rcases (machine.restrict Reads).exists_reachable rfl ends with
    ⟨state, reachable, invoked, queued, renewed, free⟩
  exact ⟨state, reachable, invoked, queued, renewed, free, (scheduler_executes reachable).1.balance⟩

end Scheduler
end ServiceRuntime
