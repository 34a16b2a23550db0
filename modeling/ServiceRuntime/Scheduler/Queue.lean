import ServiceRuntime.Scheduler.Machine

namespace ServiceRuntime
namespace Scheduler

open Foundation

/-!
# The queue of the scheduler

The heap holds tasks with different sequence numbers, so that its root is the
one least task; a task that is executing is not in the heap.  This holds in
every run, whatever fails.
-/

theorem taskBefore_iff (tasks : Ref -> Task) (left right : Ref) :
    taskBefore tasks left right = true <-> key tasks left < key tasks right := by
  unfold taskBefore key
  simp only [Bool.or_eq_true, Bool.and_eq_true, decide_eq_true_eq, Prod.Lex.toLex_lt_toLex]

/-- The step concerns the timer only. -/
def TimerOnly (state next : State) : Prop :=
  Exists fun timer => Exists fun timerArmed => Exists fun pending => Exists fun timersCreated =>
    next = { state with timer, timerArmed, pending, timersCreated }

theorem TimerOnly.refl (state : State) : TimerOnly state state :=
  ⟨_, _, _, _, rfl⟩

theorem TimerOnly.trans {first second third : State} (before : TimerOnly first second)
    (after : TimerOnly second third) : TimerOnly first third := by
  rcases before with ⟨_, _, _, _, rfl⟩
  rcases after with ⟨_, _, _, _, rfl⟩
  exact ⟨_, _, _, _, rfl⟩

theorem ensureTimer_timerOnly (state : State) (env : TimerEnv) :
    TimerOnly state (ensureTimer state env).1 := by
  unfold ensureTimer
  split
  · exact .refl state
  · split
    · split <;> exact .refl state
    · split
      · exact .refl state
      · exact ⟨_, _, _, _, rfl⟩

theorem stopTimer_timerOnly (state : State) (stops : Bool) :
    TimerOnly state (stopTimer state stops).1 := by
  unfold stopTimer
  split
  · split
    · exact ⟨_, _, _, _, rfl⟩
    · exact .refl state
  · exact ⟨_, _, _, _, rfl⟩

theorem armTimer_timerOnly (state : State) (env : ArmEnv) :
    TimerOnly state (armTimer state env).1 := by
  unfold armTimer
  split
  · exact stopTimer_timerOnly state env.stops
  · have ensured := ensureTimer_timerOnly state env.timer
    split
    · rename_i ready error result
      rw [result] at ensured
      exact ensured
    · rename_i ready result
      rw [result] at ensured
      split
      · exact ensured
      · have stopped : TimerOnly ready
            (if ready.timerArmed then stopTimer ready env.stops else (ready, none)).1 := by
          split
          · exact stopTimer_timerOnly ready env.stops
          · exact .refl ready
        split
        · rename_i halted error outcome
          rw [outcome] at stopped
          exact ensured.trans stopped
        · rename_i halted outcome
          rw [outcome] at stopped
          split
          · exact (ensured.trans stopped).trans ⟨_, _, _, _, rfl⟩
          · exact ensured.trans stopped

/-- Leaving the drain ends it and then concerns the timer only. -/
theorem leaveDrain_timerOnly (state : State) (aborted : Option String) (env : DrainEnv) :
    TimerOnly { state with draining := false } (leaveDrain state aborted env) :=
  armTimer_timerOnly { state with draining := false } env.arm

/-! ## Sound queues -/

/-- The heap is in order, knows only tasks that exist, and no two tasks in it
share a sequence number; tasks registered with `at` keep the sequence number of
their registration. -/
structure Sound (state : State) : Prop where
  valid : state.heap.Valid (key state.tasks)
  known : forall ref, ref ∈ state.heap.slots -> ref < state.created
  numbered : forall ref, ref < state.created -> (state.tasks ref).sequence ≤ state.sequence
  distinct : forall one other, one ∈ state.heap.slots -> other ∈ state.heap.slots ->
    (state.tasks one).sequence = (state.tasks other).sequence -> one = other
  ascending : forall one other, one < other -> other < state.created ->
    (state.tasks one).kind = .at -> (state.tasks other).kind = .at ->
    (state.tasks one).sequence < (state.tasks other).sequence
  specified : forall ref, ref < state.created -> (state.tasks ref).kind = .daily ->
    (state.tasks ref).dailySpec.isSome = true
  apart : forall execution, state.executing = some execution ->
    execution.task ∉ state.heap.slots ∧ execution.task < state.created
  idle : state.draining = false -> state.executing = none

/-- Soundness only depends on the queue and on who executes. -/
theorem Sound.congr {state next : State} (sound : Sound state) (tasks : next.tasks = state.tasks)
    (created : next.created = state.created) (heap : next.heap = state.heap)
    (sequence : next.sequence = state.sequence)
    (executing : forall execution, next.executing = some execution ->
      execution.task ∉ state.heap.slots ∧ execution.task < state.created)
    (idle : next.draining = false -> next.executing = none) : Sound next := by
  constructor
  · rw [heap, tasks]
    exact sound.valid
  · rw [heap, created]
    exact sound.known
  · rw [tasks, created, sequence]
    exact sound.numbered
  · rw [heap, tasks]
    exact sound.distinct
  · rw [tasks, created]
    exact sound.ascending
  · rw [tasks, created]
    exact sound.specified
  · rw [heap, created]
    exact executing
  · exact idle

theorem TimerOnly.sound {state next : State} (only : TimerOnly state next) (sound : Sound state) :
    Sound next := by
  rcases only with ⟨_, _, _, _, rfl⟩
  exact sound.congr rfl rfl rfl rfl sound.apart sound.idle

theorem key_of_eq {tasks others : Ref -> Task} {ref : Ref} (same : others ref = tasks ref) :
    key others ref = key tasks ref := by
  unfold key
  rw [same]

theorem newTask_other (state : State) (deadline : Rat) (kind : Kind) (spec : Option DailySpec)
    {ref : Ref} (old : ref < state.created) :
    (newTask state deadline kind spec).tasks ref = state.tasks ref :=
  Function.update_of_ne (Nat.ne_of_lt old) _ _

theorem newTask_self (state : State) (deadline : Rat) (kind : Kind) (spec : Option DailySpec) :
    (newTask state deadline kind spec).tasks state.created =
      ⟨deadline, state.sequence + 1, kind, spec⟩ :=
  Function.update_self _ _ _

/-- A new task table is not in the queue yet. -/
theorem Sound.newTask {state : State} (sound : Sound state) (deadline : Rat) {kind : Kind}
    {spec : Option DailySpec} (specified : kind = .daily -> spec.isSome = true) :
    Sound (newTask state deadline kind spec) := by
  have older : forall ref, ref < state.created ->
      (Scheduler.newTask state deadline kind spec).tasks ref = state.tasks ref :=
    fun ref old => newTask_other state deadline kind spec old
  have newest := newTask_self state deadline kind spec
  constructor
  · exact sound.valid.congr fun ref member => key_of_eq (older ref (sound.known ref member))
  · exact fun ref member => Nat.lt_succ_of_lt (sound.known ref member)
  · intro ref below
    rcases Nat.lt_succ_iff_lt_or_eq.mp below with old | rfl
    · rw [older ref old]
      exact Nat.le_succ_of_le (sound.numbered ref old)
    · rw [newest]
      exact Nat.le_refl _
  · intro one other first second
    rw [older one (sound.known one first), older other (sound.known other second)]
    exact sound.distinct one other first second
  · intro one other less below isAt alsoAt
    have old : one < state.created := Nat.lt_of_lt_of_le less (Nat.le_of_lt_succ below)
    rw [older one old] at isAt ⊢
    rcases Nat.lt_succ_iff_lt_or_eq.mp below with known | rfl
    · rw [older other known] at alsoAt ⊢
      exact sound.ascending one other less known isAt alsoAt
    · rw [newest]
      exact Nat.lt_succ_of_le (sound.numbered one old)
  · intro ref below isDaily
    rcases Nat.lt_succ_iff_lt_or_eq.mp below with old | rfl
    · rw [older ref old] at isDaily ⊢
      exact sound.specified ref old isDaily
    · rw [newest] at isDaily ⊢
      exact specified isDaily
  · intro execution executing
    have apart := sound.apart execution executing
    exact ⟨apart.1, Nat.lt_succ_of_lt apart.2⟩
  · exact sound.idle

theorem heapPush_perm (state : State) (ref : Ref) :
    (heapPush state ref).heap.slots.Perm (ref :: state.heap.slots) :=
  Heap.push_perm _ _ _

/-- A task with the newest sequence number may enter the queue. -/
theorem Sound.heapPush {state : State} (sound : Sound state) {ref : Ref}
    (absent : ref ∉ state.heap.slots) (exists_ref : ref < state.created)
    (newest : forall other, other ∈ state.heap.slots ->
      (state.tasks other).sequence < (state.tasks ref).sequence)
    (waits : forall execution, state.executing = some execution -> execution.task ≠ ref) :
    Sound (heapPush state ref) := by
  have members : forall other, other ∈ (Scheduler.heapPush state ref).heap.slots ->
      other = ref ∨ other ∈ state.heap.slots := by
    intro other member
    exact List.mem_cons.mp ((heapPush_perm state ref).mem_iff.mp member)
  constructor
  · exact sound.valid.push (taskBefore_iff state.tasks) absent
  · intro other member
    rcases members other member with rfl | old
    · exact exists_ref
    · exact sound.known other old
  · exact sound.numbered
  · intro one other first second same
    rcases members one first with rfl | oldOne
    · rcases members other second with rfl | oldOther
      · rfl
      · exact absurd same (Nat.ne_of_gt (newest other oldOther))
    · rcases members other second with rfl | oldOther
      · exact absurd same (Nat.ne_of_lt (newest one oldOne))
      · exact sound.distinct one other oldOne oldOther same
  · exact sound.ascending
  · exact sound.specified
  · intro execution executing
    have apart := sound.apart execution executing
    refine ⟨?_, apart.2⟩
    intro member
    rcases members execution.task member with same | old
    · exact waits execution executing same
    · exact apart.1 old
  · exact sound.idle

/-- A queue that has lost tasks is still sound. -/
theorem Sound.shrink {state : State} (sound : Sound state) {heap : Heap Ref}
    (valid : heap.Valid (key state.tasks))
    (fewer : forall ref, ref ∈ heap.slots -> ref ∈ state.heap.slots) :
    Sound { state with heap } := by
  constructor
  · exact valid
  · exact fun ref member => sound.known ref (fewer ref member)
  · exact sound.numbered
  · exact fun one other first second => sound.distinct one other (fewer one first) (fewer other second)
  · exact sound.ascending
  · exact sound.specified
  · intro execution executing
    have apart := sound.apart execution executing
    exact ⟨fun member => apart.1 (fewer _ member), apart.2⟩
  · exact sound.idle

/-- The root of the queue is its one least task. -/
theorem Sound.heapPop {state popped : State} {root : Ref} (sound : Sound state)
    (taken : heapPop state = some (root, popped)) :
    Sound popped ∧ state.heap.slots.Perm (root :: popped.heap.slots) ∧
      (Exists fun heap => popped = { state with heap }) ∧ state.heap.entry 1 = some root ∧
      root ∉ popped.heap.slots ∧
      forall other, other ∈ popped.heap.slots -> key state.tasks root < key state.tasks other := by
  rcases Option.map_eq_some_iff.mp taken with ⟨⟨first, heap⟩, result, equal⟩
  obtain ⟨rfl, rfl⟩ := Prod.mk.inj equal
  rcases sound.valid.pop (taskBefore_iff state.tasks) result with ⟨valid, perm, atRoot⟩
  have fewer : forall ref, ref ∈ heap.slots -> ref ∈ state.heap.slots :=
    fun ref member => perm.mem_iff.mpr (List.mem_cons_of_mem first member)
  have gone : first ∉ heap.slots :=
    (List.nodup_cons.mp (perm.nodup_iff.mp sound.valid.indexed.nodup)).1
  refine ⟨sound.shrink valid fewer, perm, ⟨heap, rfl⟩, atRoot, gone, ?_⟩
  intro other member
  have below := sound.valid.least atRoot (fewer other member)
  refine lt_of_le_of_ne below ?_
  intro same
  have sequences : (state.tasks first).sequence = (state.tasks other).sequence :=
    congrArg (fun pair => (ofLex pair).2) same
  have equal := sound.distinct first other (Heap.mem_slots_iff.mpr ⟨1, atRoot⟩)
    (fewer other member) sequences
  exact gone (equal ▸ member)

/-! ## What a registration does to the queue -/

/-- A registration is refused before it has made a task, is undone, or leaves
one new task in the queue. -/
inductive Enrolled (state next : State) : Prop where
  | refused (only : TimerOnly state next)
  | undone (deadline : Rat) (kind : Kind) (spec : Option DailySpec) (heap : Heap Ref)
      (specified : kind = .daily -> spec.isSome = true)
      (valid : heap.Valid (key (newTask state deadline kind spec).tasks))
      (perm : heap.slots.Perm state.heap.slots)
      (only : TimerOnly { newTask state deadline kind spec with heap } next)
  | done (deadline : Rat) (kind : Kind) (spec : Option DailySpec)
      (specified : kind = .daily -> spec.isSome = true)
      (only : TimerOnly
        { heapPush (newTask state deadline kind spec) state.created with
          registered := state.registered ++ [state.created] } next)

/-- Taking the task just pushed out again gives the old queue back. -/
theorem heapRemove_undoes {state : State} {ref : Ref} (sound : Sound (heapPush state ref)) :
    Exists fun heap => heapRemove (heapPush state ref) ref = { state with heap } ∧
      heap.Valid (key state.tasks) ∧ heap.slots.Perm state.heap.slots := by
  have member : ref ∈ (heapPush state ref).heap.slots :=
    (heapPush_perm state ref).mem_iff.mpr List.mem_cons_self
  rcases sound.valid.remove_isSome member with ⟨rest, removed⟩
  rcases sound.valid.remove (taskBefore_iff state.tasks) removed with ⟨valid, perm⟩
  refine ⟨rest, ?_, valid, ?_⟩
  · unfold heapRemove
    rw [show (heapPush state ref).heap.remove (taskBefore (heapPush state ref).tasks) ref = some rest
      from removed]
    rfl
  · exact (perm.symm.trans (heapPush_perm state ref)).cons_inv

theorem TimerOnly.heapPush {state next : State} (only : TimerOnly state next) (ref : Ref) :
    TimerOnly (heapPush state ref) (heapPush next ref) := by
  rcases only with ⟨_, _, _, _, rfl⟩
  exact ⟨_, _, _, _, rfl⟩

theorem TimerOnly.heapRemove {state next : State} (only : TimerOnly state next) (ref : Ref) :
    TimerOnly (heapRemove state ref) (heapRemove next ref) := by
  rcases only with ⟨_, _, _, _, rfl⟩
  exact ⟨_, _, _, _, rfl⟩

theorem TimerOnly.registered {state next : State} (only : TimerOnly state next) (ref : Ref) :
    TimerOnly { state with registered := state.registered ++ [ref] }
      { next with registered := next.registered ++ [ref] } := by
  rcases only with ⟨_, _, _, _, rfl⟩
  exact ⟨_, _, _, _, rfl⟩

/-- The new task in the queue. -/
theorem Sound.enroll {state : State} (sound : Sound state) (deadline : Rat) {kind : Kind}
    {spec : Option DailySpec} (specified : kind = .daily -> spec.isSome = true) :
    Sound (Scheduler.heapPush (Scheduler.newTask state deadline kind spec) state.created) := by
  apply (sound.newTask deadline specified).heapPush
  · exact fun member => absurd (sound.known _ member) (Nat.lt_irrefl _)
  · exact Nat.lt_succ_self _
  · intro other member
    have old := sound.known other member
    rw [newTask_other state deadline kind spec old, newTask_self]
    exact Nat.lt_succ_of_le (sound.numbered other old)
  · intro execution executing
    exact Nat.ne_of_lt (sound.apart execution executing).2

theorem enqueueTask_enrolled {state ready : State} (sound : Sound state) {deadline : Rat}
    {kind : Kind} {spec : Option DailySpec} (specified : kind = .daily -> spec.isSome = true)
    (only : TimerOnly (newTask state deadline kind spec) ready) (env : RegisterEnv) :
    Enrolled state (enqueueTask ready state.created env).1 := by
  have queued := only.heapPush state.created
  unfold enqueueTask
  dsimp only
  split
  · exact .done deadline kind spec specified (queued.registered state.created)
  · have armed := queued.trans (armTimer_timerOnly (heapPush ready state.created) env.arm)
    split
    · rename_i final result
      rw [result] at armed
      exact .done deadline kind spec specified (armed.registered state.created)
    · rename_i final error result
      rw [result] at armed
      rcases heapRemove_undoes (sound.enroll deadline specified) with ⟨heap, removed, valid, perm⟩
      have undone := armed.heapRemove state.created
      rw [removed] at undone
      apply Enrolled.undone deadline kind spec heap specified valid perm
      split
      · exact undone.trans (stopTimer_timerOnly _ _)
      · exact undone

theorem enqueue_enrolled {state : State} (sound : Sound state) (deadline : Rat) {kind : Kind}
    {spec : Option DailySpec} (specified : kind = .daily -> spec.isSome = true)
    (env : RegisterEnv) : Enrolled state (enqueue state deadline kind spec env).1 := by
  unfold enqueue
  split
  · exact .refused (.refl state)
  · exact .refused (.refl state)
  · exact .refused (.refl state)
  · have ensured := ensureTimer_timerOnly (newTask state deadline kind spec) env.timer
    split
    · rename_i ready error result
      rw [result] at ensured
      have fresh := sound.newTask deadline specified
      exact .undone deadline kind spec state.heap specified fresh.valid (List.Perm.refl _) ensured
    · rename_i ready result
      rw [result] at ensured
      exact enqueueTask_enrolled sound specified ensured env

theorem register_enrolled {state : State} (sound : Sound state) (request : Registration)
    (env : RegisterEnv) : Enrolled state (register state request env).1 := by
  unfold register
  split
  · exact enqueue_enrolled sound _ (fun impossible => by cases impossible) env
  · split
    · exact .refused (.refl state)
    · split
      · exact .refused (.refl state)
      · exact enqueue_enrolled sound _ (fun _ => rfl) env

theorem Enrolled.sound {state next : State} (enrolled : Enrolled state next) (sound : Sound state) :
    Sound next := by
  cases enrolled with
  | refused only => exact only.sound sound
  | undone deadline kind spec heap specified valid perm only =>
      apply only.sound
      exact (sound.newTask deadline specified).shrink valid fun ref member => perm.mem_iff.mp member
  | done deadline kind spec specified only =>
      apply only.sound
      have pushed := sound.enroll deadline specified
      exact pushed.congr rfl rfl rfl rfl pushed.apart pushed.idle

/-! ## What a drain does to the queue -/

/-- The loop is left, or invokes the root of the queue. -/
theorem drainLoop_cases (state : State) (processed : Nat) (env : DrainEnv) :
    (Exists fun aborted => drainLoop state processed env = leaveDrain state aborted env) ∨
    (Exists fun now => Exists fun root => Exists fun popped => env.now = some now ∧
      heapPop state = some (root, popped) ∧ (state.tasks root).deadline ≤ now ∧
      processed < maxTasksPerTick ∧
      drainLoop state processed env = invokeAction popped root processed now) := by
  unfold drainLoop
  split
  · exact Or.inl ⟨_, rfl⟩
  · rename_i now reading
    split
    · rename_i due
      simp only [Bool.and_eq_true, decide_eq_true_eq] at due
      split
      · rename_i root popped taken
        refine Or.inr ⟨now, root, popped, reading, taken, ?_, due.2, rfl⟩
        rcases (Option.any_eq_true _ _).mp due.1 with ⟨top, atRoot, early⟩
        rcases Option.map_eq_some_iff.mp taken with ⟨⟨first, heap⟩, result, equal⟩
        rcases Option.map_eq_some_iff.mp result with ⟨other, present, same⟩
        obtain rfl : top = other := Option.some.inj (atRoot.symm.trans present)
        obtain rfl : top = root := (Prod.mk.inj same).1.trans (Prod.mk.inj equal).1
        exact of_decide_eq_true early
      · exact Or.inl ⟨_, rfl⟩
    · exact Or.inl ⟨_, rfl⟩

theorem Sound.invokeAction {state popped : State} {root : Ref} (sound : Sound state)
    (entered : state.draining = true) (taken : Scheduler.heapPop state = some (root, popped))
    (processed : Nat) (now : Rat) : Sound (invokeAction popped root processed now) := by
  rcases sound.heapPop taken with ⟨after, perm, ⟨heap, rfl⟩, atRoot, gone, -⟩
  refine after.congr rfl rfl rfl rfl ?_ ?_
  · rintro execution ⟨⟩
    exact ⟨gone, sound.known root (Heap.mem_slots_iff.mpr ⟨1, atRoot⟩)⟩
  · intro left
    cases entered.symm.trans left

/-- The drain may end when no action is executing. -/
theorem Sound.leave {state next : State} (sound : Sound state) (free : state.executing = none)
    (only : TimerOnly { state with draining := false } next) : Sound next := by
  have left : Sound { state with draining := false } :=
    sound.congr rfl rfl rfl rfl sound.apart fun _ => free
  exact only.sound left

theorem Sound.drainLoop {state : State} (sound : Sound state) (free : state.executing = none)
    (entered : state.draining = true) (processed : Nat) (env : DrainEnv) :
    Sound (drainLoop state processed env) := by
  rcases drainLoop_cases state processed env with
    ⟨aborted, left⟩ | ⟨now, root, popped, -, taken, -, -, invoked⟩
  · rw [left]
    exact sound.leave free (leaveDrain_timerOnly state aborted env)
  · rw [invoked]
    exact sound.invokeAction entered taken processed now

theorem renewTask_other (state : State) (deadline : Rat) {ref other : Ref} (different : other ≠ ref) :
    (renewTask state ref deadline).tasks other = state.tasks other :=
  Function.update_of_ne different _ _

theorem renewTask_self (state : State) (ref : Ref) (deadline : Rat) :
    (renewTask state ref deadline).tasks ref =
      { state.tasks ref with deadline, sequence := state.sequence + 1 } :=
  Function.update_self _ _ _

theorem renewTask_kind (state : State) (ref other : Ref) (deadline : Rat) :
    ((renewTask state ref deadline).tasks other).kind = (state.tasks other).kind := by
  by_cases same : other = ref
  · rw [same, renewTask_self]
  · rw [renewTask_other state deadline same]

/-- A daily task outside the queue may be renewed and put back. -/
theorem Sound.requeued {state : State} (sound : Sound state) {ref : Ref}
    (absent : ref ∉ state.heap.slots) (exists_ref : ref < state.created)
    (isDaily : (state.tasks ref).kind = .daily) (idle : state.executing = none) (deadline : Rat) :
    Sound (Scheduler.heapPush (renewTask state ref deadline) ref) := by
  have others : forall other, other ∈ state.heap.slots ->
      (renewTask state ref deadline).tasks other = state.tasks other := by
    intro other member
    exact renewTask_other state deadline fun same => absent (same ▸ member)
  have renewed := renewTask_self state ref deadline
  have apartFrom : forall other, ((renewTask state ref deadline).tasks other).kind = .at ->
      other ≠ ref := by
    rintro other isAt rfl
    rw [renewTask_kind, isDaily] at isAt
    cases isAt
  have ready : Sound (renewTask state ref deadline) := by
    constructor
    · exact sound.valid.congr fun other member => key_of_eq (others other member)
    · exact sound.known
    · intro other below
      by_cases same : other = ref
      · rw [same, renewed]
        exact Nat.le_refl _
      · rw [renewTask_other state deadline same]
        exact Nat.le_succ_of_le (sound.numbered other below)
    · intro one other first second
      rw [others one first, others other second]
      exact sound.distinct one other first second
    · intro one other less below isAt alsoAt
      have firstApart := apartFrom one isAt
      have secondApart := apartFrom other alsoAt
      rw [renewTask_other state deadline firstApart] at isAt ⊢
      rw [renewTask_other state deadline secondApart] at alsoAt ⊢
      exact sound.ascending one other less below isAt alsoAt
    · intro other below daily
      by_cases same : other = ref
      · rw [same, renewed]
        exact sound.specified ref exists_ref isDaily
      · rw [renewTask_other state deadline same] at daily ⊢
        exact sound.specified other below daily
    · exact sound.apart
    · exact sound.idle
  apply ready.heapPush absent exists_ref
  · intro other member
    rw [others other member, renewed]
    exact Nat.lt_succ_of_le (sound.numbered other (sound.known other member))
  · intro execution executing
    cases idle.symm.trans executing

/-- A daily task is put back, or the drain is aborted. -/
theorem requeue_cases (state : State) (ref : Ref) (env : DrainEnv) :
    (Exists fun error => requeue state ref env = (state, some error)) ∨
    (Exists fun deadline => requeue state ref env =
      (heapPush (renewTask state ref deadline) ref, none)) := by
  unfold requeue
  split
  · exact Or.inl ⟨_, rfl⟩
  · split
    · exact Or.inl ⟨_, rfl⟩
    · exact Or.inl ⟨_, rfl⟩
    · exact Or.inr ⟨_, rfl⟩

/-- Somebody executes only while the queue is drained. -/
theorem Sound.entered {state : State} (sound : Sound state) {execution : Execution}
    (executing : state.executing = some execution) : state.draining = true := by
  by_contra outside
  have free := sound.idle (Bool.not_eq_true _ ▸ outside)
  cases free.symm.trans executing

theorem Sound.ended {state : State} (sound : Sound state) :
    Sound { state with executing := none } := by
  refine sound.congr rfl rfl rfl rfl ?_ fun _ => rfl
  rintro other ⟨⟩

theorem Sound.finishAction {state : State} (sound : Sound state) {execution : Execution}
    (executing : state.executing = some execution) (raised : Option String) (env : DrainEnv) :
    Sound (finishAction state execution raised env) := by
  have apart := sound.apart execution executing
  have entered := sound.entered executing
  have ended := sound.ended
  unfold Scheduler.finishAction
  dsimp only [reportError]
  split
  · exact ended.drainLoop rfl entered _ env
  · rename_i isDaily
    rcases requeue_cases { state with executing := none } execution.task env with
      ⟨error, failed⟩ | ⟨deadline, queued⟩
    · rw [failed]
      exact ended.leave rfl (leaveDrain_timerOnly _ _ env)
    · rw [queued]
      exact (ended.requeued apart.1 apart.2 isDaily rfl deadline).drainLoop rfl entered _ env

theorem Sound.onTimer {state : State} (sound : Sound state) (env : DrainEnv) :
    Sound (onTimer state env) := by
  unfold Scheduler.onTimer
  split
  · exact sound
  · rename_i outside
    have free := sound.idle (Bool.not_eq_true _ ▸ outside)
    have begun : Sound (beginDrain state) :=
      sound.congr rfl rfl rfl rfl sound.apart fun _ => free
    exact begun.drainLoop free rfl 0 env

theorem step_sound {state next : State} {action : Action} (sound : Sound state)
    (moved : step state action = some next) : Sound next := by
  cases action with
  | register request env =>
      cases moved
      exact (register_enrolled sound request env).sound sound
  | timer env =>
      cases moved
      exact sound.onTimer env
  | finish raised env =>
      rcases Option.map_eq_some_iff.mp moved with ⟨execution, executing, rfl⟩
      exact sound.finishAction executing raised env

theorem loaded_sound : Sound .loaded where
  valid := Heap.valid_empty _
  known := fun _ impossible => absurd impossible List.not_mem_nil
  numbered := fun _ impossible => absurd impossible (Nat.not_lt_zero _)
  distinct := fun _ _ impossible => absurd impossible List.not_mem_nil
  ascending := fun _ _ _ impossible => absurd impossible (Nat.not_lt_zero _)
  specified := fun _ impossible => absurd impossible (Nat.not_lt_zero _)
  apart := by
    rintro execution ⟨⟩
  idle := fun _ => rfl

theorem reachable_sound {state : State} (reachable : machine.Reachable state) : Sound state := by
  apply Machine.Reachable.invariant _ _ reachable
  · rintro start rfl
    exact loaded_sound
  · intro current action next sound moved
    exact step_sound sound moved

end Scheduler
end ServiceRuntime
