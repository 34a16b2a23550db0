import ServiceRuntime.Scheduler.Execution

namespace ServiceRuntime
namespace Scheduler

open Foundation

/-!
# Daily tasks across one tick

`on_timer` takes a daily task out of the queue before its action runs, and puts
it back after it has read the clock and the calendar once more.  Every error of
the loop is swallowed.  When one of these two readings fails, the task has left
the queue for good: nothing else of the loop loses it.
-/

/-- The drain goes on until it is left. -/
inductive Drains : State -> List Action -> State -> Prop
  | returned {state : State} (left : state.draining = false) : Drains state [] state
  | goesOn {state next final : State} {action : Action} {rest : List Action}
      (entered : state.draining = true) (moved : step state action = some next)
      (later : Drains next rest final) : Drains state (action :: rest) final

/-- One call of `on_timer`, from the callback to its return.  A call from
within an action returns at once. -/
inductive Ticks (start : State) (env : DrainEnv) : List Action -> State -> Prop
  | nested (inside : start.draining = true) : Ticks start env [] (onTimer start env)
  | whole {schedule : List Action} {final : State} (outside : start.draining = false)
      (drains : Drains (onTimer start env) schedule final) : Ticks start env schedule final

/-- The clock and the calendar serve the task that has just executed, if it is
one of the watched ones. -/
def Rearms (watched : List Ref) (state : State) : Action -> Prop
  | .register _ _ => True
  | .timer _ => True
  | .finish _ env => (state.executing.all fun execution =>
      !watched.contains execution.task || readsDaily env (state.tasks execution.task)) = true

instance (watched : List Ref) (state : State) (action : Action) :
    Decidable (Rearms watched state action) :=
  match action with
  | .register _ _ => .isTrue trivial
  | .timer _ => .isTrue trivial
  | .finish _ _ => instDecidableEqBool _ _

/-- Where a task is: in the queue or executing. -/
def State.present (state : State) (ref : Ref) : Nat :=
  (if state.executing.map Execution.task = some ref then 1 else 0) + state.heap.slots.count ref

/-- No daily task of the queue at the start is lost. -/
structure Kept (start state : State) : Prop where
  grown : start.created ≤ state.created
  kinds : forall ref, ref < start.created -> (state.tasks ref).kind = (start.tasks ref).kind
  present : forall ref, ref ∈ start.heap.slots -> (start.tasks ref).kind = .daily ->
    state.present ref = 1

theorem Kept.congr {start state next : State} (kept : Kept start state)
    (created : next.created = state.created)
    (kinds : forall ref, (next.tasks ref).kind = (state.tasks ref).kind)
    (present : forall ref, ref ∈ start.heap.slots -> (start.tasks ref).kind = .daily ->
      next.present ref = state.present ref) : Kept start next := by
  constructor
  · rw [created]
    exact kept.grown
  · intro ref below
    rw [kinds ref]
    exact kept.kinds ref below
  · intro ref member isDaily
    rw [present ref member isDaily]
    exact kept.present ref member isDaily

/-- The timer and the end of the drain lose nothing. -/
theorem Kept.frame {start state next : State} (kept : Kept start state)
    (only : Exists fun draining => TimerOnly { state with draining } next) : Kept start next := by
  rcases only with ⟨_, _, _, _, _, rfl⟩
  exact kept.congr rfl (fun _ => rfl) fun _ _ _ => rfl

/-- A registration adds a task or leaves the queue as it was. -/
theorem Kept.enrolled {start state next : State} (kept : Kept start state) (queued : Sound start)
    (enrolled : Enrolled state next) : Kept start next := by
  have older : forall ref, ref < start.created -> forall deadline kind spec,
      (newTask state deadline kind spec).tasks ref = state.tasks ref :=
    fun ref below deadline kind spec =>
      newTask_other state deadline kind spec (Nat.lt_of_lt_of_le below kept.grown)
  cases enrolled with
  | refused only => exact kept.frame ⟨state.draining, only⟩
  | undone deadline kind spec heap specified valid perm only =>
      have undone : Kept start { newTask state deadline kind spec with heap } := by
        constructor
        · exact Nat.le_succ_of_le kept.grown
        · intro ref below
          exact (congrArg Task.kind (older ref below deadline kind spec)).trans
            (kept.kinds ref below)
        · intro ref member isDaily
          have before := kept.present ref member isDaily
          unfold State.present at before ⊢
          show _ + heap.slots.count ref = 1
          rw [perm.count_eq]
          exact before
      exact undone.frame ⟨state.draining, only⟩
  | done deadline kind spec specified only =>
      have pushed : Kept start
          { heapPush (newTask state deadline kind spec) state.created with
            registered := state.registered ++ [state.created] } := by
        constructor
        · exact Nat.le_succ_of_le kept.grown
        · intro ref below
          exact (congrArg Task.kind (older ref below deadline kind spec)).trans
            (kept.kinds ref below)
        · intro ref member isDaily
          have before := kept.present ref member isDaily
          have other : state.created ≠ ref :=
            Nat.ne_of_gt (Nat.lt_of_lt_of_le (queued.known ref member) kept.grown)
          have counted := (heapPush_perm (newTask state deadline kind spec) state.created).count_eq ref
          rw [List.count_cons_of_ne other] at counted
          unfold State.present at before ⊢
          show _ + (heapPush (newTask state deadline kind spec) state.created).heap.slots.count ref = 1
          rw [counted]
          exact before
      exact pushed.frame ⟨state.draining, only⟩

/-- The loop moves the root from the queue to the execution, or is left. -/
theorem Kept.drainLoop {start state : State} (kept : Kept start state) (sound : Sound state)
    (free : state.executing = none) (processed : Nat) (env : DrainEnv) :
    Kept start (drainLoop state processed env) := by
  rcases drainLoop_cases state processed env with
    ⟨aborted, left⟩ | ⟨now, root, popped, -, taken, -, -, invoked⟩
  · rw [left]
    exact kept.frame ⟨false, leaveDrain_timerOnly state aborted env⟩
  · rcases sound.heapPop taken with ⟨-, perm, ⟨heap, rfl⟩, -, -, -⟩
    rw [invoked]
    refine kept.congr rfl (fun _ => rfl) ?_
    intro ref _ _
    have counted := perm.count_eq ref
    unfold State.present invokeAction
    dsimp only at counted ⊢
    rw [counted, free, List.count_cons]
    simp only [Option.map_some, Option.some.injEq, Option.map_none, reduceCtorEq, if_false,
      beq_iff_eq]
    omega

theorem Kept.onTimer {start : State} (sound : Sound start) (env : DrainEnv)
    (outside : start.draining = false) : Kept start (onTimer start env) := by
  have free := sound.idle outside
  have here : Kept start (beginDrain start) := by
    refine ⟨Nat.le_refl _, fun _ _ => rfl, ?_⟩
    intro ref member _
    unfold State.present beginDrain
    dsimp only
    rw [free, List.count_eq_one_of_mem sound.valid.indexed.nodup member]
    rfl
  have begun : Sound (beginDrain start) :=
    sound.congr rfl rfl rfl rfl sound.apart fun _ => free
  unfold Scheduler.onTimer
  rw [if_neg (by rw [outside]; exact Bool.false_ne_true)]
  exact here.drainLoop begun free 0 env

/-- A task that has executed is watched and daily, or nothing is lost with it. -/
theorem Kept.finishAction {start state : State} (kept : Kept start state) (queued : Sound start)
    (sound : Sound state) {execution : Execution} (executing : state.executing = some execution)
    (raised : Option String) (env : DrainEnv)
    (rearms : Rearms start.heap.slots state (.finish raised env)) :
    Kept start (finishAction state execution raised env) := by
  have apart := sound.apart execution executing
  have ended := sound.ended
  have served : execution.task ∈ start.heap.slots ->
      readsDaily env (state.tasks execution.task) = true := by
    intro watched
    unfold Rearms at rearms
    rw [executing] at rearms
    simpa [watched] using rearms
  -- Unless the task was watched and daily, its end changes no count that matters.
  have unwatched : (execution.task ∈ start.heap.slots ->
      (start.tasks execution.task).kind = .daily -> False) ->
      Kept start { state with executing := none } := by
    intro indifferent
    refine kept.congr rfl (fun _ => rfl) ?_
    intro ref member isDaily
    have other : execution.task ≠ ref := by
      rintro rfl
      exact indifferent member isDaily
    unfold State.present
    dsimp only
    rw [executing, Option.map_some, if_neg (fun same => other (Option.some.inj same)),
      Option.map_none, if_neg (fun impossible => by cases impossible)]
  unfold Scheduler.finishAction
  dsimp only [reportError]
  split
  · rename_i isAt
    apply (unwatched _).drainLoop ended rfl
    intro member isDaily
    rw [← kept.kinds execution.task (queued.known _ member), isAt] at isDaily
    cases isDaily
  · rename_i isDaily
    rcases requeue_cases { state with executing := none } execution.task env with
      ⟨error, failed⟩ | ⟨deadline, succeeded⟩
    · rw [failed]
      refine (unwatched ?_).frame ⟨false, leaveDrain_timerOnly _ _ env⟩
      intro member _
      rcases @requeue_succeeds { state with executing := none } execution.task env isDaily
        (sound.specified execution.task apart.2 isDaily) (served member) with ⟨deadline, succeeded⟩
      rw [failed] at succeeded
      cases congrArg Prod.snd succeeded
    · rw [succeeded]
      have again : Kept start
          (heapPush (renewTask { state with executing := none } execution.task deadline)
            execution.task) := by
        refine kept.congr rfl ?_ ?_
        · exact fun ref => renewTask_kind { state with executing := none } execution.task ref deadline
        · intro ref _ _
          have counted := (heapPush_perm
            (renewTask { state with executing := none } execution.task deadline)
            execution.task).count_eq ref
          unfold State.present
          rw [counted, executing, List.count_cons]
          simp only [heapPush, renewTask, Option.map_none, Option.map_some, Option.some.injEq,
            reduceCtorEq, if_false, beq_iff_eq]
          omega
      exact again.drainLoop (ended.requeued apart.1 apart.2 isDaily rfl deadline) rfl _ env

theorem Kept.step {start state next : State} {action : Action} (kept : Kept start state)
    (queued : Sound start) (sound : Sound state) (entered : state.draining = true)
    (rearms : Rearms start.heap.slots state action) (moved : Scheduler.step state action = some next) :
    Kept start next := by
  cases action with
  | register request env =>
      cases moved
      exact kept.enrolled queued (register_enrolled sound request env)
  | timer env =>
      cases moved
      unfold Scheduler.onTimer
      rw [if_pos entered]
      exact kept
  | finish raised env =>
      rcases Option.map_eq_some_iff.mp moved with ⟨execution, executing, rfl⟩
      exact kept.finishAction queued sound executing raised env rearms

/-- A daily task that was put back was served. -/
theorem requeue_reads {state next : State} {ref : Ref} {env : DrainEnv}
    (isDaily : (state.tasks ref).kind = .daily) (succeeded : requeue state ref env = (next, none)) :
    readsDaily env (state.tasks ref) = true := by
  unfold requeue at succeeded
  unfold readsDaily
  rw [isDaily]
  cases reading : env.dailyNow with
  | none =>
      rw [reading] at succeeded
      cases congrArg Prod.snd succeeded
  | some now =>
      rw [reading] at succeeded
      dsimp only at succeeded ⊢
      cases given : (state.tasks ref).dailySpec with
      | none => rfl
      | some spec =>
          rw [given] at succeeded
          dsimp only
          cases result : nextDailyDeadline env.calendar spec now with
          | error error =>
              simp only [Option.map_some, result] at succeeded
              cases congrArg Prod.snd succeeded
          | ok deadline => rfl

/-- A watched task whose deadline cannot be computed has left the queue when
`on_timer` returns, which it does at once. -/
theorem Kept.lost {start state next : State} {action : Action} (kept : Kept start state)
    (queued : Sound start) (sound : Sound state)
    (fails : ¬ Rearms start.heap.slots state action) (moved : Scheduler.step state action = some next) :
    next.draining = false ∧
      Exists fun ref => ref ∈ start.heap.slots ∧ (start.tasks ref).kind = .daily ∧
        next.heap.slots.count ref = 0 := by
  cases action with
  | register request env => exact absurd trivial fails
  | timer env => exact absurd trivial fails
  | finish raised env =>
      rcases Option.map_eq_some_iff.mp moved with ⟨execution, executing, rfl⟩
      have apart := sound.apart execution executing
      unfold Rearms at fails
      rw [executing] at fails
      simp only [Option.all_some, Bool.or_eq_true, Bool.not_eq_true', not_or, Bool.not_eq_false,
        List.contains_iff_mem] at fails
      rcases fails with ⟨watched, unread⟩
      have isDaily : (state.tasks execution.task).kind = .daily := by
        cases kind : (state.tasks execution.task).kind with
        | «at» =>
            unfold readsDaily at unread
            rw [kind] at unread
            exact absurd rfl unread
        | daily => rfl
      have failed : Exists fun error => requeue { state with executing := none } execution.task env =
          ({ state with executing := none }, some error) := by
        rcases requeue_cases { state with executing := none } execution.task env with
          failed | ⟨deadline, succeeded⟩
        · exact failed
        · exact absurd (@requeue_reads { state with executing := none } _ _ _ isDaily succeeded) unread
      rcases failed with ⟨error, failed⟩
      have left : Scheduler.finishAction state execution raised env =
          leaveDrain { state with executing := none } (some error) env := by
        unfold Scheduler.finishAction
        dsimp only [reportError]
        rw [isDaily]
        dsimp only
        rw [failed]
      rw [left]
      rcases leaveDrain_timerOnly { state with executing := none } (some error) env with
        ⟨_, _, _, _, same⟩
      rw [same]
      refine ⟨rfl, execution.task, watched, ?_, List.count_eq_zero.mpr apart.1⟩
      rw [← kept.kinds execution.task (queued.known _ watched)]
      exact isDaily

theorem Drains.stops {state final : State} {schedule : List Action}
    (drains : Drains state schedule final) (left : state.draining = false) :
    schedule = [] ∧ final = state := by
  cases drains with
  | returned _ => exact ⟨rfl, rfl⟩
  | goesOn entered _ _ => cases left.symm.trans entered

/-- The daily tasks of the queue at the start are in the queue at the end. -/
def Survived (start final : State) : Prop :=
  forall ref, ref ∈ start.heap.slots -> (start.tasks ref).kind = .daily ->
    final.heap.slots.count ref = 1

theorem Kept.survived_iff {start state final : State} {schedule : List Action} (queued : Sound start)
    (drains : Drains state schedule final) (kept : Kept start state) (sound : Sound state) :
    Survived start final <-> machine.Obeys (Rearms start.heap.slots) state schedule := by
  induction drains with
  | @returned state left =>
      constructor
      · intro _
        trivial
      · intro _ ref member isDaily
        have once := kept.present ref member isDaily
        unfold State.present at once
        rw [sound.idle left, Option.map_none, if_neg (fun impossible => by cases impossible),
          Nat.zero_add] at once
        exact once
  | @goesOn state next final action rest entered moved later inductionHypothesis =>
      rw [machine.obeys_cons_of_some rest moved]
      by_cases rearms : Rearms start.heap.slots state action
      · rw [inductionHypothesis (kept.step queued sound entered rearms moved)
          (step_sound sound moved)]
        exact (and_iff_right rearms).symm
      · rcases kept.lost queued sound rearms moved with ⟨left, ref, member, isDaily, gone⟩
        rcases later.stops left with ⟨-, rfl⟩
        constructor
        · intro survived
          have once := survived ref member isDaily
          rw [gone] at once
          cases once
        · exact fun both => absurd both.1 rearms

/-- Whatever raises in a tick, a daily task that was in the queue when the tick
began is in it once when the tick ends, exactly when the clock and the calendar
serve every such task that has executed. -/
theorem daily_survives_iff {start final : State} {env : DrainEnv} {schedule : List Action}
    (sound : Sound start) (ticks : Ticks start env schedule final) :
    Survived start final <-> machine.Obeys (Rearms start.heap.slots) (onTimer start env) schedule := by
  cases ticks with
  | nested inside =>
      constructor
      · intro _
        trivial
      · intro _ ref member _
        unfold onTimer
        rw [if_pos inside]
        exact List.count_eq_one_of_mem sound.valid.indexed.nodup member
  | whole outside drains =>
      exact (Kept.onTimer sound env outside).survived_iff sound drains (sound.onTimer env)

def calmArm : ArmEnv := ⟨⟨none, .usable, none⟩, some 0, true, true⟩

/-- The reading after the head of the loop succeeds; the one before the next
deadline is the argument. -/
def dailyTick (dailyNow : Option Rat) : DrainEnv :=
  ⟨dailyNow, toyCalendar, some 9000, calmArm⟩

/-- One task due at seven seconds, daily. -/
def registerDaily : List Action :=
  [.register (.daily ⟨0, 0, 7⟩) ⟨some 0, toyCalendar, none, .function, calmArm.timer, calmArm⟩]

/-- One tick that executes the one task, with what holds when it returns. -/
def TickEnds (dailyNow : Option Rat) (slots : List Ref) (start : State) : Prop :=
  start.draining = false ∧ start.heap.slots = [0] ∧ (start.tasks 0).kind = .daily ∧
    (onTimer start (dailyTick (some 9000))).draining = true ∧
    ((step (onTimer start (dailyTick (some 9000))) (.finish none (dailyTick dailyNow))).any
      fun final => decide (final.draining = false ∧ final.heap.slots = slots)) = true

instance (dailyNow : Option Rat) (slots : List Ref) : DecidablePred (TickEnds dailyNow slots) := by
  intro start
  unfold TickEnds
  infer_instance

theorem TickEnds.ticks {dailyNow : Option Rat} {slots : List Ref} {start : State}
    (ends : TickEnds dailyNow slots start) :
    Exists fun final => Ticks start (dailyTick (some 9000)) [.finish none (dailyTick dailyNow)] final ∧
      final.heap.slots = slots := by
  rcases ends with ⟨outside, -, -, entered, last⟩
  rcases (Option.any_eq_true _ _).mp last with ⟨final, moved, shown⟩
  rcases of_decide_eq_true shown with ⟨left, queued⟩
  exact ⟨final, .whole outside (.goesOn entered moved (.returned left)), queued⟩

theorem daily_survives_quiet :
    Exists fun start => Exists fun schedule => Exists fun final => machine.Reachable start ∧
      start.heap.slots = [0] ∧ Ticks start (dailyTick (some 9000)) schedule final ∧
      Survived start final := by
  have ends : ((machine.run .loaded registerDaily).any fun start => decide
      (TickEnds (some 9000) [0] start ∧ machine.Obeys (Rearms start.heap.slots)
        (onTimer start (dailyTick (some 9000))) [.finish none (dailyTick (some 9000))])) = true := by
    decide +kernel
  rcases machine.exists_reachable rfl ends with ⟨start, reachable, tick, obeys⟩
  rcases tick.ticks with ⟨final, ticks, -⟩
  exact ⟨start, _, final, reachable, tick.2.1, ticks,
    (daily_survives_iff (reachable_sound reachable) ticks).mpr obeys⟩

/-- The clock cannot be read for the next deadline: the task is gone. -/
theorem daily_task_lost :
    Exists fun start => Exists fun schedule => Exists fun final => machine.Reachable start ∧
      Ticks start (dailyTick (some 9000)) schedule final ∧ ¬ Survived start final := by
  have ends : ((machine.run .loaded registerDaily).any fun start =>
      decide (TickEnds none [] start)) = true := by
    decide +kernel
  rcases machine.exists_reachable rfl ends with ⟨start, reachable, tick⟩
  rcases tick.ticks with ⟨final, ticks, empty⟩
  refine ⟨start, _, final, reachable, ticks, ?_⟩
  intro survived
  have once := survived 0 (by rw [tick.2.1]; exact List.mem_singleton_self 0) tick.2.2.1
  rw [empty] at once
  cases once

end Scheduler
end ServiceRuntime
