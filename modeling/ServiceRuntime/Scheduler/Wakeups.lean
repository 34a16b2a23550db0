import ServiceRuntime.Scheduler.Queue

namespace ServiceRuntime
namespace Scheduler

open Foundation

/-!
# The timer of the scheduler

Between drains the timer is armed exactly while something is queued.  During a
drain it is not armed, because registrations leave the arming to the end of
the drain; the drain ends with `arm_timer` however its loop was left.
-/

/-- What `arm_timer` meets is in its favour. -/
def ArmEnv.Obliging (env : ArmEnv) : Prop :=
  env.starts = true ∧ env.stops = true ∧ env.now.isSome = true ∧ env.timer.context = none ∧
    env.timer.inspection = .usable

instance (env : ArmEnv) : Decidable env.Obliging :=
  inferInstanceAs (Decidable (_ ∧ _ ∧ _ ∧ _ ∧ _))

def Action.arm : Action -> ArmEnv
  | .register _ env => env.arm
  | .timer env | .finish _ env => env.arm

/-- The timer starts and stops as told, and `arm_timer` can read the clock. -/
def Arms (_state : State) (action : Action) : Prop :=
  action.arm.Obliging

instance (state : State) (action : Action) : Decidable (Arms state action) :=
  inferInstanceAs (Decidable action.arm.Obliging)

/-! ## The timer of every run -/

/-- There is at most one timer, there is one as soon as something was queued,
and outside of drains it is armed exactly while something is queued. -/
structure Wakeful (state : State) : Prop where
  single : state.timersCreated = state.timer.toNat
  linked : state.pending.isSome = state.timerArmed
  equipped : state.timerArmed = true -> state.timer = true
  made : state.heap.slots ≠ [] ∨ state.executing.isSome = true -> state.timer = true
  asleep : state.draining = true -> state.timerArmed = false
  awake : state.draining = false -> (state.timerArmed = true <-> state.heap.slots ≠ [])

theorem entry_one_eq_none {heap : Heap Ref} : heap.entry 1 = none <-> heap.slots = [] := by
  unfold Heap.entry
  rw [if_neg (by decide), List.getElem?_eq_none_iff]
  constructor
  · exact fun short => List.length_eq_zero_iff.mp (Nat.le_zero.mp short)
  · exact fun empty => by rw [empty]; exact Nat.le_refl _

theorem ensureTimer_ready {state : State} {env : TimerEnv} (made : state.timer = true)
    (context : env.context = none) (usable : env.inspection = .usable) :
    ensureTimer state env = (state, none) := by
  unfold ensureTimer
  rw [context, made, usable]
  rfl

/-- With everything in its favour `arm_timer` arms the timer for the top of the
queue, or disarms it. -/
theorem armTimer_obliging {state : State} {env : ArmEnv} (obliging : env.Obliging)
    (linked : state.pending.isSome = state.timerArmed)
    (equipped : state.timerArmed = true -> state.timer = true)
    (made : state.heap.slots ≠ [] -> state.timer = true) :
    (state.heap.slots = [] ∧
      armTimer state env = ({ state with timerArmed := false, pending := none }, none)) ∨
    (Exists fun top => Exists fun now => state.heap.entry 1 = some top ∧ env.now = some now ∧
      armTimer state env =
        ({ state with
            timerArmed := true, pending := some (delayUntil (state.tasks top).deadline now) },
          none)) := by
  rcases obliging with ⟨starts, stops, reads, context, usable⟩
  rcases Option.isSome_iff_exists.mp reads with ⟨now, reading⟩
  cases top : state.heap.entry 1 with
  | none =>
      refine Or.inl ⟨entry_one_eq_none.mp top, ?_⟩
      unfold armTimer stopTimer
      rw [top, stops]
      dsimp only
      cases armed : state.timerArmed with
      | true =>
          rw [equipped armed]
          rfl
      | false =>
          rw [armed] at linked
          have owed : state.pending = none := Option.not_isSome_iff_eq_none.mp (by rw [linked]; decide)
          rw [Bool.and_false, ← owed]
          rfl
  | some first =>
      have filled : state.heap.slots ≠ [] := by
        intro empty
        rw [entry_one_eq_none.mpr empty] at top
        cases top
      refine Or.inr ⟨first, now, rfl, reading, ?_⟩
      unfold armTimer
      rw [top]
      dsimp only
      rw [ensureTimer_ready (made filled) context usable, reading]
      dsimp only
      cases armed : state.timerArmed with
      | true =>
          unfold stopTimer
          rw [made filled, armed, stops]
          simp only [Bool.and_self, if_true, starts]
      | false => simp only [Bool.false_eq_true, if_false, starts, if_true]

/-- The delay is the distance to the deadline, rounded up and kept within
bounds. -/
theorem delayUntil_spec (deadline now : Rat) :
    0 ≤ delayUntil deadline now ∧ delayUntil deadline now ≤ maxRecheckMs ∧
      Exists fun least : Int => IsLeast {whole : Int | deadline - now ≤ whole} least ∧
        delayUntil deadline now = max 0 (min least maxRecheckMs) := by
  have least : IsLeast {whole : Int | deadline - now ≤ whole} ⌈deadline - now⌉ :=
    ⟨show deadline - now ≤ (⌈deadline - now⌉ : Rat) from Int.le_ceil _,
      fun whole above => Int.ceil_le.mpr above⟩
  have bound : (0 : Int) < maxRecheckMs := by decide
  have value : delayUntil deadline now = max 0 (min ⌈deadline - now⌉ maxRecheckMs) := by
    unfold delayUntil
    dsimp only
    by_cases past : deadline - now < 0
    · have early : ⌈deadline - now⌉ ≤ 0 := Int.ceil_le.mpr (by exact_mod_cast le_of_lt past)
      rw [if_pos past, Int.ceil_zero, if_neg (by omega)]
      omega
    · have late : 0 ≤ ⌈deadline - now⌉ := Int.ceil_nonneg (not_lt.mp past)
      rw [if_neg past]
      split <;> omega
  rw [value]
  refine ⟨by omega, by omega, ⌈deadline - now⌉, least, rfl⟩

/-- After `arm_timer` has read the clock as `now`. -/
structure Awake (state : State) (now : Rat) : Prop where
  settled : state.draining = false
  armed : forall top, state.heap.entry 1 = some top ->
    state.timer = true ∧ state.timerArmed = true ∧
    Exists fun delay : Int => state.pending = some delay ∧ 0 ≤ delay ∧ delay ≤ maxRecheckMs ∧
      Exists fun least : Int =>
        IsLeast {whole : Int | (state.tasks top).deadline - now ≤ whole} least ∧
        delay = max 0 (min least maxRecheckMs)
  resting : state.heap.entry 1 = none -> state.timerArmed = false ∧ state.pending = none
  single : state.timersCreated ≤ 1

theorem Wakeful.single_le {state : State} (wakeful : Wakeful state) : state.timersCreated ≤ 1 := by
  rw [wakeful.single]
  exact Bool.toNat_le _

/-- Arming outside of a drain sets everything right. -/
theorem Wakeful.armTimer {state : State} {env : ArmEnv} (obliging : env.Obliging)
    (single : state.timersCreated = state.timer.toNat)
    (linked : state.pending.isSome = state.timerArmed)
    (equipped : state.timerArmed = true -> state.timer = true)
    (made : state.heap.slots ≠ [] -> state.timer = true)
    (settled : state.draining = false) (free : state.executing = none) :
    (armTimer state env).2 = none ∧ Wakeful (armTimer state env).1 ∧
      Exists fun now => env.now = some now ∧ Awake (armTimer state env).1 now := by
  have once : state.timersCreated ≤ 1 := by
    rw [single]
    exact Bool.toNat_le _
  have inactive : forall {goal : Prop}, state.executing.isSome = true -> goal := by
    intro goal active
    rw [free] at active
    cases active
  rcases armTimer_obliging obliging linked equipped made with
    ⟨empty, result⟩ | ⟨top, now, first, reading, result⟩
  · rcases Option.isSome_iff_exists.mp obliging.2.2.1 with ⟨now, reading⟩
    rw [result]
    refine ⟨rfl, ?_, now, reading, ?_⟩
    · constructor
      · exact single
      · rfl
      · intro impossible
        cases impossible
      · rintro (filled | active)
        · exact absurd empty filled
        · exact inactive active
      · exact fun _ => rfl
      · intro _
        exact iff_of_false Bool.noConfusion fun filled => filled empty
    · constructor
      · exact settled
      · intro top present
        rw [show Heap.entry _ 1 = none from entry_one_eq_none.mpr empty] at present
        cases present
      · exact fun _ => ⟨rfl, rfl⟩
      · exact once
  · have filled : state.heap.slots ≠ [] := by
      intro empty
      rw [entry_one_eq_none.mpr empty] at first
      cases first
    rw [result]
    refine ⟨rfl, ?_, now, reading, ?_⟩
    · constructor
      · exact single
      · rfl
      · exact fun _ => made filled
      · exact fun _ => made filled
      · intro draining
        cases settled.symm.trans draining
      · exact fun _ => iff_of_true rfl filled
    · constructor
      · exact settled
      · intro other present
        obtain rfl : top = other := Option.some.inj (first.symm.trans present)
        have delay := delayUntil_spec (state.tasks top).deadline now
        exact ⟨made filled, rfl, _, rfl, delay⟩
      · intro absent
        cases absent.symm.trans first
      · exact once

/-! ## Registrations -/

theorem Wakeful.ensureTimer {state : State} (wakeful : Wakeful state) (env : TimerEnv) :
    Wakeful (ensureTimer state env).1 ∧
      ((ensureTimer state env).2 = none -> (ensureTimer state env).1.timer = true) := by
  unfold Scheduler.ensureTimer
  split
  · exact ⟨wakeful, fun impossible => by cases impossible⟩
  · split
    · rename_i made
      split
      · exact ⟨wakeful, fun _ => made⟩
      · exact ⟨wakeful, fun _ => made⟩
      · exact ⟨wakeful, fun _ => made⟩
    · rename_i missing
      split
      · exact ⟨wakeful, fun impossible => by cases impossible⟩
      · refine ⟨⟨?_, wakeful.linked, fun _ => rfl, fun _ => rfl, wakeful.asleep, wakeful.awake⟩,
          fun _ => rfl⟩
        have none_made := wakeful.single
        rw [Bool.eq_false_iff.mpr missing] at none_made
        exact congrArg (· + 1) none_made

/-- A new task in the queue of a scheduler with a timer. -/
theorem Wakeful.enqueueTask {ready : State} {env : RegisterEnv} (wakeful : Wakeful ready)
    (idle : ready.draining = false -> ready.executing = none) (made : ready.timer = true)
    (obliging : env.arm.Obliging) (ref : Ref) :
    (enqueueTask ready ref env).2 = none ∧ Wakeful (enqueueTask ready ref env).1 ∧
      (ready.draining = false -> Exists fun now => env.arm.now = some now ∧
        Awake (enqueueTask ready ref env).1 now) := by
  unfold Scheduler.enqueueTask
  dsimp only
  split
  · rename_i draining
    refine ⟨rfl, ⟨wakeful.single, wakeful.linked, wakeful.equipped, fun _ => made, wakeful.asleep,
      ?_⟩, ?_⟩
    · intro settled
      cases settled.symm.trans draining
    · intro settled
      cases settled.symm.trans draining
  · rename_i outside
    have settled : ready.draining = false := Bool.not_eq_true _ ▸ outside
    have armed : _ ∧ _ ∧ _ := @Wakeful.armTimer (heapPush ready ref) env.arm obliging wakeful.single
      wakeful.linked wakeful.equipped (fun _ => made) settled (idle settled)
    rcases armed with ⟨success, awake, now, reading, rises⟩
    split
    · rename_i final result
      rw [result] at awake rises
      refine ⟨rfl, ⟨awake.single, awake.linked, awake.equipped, awake.made, awake.asleep,
        awake.awake⟩, fun _ => ⟨now, reading, ?_⟩⟩
      exact ⟨rises.settled, rises.armed, rises.resting, rises.single⟩
    · rename_i final error result
      rw [result] at success
      cases success

theorem Wakeful.enqueue {state : State} {env : RegisterEnv} (wakeful : Wakeful state)
    (idle : state.draining = false -> state.executing = none) (obliging : env.arm.Obliging)
    (deadline : Rat) (kind : Kind) (spec : Option DailySpec) :
    Wakeful (enqueue state deadline kind spec env).1 ∧
      (state.draining = false -> (enqueue state deadline kind spec env).2 = none ->
        Exists fun now => env.arm.now = some now ∧
          Awake (enqueue state deadline kind spec env).1 now) := by
  have fresh : Wakeful (newTask state deadline kind spec) :=
    ⟨wakeful.single, wakeful.linked, wakeful.equipped, wakeful.made, wakeful.asleep, wakeful.awake⟩
  unfold Scheduler.enqueue
  split
  · exact ⟨wakeful, fun _ impossible => by cases impossible⟩
  · exact ⟨wakeful, fun _ impossible => by cases impossible⟩
  · exact ⟨wakeful, fun _ impossible => by cases impossible⟩
  · have ensured := fresh.ensureTimer env.timer
    have only := ensureTimer_timerOnly (newTask state deadline kind spec) env.timer
    split
    · rename_i ready error result
      rw [result] at ensured
      exact ⟨ensured.1, fun _ impossible => by cases impossible⟩
    · rename_i ready result
      rw [result] at ensured only
      have same : ready.draining = state.draining ∧ ready.executing = state.executing := by
        rcases only with ⟨_, _, _, _, rfl⟩
        exact ⟨rfl, rfl⟩
      have queued := ensured.1.enqueueTask (by rw [same.1, same.2]; exact idle) (ensured.2 rfl)
        obliging state.created
      exact ⟨queued.2.1, fun settled _ => queued.2.2 (same.1.trans settled)⟩

theorem Wakeful.register {state : State} {env : RegisterEnv} (wakeful : Wakeful state)
    (idle : state.draining = false -> state.executing = none) (obliging : env.arm.Obliging)
    (request : Registration) :
    Wakeful (register state request env).1 ∧
      (state.draining = false -> (register state request env).2 = none ->
        Exists fun now => env.arm.now = some now ∧ Awake (register state request env).1 now) := by
  unfold Scheduler.register
  split
  · exact wakeful.enqueue idle obliging _ _ _
  · split
    · exact ⟨wakeful, fun _ impossible => by cases impossible⟩
    · split
      · exact ⟨wakeful, fun _ impossible => by cases impossible⟩
      · exact wakeful.enqueue idle obliging _ _ _

/-! ## Drains -/

theorem Wakeful.leaveDrain {state : State} {env : DrainEnv} (wakeful : Wakeful state)
    (free : state.executing = none) (obliging : env.arm.Obliging) (aborted : Option String) :
    Wakeful (leaveDrain state aborted env) ∧
      Exists fun now => env.arm.now = some now ∧ Awake (leaveDrain state aborted env) now :=
  (@Wakeful.armTimer { state with draining := false } env.arm obliging wakeful.single wakeful.linked
    wakeful.equipped (fun filled => wakeful.made (Or.inl filled)) rfl free).2

theorem Wakeful.drainLoop {state : State} {env : DrainEnv} (wakeful : Wakeful state)
    (free : state.executing = none) (entered : state.draining = true)
    (obliging : env.arm.Obliging) (processed : Nat) :
    Wakeful (drainLoop state processed env) ∧
      ((drainLoop state processed env).draining = false ->
        Exists fun now => env.arm.now = some now ∧ Awake (drainLoop state processed env) now) := by
  rcases drainLoop_cases state processed env with
    ⟨aborted, left⟩ | ⟨now, root, popped, -, taken, -, -, invoked⟩
  · rw [left]
    have settled := wakeful.leaveDrain free obliging aborted
    exact ⟨settled.1, fun _ => settled.2⟩
  · rcases Option.map_eq_some_iff.mp taken with ⟨⟨top, heap⟩, result, equal⟩
    obtain ⟨rfl, rfl⟩ := Prod.mk.inj equal
    have filled : state.heap.slots ≠ [] := by
      intro empty
      rw [Heap.pop_eq_none.mpr empty] at result
      cases result
    have made := wakeful.made (Or.inl filled)
    rw [invoked]
    refine ⟨⟨wakeful.single, wakeful.linked, wakeful.equipped, fun _ => made, wakeful.asleep, ?_⟩, ?_⟩
    · intro settled
      cases entered.symm.trans settled
    · intro settled
      cases entered.symm.trans settled

theorem Wakeful.onTimer {state : State} {env : DrainEnv} (wakeful : Wakeful state)
    (idle : state.draining = false -> state.executing = none) (obliging : env.arm.Obliging) :
    Wakeful (onTimer state env) ∧
      (state.draining = false -> (onTimer state env).draining = false ->
        Exists fun now => env.arm.now = some now ∧ Awake (onTimer state env) now) := by
  unfold Scheduler.onTimer
  split
  · rename_i draining
    refine ⟨wakeful, ?_⟩
    intro settled
    cases settled.symm.trans draining
  · rename_i outside
    have settled : state.draining = false := Bool.not_eq_true _ ▸ outside
    have begun : Wakeful (beginDrain state) := by
      refine ⟨wakeful.single, rfl, ?_, wakeful.made, fun _ => rfl, ?_⟩
      · intro impossible
        cases impossible
      · intro impossible
        cases impossible
    have drained := begun.drainLoop (idle settled) rfl obliging 0
    exact ⟨drained.1, fun _ => drained.2⟩

theorem Wakeful.finishAction {state : State} {env : DrainEnv} {execution : Execution}
    (wakeful : Wakeful state) (entered : state.draining = true)
    (executing : state.executing = some execution) (obliging : env.arm.Obliging)
    (raised : Option String) :
    Wakeful (finishAction state execution raised env) ∧
      ((finishAction state execution raised env).draining = false ->
        Exists fun now => env.arm.now = some now ∧
          Awake (finishAction state execution raised env) now) := by
  have made : state.timer = true := wakeful.made (Or.inr (by rw [executing]; rfl))
  have vacuous : forall {goal : Prop}, state.draining = false -> goal := by
    intro goal settled
    cases entered.symm.trans settled
  have ended : Wakeful { state with executing := none } :=
    ⟨wakeful.single, wakeful.linked, wakeful.equipped, fun _ => made, wakeful.asleep, vacuous⟩
  unfold Scheduler.finishAction
  dsimp only [reportError]
  split
  · exact ended.drainLoop rfl entered obliging _
  · rcases requeue_cases { state with executing := none } execution.task env with
      ⟨error, failed⟩ | ⟨deadline, queued⟩
    · rw [failed]
      have left := ended.leaveDrain rfl obliging (some error)
      exact ⟨left.1, fun _ => left.2⟩
    · rw [queued]
      have waiting : Wakeful (heapPush (renewTask { state with executing := none } execution.task
          deadline) execution.task) :=
        ⟨wakeful.single, wakeful.linked, wakeful.equipped, fun _ => made, wakeful.asleep, vacuous⟩
      exact waiting.drainLoop rfl entered obliging _

/-! ## Every run -/

/-- The step completes a registration outside of a drain, or the outermost
call of `on_timer`. -/
def Completes (state : State) (action : Action) (next : State) : Prop :=
  match action with
  | .register request env => state.draining = false ∧ (register state request env).2 = none
  | .timer _ => state.draining = false ∧ next.draining = false
  | .finish _ _ => next.draining = false

theorem step_wakeful {state next : State} {action : Action} (sound : Sound state)
    (wakeful : Wakeful state) (arms : Arms state action) (moved : step state action = some next) :
    Wakeful next ∧ (Completes state action next ->
      Exists fun now => action.arm.now = some now ∧ Awake next now) := by
  cases action with
  | register request env =>
      cases moved
      have result := wakeful.register sound.idle arms request
      exact ⟨result.1, fun completed => result.2 completed.1 completed.2⟩
  | timer env =>
      cases moved
      have result := wakeful.onTimer sound.idle arms
      exact ⟨result.1, fun completed => result.2 completed.1 completed.2⟩
  | finish raised env =>
      rcases Option.map_eq_some_iff.mp moved with ⟨execution, executing, rfl⟩
      exact wakeful.finishAction (sound.entered executing) executing arms raised

theorem loaded_wakeful : Wakeful .loaded where
  single := rfl
  linked := rfl
  equipped := by
    rintro ⟨⟩
  made := by
    rintro (filled | active)
    · exact absurd rfl filled
    · exact absurd active (by decide)
  asleep := fun _ => rfl
  awake := fun _ => iff_of_false Bool.noConfusion fun filled => filled rfl

theorem reachable_wakeful {state : State} (reachable : (machine.restrict Arms).Reachable state) :
    Wakeful state := by
  apply Machine.Reachable.induction _ _ reachable
  · rintro start rfl
    exact loaded_wakeful
  · intro current action next reached wakeful moved
    rcases Machine.restrict_step_eq_some moved with ⟨arms, taken⟩
    exact (step_wakeful (reachable_sound reached.of_restrict) wakeful arms taken).1

/-- Whenever a registration outside of a drain or an outermost `on_timer` is
complete, the one timer is armed for the top of the queue, or the queue is
empty and the timer is not armed; and no task waits outside of a drain without
a callback to come. -/
theorem scheduler_wakes {state : State} (reachable : (machine.restrict Arms).Reachable state) :
    (forall action next, (machine.restrict Arms).step state action = some next ->
      Completes state action next ->
      Exists fun now => action.arm.now = some now ∧ Awake next now) ∧
    (state.draining = false -> state.heap.slots ≠ [] ->
      state.timer = true ∧ state.timerArmed = true ∧ state.pending.isSome = true) ∧
    state.timersCreated ≤ 1 := by
  have sound := reachable_sound reachable.of_restrict
  have wakeful := reachable_wakeful reachable
  refine ⟨?_, ?_, wakeful.single_le⟩
  · intro action next moved completed
    rcases Machine.restrict_step_eq_some moved with ⟨arms, taken⟩
    exact (step_wakeful sound wakeful arms taken).2 completed
  · intro settled filled
    have armed := (wakeful.awake settled).mpr filled
    exact ⟨wakeful.equipped armed, armed, wakeful.linked.trans armed⟩

/-- One task is registered; later the clock fails the drain that should have
looked at it, and has recovered when the timer is armed again. -/
def failingTick : List Action × Action :=
  let early : ArmEnv := ⟨⟨none, .usable, none⟩, some 0, true, true⟩
  let calendar : Calendar := ⟨fun _ => none, fun _ _ => none⟩
  ([.register (.at 75000) ⟨none, calendar, none, .function, early.timer, early⟩],
    .timer ⟨none, calendar, none, { early with now := some 60000 }⟩)

theorem scheduler_wakes_after_failure :
    Exists fun state => Exists fun next => (machine.restrict Arms).Reachable state ∧
      state.pending = some 60000 ∧
      (machine.restrict Arms).step state failingTick.2 = some next ∧ next.pending = some 15000 ∧
      Awake next 60000 := by
  have ends : (((machine.restrict Arms).run .loaded failingTick.1).any fun state => decide
      (state.pending = some 60000 ∧ state.draining = false ∧
        (((machine.restrict Arms).step state failingTick.2).any fun next => decide
          (next.pending = some 15000 ∧ next.draining = false)) = true)) = true := by
    decide +kernel
  rcases (machine.restrict Arms).exists_reachable rfl ends with
    ⟨state, reachable, pending, settled, later⟩
  rcases (Option.any_eq_true _ _).mp later with ⟨next, moved, observed⟩
  rcases of_decide_eq_true observed with ⟨renewed, left⟩
  rcases (scheduler_wakes reachable).1 failingTick.2 next moved ⟨settled, left⟩ with
    ⟨now, reading, awake⟩
  cases reading
  exact ⟨state, next, reachable, pending, moved, renewed, awake⟩

end Scheduler
end ServiceRuntime
