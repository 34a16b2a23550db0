import ServiceRuntime.Scheduler.Daily
import ServiceRuntime.Scheduler.Wakeups

namespace ServiceRuntime
namespace Scheduler

open Foundation

/-!
# Failed registrations

`scheduler:at` and `scheduler:daily` with their arguments unparsed.  A call that
raises has changed nothing yet or takes its task out of the queue again; but
`arm_timer` stops the timer before it starts it anew, and nobody starts the
timer again when that fails.
-/

/-- The first argument of `scheduler:at`; a number is none when it is not finite. -/
inductive Timestamp where
  | number (value : Option Rat)
  | text (value : LuaText)
  | other

/-- From here on a double is rounded to infinity. -/
def infinityThreshold : Rat :=
  2 ^ 970 * (2 ^ 54 - 1)

/-- `parse_at_timestamp`.  The code rounds `value * 1000` to a double, which is
left out here; the rounding does not decide which call raises. -/
def parseAtTimestamp (os : LocalTime) : Timestamp -> Except String Rat
  | .number (some value) =>
      if |value * 1000| < infinityThreshold then .ok (value * 1000)
      else .error "scheduler: timestamp is outside the supported range"
  | .text value => (parseAtString os value).map fun deadline : Int => (deadline : Rat)
  | _ => .error "scheduler: timestamp must be an epoch number or date-time string"

/-- A call of the module; `isScheduler` says that the receiver is the module. -/
inductive Call where
  | at (isScheduler : Bool) (os : LocalTime) (timestamp : Timestamp)
  | daily (isScheduler : Bool) (time : DailyTime)

/-- The checks of a call before it looks at the clock. -/
def Call.request : Call -> Except String Registration
  | .at isScheduler os timestamp =>
      if isScheduler then (parseAtTimestamp os timestamp).map .at
      else .error "scheduler: at must use scheduler:at(...)"
  | .daily isScheduler time =>
      if isScheduler then (parseDailyTime time).map .daily
      else .error "scheduler: daily must use scheduler:daily(...)"

/-- What the call leaves, and the error it raises. -/
def Call.run (call : Call) (state : State) (env : RegisterEnv) : State × Option String :=
  match call.request with
  | .error error => (state, some error)
  | .ok request => register state request env

/-! ## The timer -/

/-- Nothing was done to the timer that was armed before. -/
def SameTimer (state next : State) : Prop :=
  next.timerArmed = state.timerArmed ∧ next.pending = state.pending

/-- `arm_timer` comes to start the timer anew, and fails. -/
def Restarts (state : State) (env : ArmEnv) : Prop :=
  (ensureTimer state env.timer).2 = none ∧ env.now.isSome = true ∧ env.stops = true ∧
    env.starts = false

theorem ensureTimer_same (state : State) (env : TimerEnv) :
    SameTimer state (ensureTimer state env).1 ∧
      ((ensureTimer state env).2 = none -> (ensureTimer state env).1.timer = true) := by
  unfold ensureTimer
  cases env.context with
  | some error => exact ⟨⟨rfl, rfl⟩, fun impossible => by cases impossible⟩
  | none =>
      dsimp only
      split
      · rename_i made
        cases env.inspection with
        | usable => exact ⟨⟨rfl, rfl⟩, fun _ => made⟩
        | closing => exact ⟨⟨rfl, rfl⟩, fun impossible => by cases impossible⟩
        | failed => exact ⟨⟨rfl, rfl⟩, fun impossible => by cases impossible⟩
      · cases env.creation with
        | some message => exact ⟨⟨rfl, rfl⟩, fun impossible => by cases impossible⟩
        | none => exact ⟨⟨rfl, rfl⟩, fun _ => rfl⟩

/-- An armed timer that `arm_timer` fails on is as it was, unless the failure is
that of starting it anew; then it is stopped. -/
theorem armTimer_failed {state next : State} {env : ArmEnv} {error : String}
    (queued : state.heap.slots ≠ []) (armed : state.timerArmed = true)
    (failed : armTimer state env = (next, some error)) :
    (SameTimer state next ∧ ¬ Restarts state env) ∨
      (next.timerArmed = false ∧ Restarts state env) := by
  obtain ⟨top, first⟩ : Exists fun top => state.heap.entry 1 = some top := by
    cases first : state.heap.entry 1 with
    | none => exact absurd (entry_one_eq_none.mp first) queued
    | some top => exact ⟨top, rfl⟩
  unfold armTimer at failed
  rw [first] at failed
  dsimp only at failed
  have ensured := ensureTimer_same state env.timer
  unfold Restarts
  rcases result : ensureTimer state env.timer with ⟨ready, raised⟩
  rw [result] at failed ensured
  cases raised with
  | some message =>
      obtain ⟨rfl, -⟩ := Prod.mk.inj failed
      exact Or.inl ⟨ensured.1, fun restarts => by cases restarts.1⟩
  | none =>
      dsimp only at ensured failed ⊢
      have made := ensured.2 rfl
      have stillArmed := ensured.1.1.trans armed
      cases reading : env.now with
      | none =>
          rw [reading] at failed
          obtain ⟨rfl, -⟩ := Prod.mk.inj failed
          exact Or.inl ⟨ensured.1, fun restarts => by cases restarts.2.1⟩
      | some now =>
          rw [reading] at failed
          dsimp only at failed
          unfold stopTimer at failed
          rw [stillArmed, made] at failed
          simp only [Bool.and_self, if_true] at failed
          cases stops : env.stops with
          | false =>
              rw [stops] at failed
              obtain ⟨rfl, -⟩ := Prod.mk.inj failed
              exact Or.inl ⟨ensured.1, fun restarts => by cases restarts.2.2.1⟩
          | true =>
              rw [stops] at failed
              simp only [if_true] at failed
              cases starts : env.starts with
              | true =>
                  rw [starts] at failed
                  cases congrArg Prod.snd failed
              | false =>
                  rw [starts] at failed
                  obtain ⟨rfl, -⟩ := Prod.mk.inj failed
                  exact Or.inr ⟨rfl, rfl, rfl, rfl, rfl⟩

/-! ## The call -/

/-- The tasks are those of before in a valid heap, and a timer that was armed
for them is still armed. -/
structure Undone (state next : State) : Prop where
  queue : next.heap.slots.Perm state.heap.slots
  valid : next.heap.Valid (key next.tasks)
  awake : state.timerArmed = true -> state.heap.slots ≠ [] -> SameTimer state next

/-- The deadline of a request, when the clock and the calendar give one. -/
def Registration.deadline (request : Registration) (env : RegisterEnv) : Except String Rat :=
  match request with
  | .at deadline => .ok deadline
  | .daily spec =>
      match env.now with
      | none => .error invalidClock
      | some now => nextDailyDeadline env.calendar spec now

def Registration.kind : Registration -> Kind
  | .at _ => .at
  | .daily _ => .daily

def Registration.spec : Registration -> Option DailySpec
  | .at _ => none
  | .daily spec => some spec

theorem register_eq (state : State) (request : Registration) (env : RegisterEnv) :
    register state request env =
      match request.deadline env with
      | .error error => (state, some error)
      | .ok deadline => enqueue state deadline request.kind request.spec env := by
  cases request with
  | «at» deadline => rfl
  | daily spec =>
      unfold register Registration.deadline
      dsimp only
      cases env.now with
      | none => rfl
      | some now =>
          dsimp only
          cases nextDailyDeadline env.calendar spec now with
          | error error => rfl
          | ok deadline => rfl

/-- The call passes all its checks and comes to start the timer anew, and fails. -/
def Call.RestartFails (call : Call) (state : State) (env : RegisterEnv) : Prop :=
  (Exists fun request => call.request = .ok request ∧ (request.deadline env).isOk = true) ∧
    env.context = none ∧ env.action = .function ∧ (ensureTimer state env.timer).2 = none ∧
    Restarts (ensureTimer state env.timer).1 env.arm

/-- `ensure_timer` only looks at the timer. -/
theorem ensureTimer_congr {state other : State} (same : other.timer = state.timer) (env : TimerEnv) :
    (ensureTimer other env).2 = (ensureTimer state env).2 ∧
      (ensureTimer other env).1.timer = (ensureTimer state env).1.timer := by
  unfold ensureTimer
  rw [same]
  cases env.context with
  | some error => exact ⟨rfl, same⟩
  | none =>
      dsimp only
      split
      · cases env.inspection <;> exact ⟨rfl, same⟩
      · cases env.creation with
        | some message => exact ⟨rfl, same⟩
        | none => exact ⟨rfl, rfl⟩

theorem restarts_congr {state other : State} (same : other.timer = state.timer) (env : ArmEnv) :
    Restarts other env <-> Restarts state env := by
  unfold Restarts
  rw [(ensureTimer_congr same env.timer).1]

/-- A call that has only looked around is undone. -/
theorem Undone.untouched {state : State} (sound : Sound state) : Undone state state :=
  ⟨.refl _, sound.valid, fun _ _ => ⟨rfl, rfl⟩⟩

/-- The new task out of the queue again, the queue is what it was; the timer is
as `arm_timer` left it. -/
theorem enqueueTask_failed {state ready next : State} {deadline : Rat} {kind : Kind}
    {spec : Option DailySpec} {env : RegisterEnv} {error : String} (sound : Sound state)
    (outside : state.draining = false) (specified : kind = .daily -> spec.isSome = true)
    (only : TimerOnly (newTask state deadline kind spec) ready) (same : SameTimer state ready)
    (failed : enqueueTask ready state.created env = (next, some error)) :
    next.heap.slots.Perm state.heap.slots ∧ next.heap.Valid (key next.tasks) ∧
      (state.timerArmed = true -> state.heap.slots ≠ [] ->
        (SameTimer state next <-> ¬ Restarts ready env.arm)) := by
  have pushed := only.heapPush state.created
  have outer : (heapPush ready state.created).draining = false := by
    rcases only with ⟨_, _, _, _, rfl⟩
    exact outside
  rcases heapRemove_undoes (sound.enroll deadline specified) with ⟨heap, removed, valid, perm⟩
  unfold enqueueTask at failed
  rw [if_neg (by rw [outer]; exact Bool.false_ne_true)] at failed
  rcases arming : armTimer (heapPush ready state.created) env.arm with ⟨armed, raised⟩
  rw [arming] at failed
  cases raised with
  | none => cases congrArg Prod.snd failed
  | some message =>
      have timers := armTimer_timerOnly (heapPush ready state.created) env.arm
      rw [arming] at timers
      have undone := (pushed.trans timers).heapRemove state.created
      rw [removed] at undone
      have queue : (heapRemove armed state.created).heap = heap ∧
          (heapRemove armed state.created).tasks = (newTask state deadline kind spec).tasks := by
        rcases undone with ⟨_, _, _, _, same⟩
        rw [same]
        exact ⟨rfl, rfl⟩
      dsimp only at failed
      by_cases empty : (heapRemove armed state.created).heap.size = 0
      · rw [if_pos empty] at failed
        obtain rfl := congrArg Prod.fst failed
        have stopped := stopTimer_timerOnly (heapRemove armed state.created) env.arm.stops
        have none_left : state.heap.slots = [] := by
          rw [queue.1] at empty
          exact (List.eq_nil_of_length_eq_zero empty ▸ perm).symm.eq_nil
        have books : (stopTimer (heapRemove armed state.created) env.arm.stops).1.heap = heap := by
          rcases stopped with ⟨_, _, _, _, equal⟩
          rw [equal]
          exact queue.1
        rw [stopped.books.1, queue.2, books]
        exact ⟨perm, valid, fun _ filled => absurd none_left filled⟩
      · rw [if_neg empty] at failed
        obtain rfl := congrArg Prod.fst failed
        rw [queue.1, queue.2]
        refine ⟨perm, valid, ?_⟩
        intro wasArmed _
        have filled : (heapPush ready state.created).heap.slots ≠ [] := by
          intro nothing
          have grown := heapPush_perm ready state.created
          rw [nothing] at grown
          cases grown.symm.eq_nil
        have restarts := @restarts_congr ready (heapPush ready state.created) rfl env.arm
        rcases armTimer_failed filled (same.1.trans wasArmed) arming with
          ⟨kept, stays⟩ | ⟨disarmed, fails⟩
        · refine ⟨fun _ => fun fails => stays (restarts.mpr fails), fun _ => ?_⟩
          exact ⟨kept.1.trans same.1, kept.2.trans same.2⟩
        · refine ⟨fun kept => ?_, fun stays => absurd (restarts.mp fails) stays⟩
          exact absurd (disarmed.symm.trans (kept.1.trans wasArmed)) Bool.false_ne_true

/-- A call of `scheduler:at` or `scheduler:daily` that raises is undone exactly
when it does not stop the armed timer of earlier tasks and then fail to start
it again. -/
theorem failed_registration_undone_iff {state next : State} (sound : Sound state)
    (outside : state.draining = false) {call : Call} {env : RegisterEnv} {error : String}
    (raised : call.run state env = (next, some error)) :
    Undone state next <->
      ¬ (state.timerArmed = true ∧ state.heap.slots ≠ [] ∧ call.RestartFails state env) := by
  -- A call that stops before it arms the timer leaves queue and timer alone.
  have early : next = state -> ¬ call.RestartFails state env -> (Undone state next <->
      ¬ (state.timerArmed = true ∧ state.heap.slots ≠ [] ∧ call.RestartFails state env)) := by
    rintro rfl passes
    exact ⟨fun _ fails => passes fails.2.2, fun _ => .untouched sound⟩
  unfold Call.run at raised
  cases parsed : call.request with
  | error message =>
      rw [parsed] at raised
      refine early (congrArg Prod.fst raised).symm ?_
      rintro ⟨⟨request, same, -⟩, -⟩
      cases parsed.symm.trans same
  | ok request =>
      rw [parsed] at raised
      dsimp only at raised
      rw [register_eq] at raised
      cases given : request.deadline env with
      | error message =>
          rw [given] at raised
          refine early (congrArg Prod.fst raised).symm ?_
          rintro ⟨⟨other, same, valid⟩, -⟩
          obtain rfl := Except.ok.inj (parsed.symm.trans same)
          rw [given] at valid
          cases valid
      | ok deadline =>
          have specified : request.kind = .daily -> request.spec.isSome = true := by
            cases request with
            | «at» _ => exact fun impossible => by cases impossible
            | daily _ => exact fun _ => rfl
          rw [given] at raised
          dsimp only at raised
          unfold enqueue at raised
          split at raised
          · rename_i message context
            refine early (congrArg Prod.fst raised).symm ?_
            rintro ⟨-, clear, -⟩
            cases clear.symm.trans context
          · rename_i context action
            refine early (congrArg Prod.fst raised).symm ?_
            rintro ⟨-, -, isFunction, -⟩
            cases isFunction.symm.trans action
          · rename_i context action
            refine early (congrArg Prod.fst raised).symm ?_
            rintro ⟨-, -, isFunction, -⟩
            cases isFunction.symm.trans action
          · rename_i context action
            have fresh : (newTask state deadline request.kind request.spec).timer = state.timer := rfl
            have congruent := ensureTimer_congr fresh env.timer
            have same := ensureTimer_same (newTask state deadline request.kind request.spec) env.timer
            have only := ensureTimer_timerOnly (newTask state deadline request.kind request.spec)
              env.timer
            rcases ensured : ensureTimer (newTask state deadline request.kind request.spec) env.timer
              with ⟨ready, message⟩
            rw [ensured] at raised congruent same only
            cases message with
            | some message =>
                obtain rfl := congrArg Prod.fst raised
                have passes : ¬ call.RestartFails state env := by
                  rintro ⟨-, -, -, made, -⟩
                  cases congruent.1.trans made
                refine ⟨fun _ fails => passes fails.2.2, fun _ => ?_⟩
                rcases only with ⟨_, _, _, _, equal⟩
                refine ⟨?_, ?_, fun _ _ => same.1⟩
                · rw [equal]
                  exact .refl _
                · rw [equal]
                  exact (sound.newTask deadline specified).valid
            | none =>
                rcases enqueueTask_failed sound outside specified only same.1 raised with
                  ⟨perm, valid, awake⟩
                have restarts : Restarts ready env.arm <->
                    Restarts (ensureTimer state env.timer).1 env.arm :=
                  restarts_congr congruent.2 env.arm
                constructor
                · rintro undone ⟨armed, filled, -, -, -, -, fails⟩
                  exact (awake armed filled).mp (undone.awake armed filled) (restarts.mpr fails)
                · intro spared
                  refine ⟨perm, valid, ?_⟩
                  intro armed filled
                  apply (awake armed filled).mpr
                  intro fails
                  refine spared ⟨armed, filled, ⟨request, parsed, ?_⟩, context, action,
                    congruent.1.symm, restarts.mp fails⟩
                  rw [given]
                  rfl

/-- Local time is never asked. -/
def noLocalTime : LocalTime :=
  ⟨fun _ => none, fun _ => none⟩

def atSeven : Call :=
  .at true noLocalTime (.number (some 7))

theorem atSeven_request : atSeven.request = .ok (.at 7000) := by
  have small : |(7 : Rat) * 1000| < infinityThreshold := by
    have large : (1 : Rat) ≤ 2 ^ 970 := one_le_pow₀ (by norm_num)
    have scaled := mul_le_mul_of_nonneg_right large (show (0 : Rat) ≤ 2 ^ 54 - 1 by norm_num)
    unfold infinityThreshold
    refine lt_of_lt_of_le ?_ scaled
    norm_num
  have deadline : (7 : Rat) * 1000 = 7000 := by norm_num
  unfold atSeven Call.request
  dsimp only
  rw [if_pos rfl, parseAtTimestamp, if_pos small, deadline]
  rfl

/-- The surroundings of a registration whose timer is armed in the given way. -/
def arming (arm : ArmEnv) : RegisterEnv :=
  ⟨some 0, ⟨fun _ => none, fun _ _ => none⟩, none, .function, ⟨none, .usable, none⟩, arm⟩

/-- One task is queued, and the timer is armed for it. -/
def OneArmed (state : State) : Prop :=
  state.draining = false ∧ state.timerArmed = true ∧ state.heap.slots = [0]

instance : DecidablePred OneArmed :=
  fun state => inferInstanceAs (Decidable (state.draining = false ∧ _ ∧ _))

theorem failed_registration_undone_clock :
    Exists fun state => Exists fun next => Exists fun error => machine.Reachable state ∧
      OneArmed state ∧
      atSeven.run state (arming ⟨⟨none, .usable, none⟩, none, true, true⟩) = (next, some error) ∧
      Undone state next := by
  have ends : ((machine.run .loaded [.register (.at 5000)
      (arming ⟨⟨none, .usable, none⟩, some 0, true, true⟩)]).any fun state => decide
      (OneArmed state ∧ (register state (.at 7000)
        (arming ⟨⟨none, .usable, none⟩, none, true, true⟩)).2 = some invalidClock)) = true := by
    decide +kernel
  rcases machine.exists_reachable rfl ends with ⟨state, reachable, one, fails⟩
  have raised : atSeven.run state (arming ⟨⟨none, .usable, none⟩, none, true, true⟩) =
      ((register state (.at 7000) (arming ⟨⟨none, .usable, none⟩, none, true, true⟩)).1,
        some invalidClock) := by
    unfold Call.run
    rw [atSeven_request]
    dsimp only
    rw [← fails]
  refine ⟨state, _, _, reachable, one, raised, ?_⟩
  apply (failed_registration_undone_iff (reachable_sound reachable) one.1 raised).mpr
  rintro ⟨-, -, -, -, -, -, -, reads, -⟩
  cases reads

/-- The timer cannot be started again: the earlier task is queued and will not fire. -/
theorem failed_registration_disarms :
    Exists fun state => Exists fun next => Exists fun error => machine.Reachable state ∧
      OneArmed state ∧
      atSeven.run state (arming ⟨⟨none, .usable, none⟩, some 0, true, false⟩) =
        (next, some error) ∧ ¬ Undone state next := by
  have ends : ((machine.run .loaded [.register (.at 5000)
      (arming ⟨⟨none, .usable, none⟩, some 0, true, true⟩)]).any fun state => decide
      (OneArmed state ∧ (register state (.at 7000)
        (arming ⟨⟨none, .usable, none⟩, some 0, true, false⟩)).2 =
          some "scheduler: could not start timer" ∧
        (register state (.at 7000)
          (arming ⟨⟨none, .usable, none⟩, some 0, true, false⟩)).1.timerArmed = false)) = true := by
    decide +kernel
  rcases machine.exists_reachable rfl ends with ⟨state, reachable, one, fails, disarmed⟩
  have raised : atSeven.run state (arming ⟨⟨none, .usable, none⟩, some 0, true, false⟩) =
      ((register state (.at 7000) (arming ⟨⟨none, .usable, none⟩, some 0, true, false⟩)).1,
        some "scheduler: could not start timer") := by
    unfold Call.run
    rw [atSeven_request]
    dsimp only
    rw [← fails]
  refine ⟨state, _, _, reachable, one, raised, ?_⟩
  intro undone
  have filled : state.heap.slots ≠ [] := by
    rw [one.2.2]
    exact List.cons_ne_nil _ _
  have kept := (undone.awake one.2.1 filled).1
  cases disarmed.symm.trans (kept.trans one.2.1)

end Scheduler
end ServiceRuntime
