import Mathlib.Data.Rat.Floor
import Mathlib.Data.Prod.Lex
import ServiceRuntime.Foundation.Heap
import ServiceRuntime.Foundation.Transition

namespace ServiceRuntime
namespace Scheduler

open Foundation

/-!
# The scheduler

`service.scheduler` keeps the tasks of one Lua state in a binary heap and wakes
itself with one luv timer.  Its functions run to completion, except that
`on_timer` hands control to the actions of the tasks: an action may register
further tasks, let the timer call back again, raise, or return.

A step of the machine is what happens between two points at which the code of
the user has control.  Everything the surroundings decide is part of the
action: the readings of the clock and of the calendar, and whether the timer
does what it is told.

Times are milliseconds, and Lua's doubles are rationals here.  The clock and
the calendar give integers below `2^53`, the clock from zero on, and doubles
compute exactly on these.  The deadline of `scheduler:at` is any double: there
the subtraction of `arm_timer` is exact as well, or the delay is one of its two
limits, rounded or not.
-/

/-- A task table, named by the order of its creation. -/
abbrev Ref := Nat

inductive Kind where
  | at
  | daily
  deriving DecidableEq, Repr

/-- What `parse_daily_time` returns. -/
structure DailySpec where
  hour : Int
  minute : Int
  second : Int
  deriving DecidableEq, Repr

/-- The task tables without `heap_index`, which the heap keeps, and without
`action`, whose behaviour is free. -/
structure Task where
  deadline : Rat
  sequence : Nat
  kind : Kind
  dailySpec : Option DailySpec
  deriving DecidableEq, Repr

/-- `MAX_TASKS_PER_TICK`. -/
def maxTasksPerTick : Nat := 256

/-- `MAX_RECHECK_MS`. -/
def maxRecheckMs : Int := 60 * 1000

/-! ## The calendar -/

/-- The fields of `os.date("*t")` that are read. -/
structure Date where
  year : Int
  month : Int
  day : Int
  deriving DecidableEq, Repr

/-- `os.date` and `os.time` as they are when they are called. -/
structure Calendar where
  date : Int -> Option Date
  time : Date -> DailySpec -> Option Int

def outsideLocalTime : String :=
  "scheduler: daily time is outside the local time range"

def nextDailyDeadline (calendar : Calendar) (spec : DailySpec) (now : Rat) : Except String Rat :=
  match calendar.date ⌊now / 1000⌋ with
  | none => .error "time result cannot be represented"
  | some date =>
      match calendar.time date spec with
      | none => .error outsideLocalTime
      | some candidate =>
          if (candidate : Rat) * 1000 ≤ now then
            match calendar.time { date with day := date.day + 1 } spec with
            | none => .error outsideLocalTime
            | some later => .ok ((later : Rat) * 1000)
          else .ok ((candidate : Rat) * 1000)

/-! ## The state -/

/-- An action that is executing, and how many the drain had processed before. -/
structure Execution where
  task : Ref
  processed : Nat
  deriving DecidableEq, Repr

/-- One call of an action: the task as it was, the clock reading just taken,
the drain it belongs to and the keys of the tasks left in the queue. -/
structure Invocation where
  task : Ref
  deadline : Rat
  sequence : Nat
  now : Rat
  tick : Nat
  others : List (Rat ×ₗ Nat)

/-- The module-level variables of the scheduler, the task tables made so far,
and the luv timer: `pending` is the delay of the callback it owes.  The last
four fields are ghost: the tasks whose registration returned, the calls of
actions, and how many drains have begun and timers have been made. -/
structure State where
  tasks : Ref -> Task
  created : Nat
  heap : Heap Ref
  sequence : Nat
  timer : Bool
  timerArmed : Bool
  pending : Option Int
  draining : Bool
  executing : Option Execution
  registered : List Ref
  invocations : List Invocation
  tick : Nat
  timersCreated : Nat

/-- The state after the module has been loaded. -/
def State.loaded : State where
  tasks := fun _ => ⟨0, 0, .at, none⟩
  created := 0
  heap := .empty
  sequence := 0
  timer := false
  timerArmed := false
  pending := none
  draining := false
  executing := none
  registered := []
  invocations := []
  tick := 0
  timersCreated := 0

/-- The order of the queue. -/
def key (tasks : Ref -> Task) (ref : Ref) : Rat ×ₗ Nat :=
  toLex ((tasks ref).deadline, (tasks ref).sequence)

def taskBefore (tasks : Ref -> Task) (left right : Ref) : Bool :=
  decide ((tasks left).deadline < (tasks right).deadline) ||
    (decide ((tasks left).deadline = (tasks right).deadline) &&
      decide ((tasks left).sequence < (tasks right).sequence))

def heapPush (state : State) (ref : Ref) : State :=
  { state with heap := state.heap.push (taskBefore state.tasks) ref }

def heapPop (state : State) : Option (Ref × State) :=
  (state.heap.pop (taskBefore state.tasks)).map fun (root, heap) => (root, { state with heap })

def heapRemove (state : State) (ref : Ref) : State :=
  { state with heap := (state.heap.remove (taskBefore state.tasks) ref).getD state.heap }

/-! ## The timer -/

/-- What `timer:is_closing()` says. -/
inductive Inspection where
  | usable
  | closing
  | failed
  deriving DecidableEq, Repr

/-- What `ensure_timer` meets: the error of `ensure_context`, the inspection of
an existing timer, and the error of creating one, with the message luv gives. -/
structure TimerEnv where
  context : Option String
  inspection : Inspection
  creation : Option (Option String)
  deriving DecidableEq, Repr

def ensureTimer (state : State) (env : TimerEnv) : State × Option String :=
  match env.context with
  | some error => (state, some error)
  | none =>
      if state.timer then
        match env.inspection with
        | .usable => (state, none)
        | .failed => (state, some "scheduler: could not inspect timer state")
        | .closing => (state, some "scheduler: scheduler timer is already closed")
      else
        match env.creation with
        | some message =>
            (state, some ("scheduler: could not create timer" ++
              (message.map fun text => ": " ++ text).getD ""))
        | none => ({ state with timer := true, timersCreated := state.timersCreated + 1 }, none)

def stopTimer (state : State) (stops : Bool) : State × Option String :=
  if state.timer && state.timerArmed then
    if stops then ({ state with timerArmed := false, pending := none }, none)
    else (state, some "scheduler: could not stop timer")
  else ({ state with timerArmed := false }, none)

/-- The delay `arm_timer` computes. -/
def delayUntil (deadline now : Rat) : Int :=
  let remaining := if deadline - now < 0 then 0 else deadline - now
  let delay := ⌈remaining⌉
  if maxRecheckMs < delay then maxRecheckMs else delay

/-- What `arm_timer` meets. -/
structure ArmEnv where
  timer : TimerEnv
  now : Option Rat
  stops : Bool
  starts : Bool
  deriving DecidableEq, Repr

def invalidClock : String :=
  "scheduler: uv.gettimeofday returned an invalid value"

def armTimer (state : State) (env : ArmEnv) : State × Option String :=
  match state.heap.entry 1 with
  | none => stopTimer state env.stops
  | some top =>
      match ensureTimer state env.timer with
      | (ready, some error) => (ready, some error)
      | (ready, none) =>
          match env.now with
          | none => (ready, some invalidClock)
          | some now =>
              match if ready.timerArmed then stopTimer ready env.stops else (ready, none) with
              | (stopped, some error) => (stopped, some error)
              | (stopped, none) =>
                  if env.starts then
                    ({ stopped with
                        timerArmed := true
                        pending := some (delayUntil (state.tasks top).deadline now) }, none)
                  else (stopped, some "scheduler: could not start timer")

/-! ## Registering -/

/-- A registration whose time has been parsed. -/
inductive Registration where
  | at (deadline : Rat)
  | daily (spec : DailySpec)
  deriving DecidableEq, Repr

/-- The type of the value passed as the action. -/
inductive ActionType where
  | function
  | table
  | other
  deriving DecidableEq, Repr

/-- What a registration meets; `now` and `calendar` are read by
`scheduler:daily`. -/
structure RegisterEnv where
  now : Option Rat
  calendar : Calendar
  context : Option String
  action : ActionType
  timer : TimerEnv
  arm : ArmEnv

/-- The task table `enqueue` makes. -/
def newTask (state : State) (deadline : Rat) (kind : Kind) (spec : Option DailySpec) : State :=
  { state with
    tasks := Function.update state.tasks state.created ⟨deadline, state.sequence + 1, kind, spec⟩
    created := state.created + 1
    sequence := state.sequence + 1 }

/-- `enqueue` once the timer is there. -/
def enqueueTask (state : State) (ref : Ref) (env : RegisterEnv) : State × Option String :=
  let queued := heapPush state ref
  if queued.draining then ({ queued with registered := queued.registered ++ [ref] }, none)
  else
    match armTimer queued env.arm with
    | (armed, none) => ({ armed with registered := armed.registered ++ [ref] }, none)
    | (armed, some error) =>
        let removed := heapRemove armed ref
        if removed.heap.size = 0 then ((stopTimer removed env.arm.stops).1, some error)
        else (removed, some error)

def enqueue (state : State) (deadline : Rat) (kind : Kind) (spec : Option DailySpec)
    (env : RegisterEnv) : State × Option String :=
  match env.context, env.action with
  | some error, _ => (state, some error)
  | none, .table => (state, some "scheduler: action table is not supported yet")
  | none, .other => (state, some "scheduler: action must be a function")
  | none, .function =>
      match ensureTimer (newTask state deadline kind spec) env.timer with
      | (ready, some error) => (ready, some error)
      | (ready, none) => enqueueTask ready state.created env

/-- `scheduler:at` and `scheduler:daily`, with the error they raise. -/
def register (state : State) (request : Registration) (env : RegisterEnv) : State × Option String :=
  match request with
  | .at deadline => enqueue state deadline .at none env
  | .daily spec =>
      match env.now with
      | none => (state, some invalidClock)
      | some now =>
          match nextDailyDeadline env.calendar spec now with
          | .error error => (state, some error)
          | .ok deadline => enqueue state deadline .daily (some spec) env

/-! ## Draining -/

/-- What the drain meets between two actions: the reading for the next
deadline of a daily task, the calendar, the reading at the head of the loop,
and what `arm_timer` meets when the loop is left. -/
structure DrainEnv where
  dailyNow : Option Rat
  calendar : Calendar
  now : Option Rat
  arm : ArmEnv

/-- `report_error` writes to the log and touches nothing else. -/
def reportError (state : State) (_error : Option String) : State :=
  state

/-- `on_timer` after its loop, with the error that aborted the loop. -/
def leaveDrain (state : State) (aborted : Option String) (env : DrainEnv) : State :=
  let left := reportError { state with draining := false } aborted
  let (armed, error) := armTimer left env.arm
  reportError armed error

/-- `invoke_action`, up to the point where the action has control. -/
def invokeAction (state : State) (ref : Ref) (processed : Nat) (now : Rat) : State :=
  { state with
    executing := some ⟨ref, processed⟩
    invocations := state.invocations ++
      [⟨ref, (state.tasks ref).deadline, (state.tasks ref).sequence, now, state.tick,
        state.heap.slots.map (key state.tasks)⟩] }

/-- The head of the loop. -/
def drainLoop (state : State) (processed : Nat) (env : DrainEnv) : State :=
  match env.now with
  | none => leaveDrain state (some invalidClock) env
  | some now =>
      if (state.heap.entry 1).any (fun top => decide ((state.tasks top).deadline ≤ now)) &&
          decide (processed < maxTasksPerTick) then
        match heapPop state with
        | some (root, popped) => invokeAction popped root processed now
        | none => leaveDrain state none env
      else leaveDrain state none env

/-- `on_timer` before its loop; luv has stopped the timer before it calls back. -/
def beginDrain (state : State) : State :=
  { state with timerArmed := false, pending := none, draining := true, tick := state.tick + 1 }

def onTimer (state : State) (env : DrainEnv) : State :=
  if state.draining then state else drainLoop (beginDrain state) 0 env

/-- A daily task gets its next deadline and a new sequence number. -/
def renewTask (state : State) (ref : Ref) (deadline : Rat) : State :=
  { state with
    sequence := state.sequence + 1
    tasks := Function.update state.tasks ref
      { state.tasks ref with deadline, sequence := state.sequence + 1 } }

/-- Put a daily task back for its next day. -/
def requeue (state : State) (ref : Ref) (env : DrainEnv) : State × Option String :=
  match env.dailyNow with
  | none => (state, some invalidClock)
  | some now =>
      match (state.tasks ref).dailySpec.map fun spec => nextDailyDeadline env.calendar spec now with
      | none => (state, some "attempt to index local 'spec' (a nil value)")
      | some (.error error) => (state, some error)
      | some (.ok deadline) => (heapPush (renewTask state ref deadline) ref, none)

/-- The loop body after the action has returned or raised. -/
def finishAction (state : State) (execution : Execution) (raised : Option String) (env : DrainEnv) :
    State :=
  let ended := reportError { state with executing := none } raised
  match (ended.tasks execution.task).kind with
  | .at => drainLoop ended (execution.processed + 1) env
  | .daily =>
      match requeue ended execution.task env with
      | (queued, none) => drainLoop queued (execution.processed + 1) env
      | (failed, some error) => leaveDrain failed (some error) env

/-! ## The machine -/

/-- Somebody registers a task, luv calls back, or the executing action ends. -/
inductive Action where
  | register (request : Registration) (env : RegisterEnv)
  | timer (env : DrainEnv)
  | finish (raised : Option String) (env : DrainEnv)

def step (state : State) : Action -> Option State
  | .register request env => some (register state request env).1
  | .timer env => some (onTimer state env)
  | .finish raised env => state.executing.map fun execution => finishAction state execution raised env

def machine : Machine State Action where
  initial := fun state => state = .loaded
  step := step

end Scheduler
end ServiceRuntime
