import Mathlib.Algebra.Order.Floor.Ring
import Mathlib.Data.Rat.Floor
import Mathlib.Order.Bounds.Basic
import ServiceRuntime.Scheduler.Queue
import ServiceRuntime.Scheduler.Timestamp

namespace ServiceRuntime
namespace Scheduler

open Foundation

/-!
# The deadlines of daily tasks

`next_daily_deadline` asks `os.date` for the local date of the clock reading
and `os.time` for the moment of that date, or of the day after it, at the time
of day of the task.  Under a calendar at a fixed offset this is the next such
moment; the deadlines of a daily task then grow along every run on a clock that
does not go back.
-/

/-! ## The time of day -/

/-- A field of the table passed to `scheduler:daily`; a number is none when it
is not finite. -/
inductive DailyField where
  | absent
  | number (value : Option Rat)
  | other

inductive DailyTime where
  | text (value : LuaText)
  | table (hour minute second : DailyField)
  | other

def checkInteger (field : DailyField) (name : String) : Except String Int :=
  match field with
  | .number (some value) =>
      if value = ⌊value⌋ then .ok ⌊value⌋
      else .error ("scheduler: daily " ++ name ++ " must be an integer")
  | _ => .error ("scheduler: daily " ++ name ++ " must be an integer")

/-- `(%d%d):(%d%d):(%d%d)` -/
def dailyPattern : List (Item UInt8) :=
  Item.captured (digits 2) ++ (Item.plain [isByte ':'] ++ (Item.captured (digits 2) ++
    (Item.plain [isByte ':'] ++ (Item.captured (digits 2) ++ []))))

/-- The three numbers, before their ranges are checked. -/
def readDailyTime : DailyTime -> Except String DailySpec
  | .text value =>
      match Item.captures dailyPattern value with
      | some [hour, minute, second] => .ok ⟨tonumber hour, tonumber minute, tonumber second⟩
      | _ => .error "scheduler: daily time must use HH:MM:SS"
  | .table hour minute second =>
      match checkInteger hour "hour" with
      | .error error => .error error
      | .ok hour =>
          match if minute matches .absent then .ok 0 else checkInteger minute "minute" with
          | .error error => .error error
          | .ok minute =>
              match if second matches .absent then .ok 0 else checkInteger second "second" with
              | .error error => .error error
              | .ok second => .ok ⟨hour, minute, second⟩
  | .other => .error "scheduler: daily time must be a table or HH:MM:SS string"

def parseDailyTime (value : DailyTime) : Except String DailySpec :=
  match readDailyTime value with
  | .error error => .error error
  | .ok spec =>
      if spec.hour < 0 ∨ 23 < spec.hour ∨ spec.minute < 0 ∨ 59 < spec.minute ∨ spec.second < 0 ∨
          59 < spec.second then
        .error "scheduler: daily time is outside the valid range"
      else .ok spec

/-- Seconds since midnight. -/
def DailySpec.secondOfDay (spec : DailySpec) : Int :=
  spec.hour * 3600 + spec.minute * 60 + spec.second

/-- What the parser promises. -/
theorem parseDailyTime_bounds {value : DailyTime} {spec : DailySpec}
    (parsed : parseDailyTime value = .ok spec) :
    0 ≤ spec.secondOfDay ∧ spec.secondOfDay < 86400 := by
  unfold parseDailyTime at parsed
  split at parsed
  · cases parsed
  · split at parsed
    · cases parsed
    · rename_i inside
      obtain rfl := Except.ok.inj parsed
      unfold DailySpec.secondOfDay
      omega

/-! ## The calendar -/

def Date.civil (date : Date) : CivilDate :=
  ⟨date.year, date.month, date.day⟩

/-- `os.date` and `os.time` are the proleptic Gregorian calendar, the given
number of seconds ahead of the meridian; `os.time` takes any day of a month of
the year. -/
structure Gregorian (offset : Int) (calendar : Calendar) : Prop where
  date : forall second, Exists fun date => calendar.date second = some date ∧ date.civil.Valid ∧
    date.civil.dayNumber = (second + offset) / 86400
  time : forall date spec, 1 ≤ date.month ∧ date.month ≤ 12 ->
    calendar.time date spec = some (date.civil.dayNumber * 86400 + spec.secondOfDay - offset)

/-- Such a calendar. -/
def gregorianCalendar (offset : Int) : Calendar where
  date := fun second =>
    let date := ofDayNumber ((second + offset) / 86400)
    some ⟨date.year, date.month, date.day⟩
  time := fun date spec => some (date.civil.dayNumber * 86400 + spec.secondOfDay - offset)

theorem gregorianCalendar_gregorian (offset : Int) : Gregorian offset (gregorianCalendar offset) where
  date := fun _ => ⟨_, rfl, ofDayNumber_valid _, dayNumber_ofDayNumber _⟩
  time := fun _ _ _ => rfl

/-- The moments in milliseconds at which it is the given time of day. -/
def Occurs (offset : Int) (spec : DailySpec) (moment : Rat) : Prop :=
  Exists fun second : Int => moment = second * 1000 ∧ (second + offset) % 86400 = spec.secondOfDay

/-- Milliseconds compare as the seconds they are floored to. -/
theorem second_le_iff (second : Int) (now : Rat) :
    (second : Rat) * 1000 ≤ now <-> second ≤ ⌊now / 1000⌋ := by
  rw [Int.le_floor, le_div_iff₀ (by norm_num)]

/-- The candidates are the moments before and after the clock reading. -/
theorem candidate_least {offset second : Int} {spec : DailySpec} (begins : 0 ≤ spec.secondOfDay)
    (ends : spec.secondOfDay < 86400) {candidate : Int}
    (today : candidate = (second + offset) / 86400 * 86400 + spec.secondOfDay - offset) :
    (candidate + offset) % 86400 = spec.secondOfDay ∧ second < candidate + 86400 ∧
      forall other, second < other -> (other + offset) % 86400 = spec.secondOfDay ->
        candidate ≤ other ∧ (candidate ≤ second -> candidate + 86400 ≤ other) := by
  refine ⟨by omega, by omega, ?_⟩
  intro other after occurs
  constructor <;> omega

theorem nextDailyDeadline_least {offset : Int} {calendar : Calendar}
    (gregorian : Gregorian offset calendar) {spec : DailySpec} (begins : 0 ≤ spec.secondOfDay)
    (ends : spec.secondOfDay < 86400) (now : Rat) :
    Exists fun deadline => nextDailyDeadline calendar spec now = .ok deadline ∧
      IsLeast { moment | now < moment ∧ Occurs offset spec moment } deadline := by
  rcases gregorian.date ⌊now / 1000⌋ with ⟨date, today, valid, number⟩
  have month : 1 ≤ date.month ∧ date.month ≤ 12 := valid.month
  -- The day after is the next day number, also where it lies outside the month.
  have next : (Date.civil { date with day := date.day + 1 }).dayNumber =
      date.civil.dayNumber + 1 := by
    unfold CivilDate.dayNumber Date.civil
    dsimp only
    omega
  have found := gregorian.time date spec month
  have later := gregorian.time { date with day := date.day + 1 } spec month
  rw [next, number] at later
  rw [number] at found
  obtain ⟨candidate, same⟩ : Exists fun candidate => candidate =
      (⌊now / 1000⌋ + offset) / 86400 * 86400 + spec.secondOfDay - offset := ⟨_, rfl⟩
  have after : ((⌊now / 1000⌋ + offset) / 86400 + 1) * 86400 + spec.secondOfDay - offset =
      candidate + 86400 := by omega
  rw [← same] at found
  rw [after] at later
  rcases candidate_least begins ends same with ⟨occurs, tomorrow, least⟩
  have bounded : forall {second : Int} {moment : Rat}, Occurs offset spec moment -> now < moment ->
      (forall other, ⌊now / 1000⌋ < other -> (other + offset) % 86400 = spec.secondOfDay ->
        second ≤ other) -> (second : Rat) * 1000 ≤ moment := by
    rintro second _ ⟨other, rfl, occurs⟩ future below
    have passed := below other (not_le.mp fun early => not_le.mpr future
      ((second_le_iff other now).mpr early)) occurs
    have cast : (second : Rat) ≤ other := Int.cast_le.mpr passed
    linarith
  unfold nextDailyDeadline
  rw [today]
  dsimp only
  rw [found]
  dsimp only
  by_cases early : (candidate : Rat) * 1000 ≤ now
  · rw [if_pos early, later]
    have before := (second_le_iff candidate now).mp early
    refine ⟨_, rfl, ⟨?_, candidate + 86400, rfl, ?_⟩, ?_⟩
    · exact not_le.mp fun late => absurd ((second_le_iff _ now).mp late) (not_le.mpr tomorrow)
    · omega
    · rintro moment ⟨future, when⟩
      exact bounded when future fun other passed there => (least other passed there).2 before
  · rw [if_neg early]
    refine ⟨_, rfl, ⟨not_le.mp early, candidate, rfl, occurs⟩, ?_⟩
    rintro moment ⟨future, when⟩
    exact bounded when future fun other passed there => (least other passed there).1

/-! ## Runs on a clock that does not go back -/

/-- The clock readings a step takes, in their order. -/
def Action.readings : Action -> List Rat
  | .register (.at _) env => env.arm.now.toList
  | .register (.daily _) env => env.now.toList ++ env.arm.now.toList
  | .timer env => env.now.toList ++ env.arm.now.toList
  | .finish _ env => env.dailyNow.toList ++ (env.now.toList ++ env.arm.now.toList)

def Action.calendar : Action -> Calendar
  | .register _ env => env.calendar
  | .timer env => env.calendar
  | .finish _ env => env.calendar

/-- What is registered has been parsed. -/
def Action.Parsed : Action -> Prop
  | .register (.daily spec) _ => Exists fun value => parseDailyTime value = .ok spec
  | _ => True

/-- The states of the runs under a calendar at one offset, with a bound on the
readings so far that every later reading respects. -/
inductive Clocked (offset : Int) : Rat -> State -> Prop
  | loaded (start : Rat) : Clocked offset start .loaded
  | step {last later : Rat} {state next : State} {action : Action}
      (before : Clocked offset last state) (gregorian : Gregorian offset action.calendar)
      (parsed : action.Parsed) (ordered : (last :: (action.readings ++ [later])).Pairwise (· ≤ ·))
      (moved : step state action = some next) : Clocked offset later next

def State.isDaily (state : State) (ref : Ref) : Prop :=
  (state.tasks ref).kind = .daily

/-- The deadlines of every daily task grow. -/
structure Rising (state : State) : Prop where
  logged : state.invocations.Pairwise fun first second =>
    first.task = second.task -> state.isDaily first.task -> first.deadline < second.deadline
  queued : forall invocation, invocation ∈ state.invocations -> state.isDaily invocation.task ->
    invocation.task ∈ state.heap.slots ->
    invocation.deadline < (state.tasks invocation.task).deadline

/-- The invariant behind it: the deadline of a task is its latest, and that of
an executing task has been reached. -/
structure Timely (last : Rat) (state : State) : Prop extends Rising state where
  sound : Sound state
  valid : forall ref spec, ref < state.created -> (state.tasks ref).dailySpec = some spec ->
    0 ≤ spec.secondOfDay ∧ spec.secondOfDay < 86400
  known : forall invocation, invocation ∈ state.invocations -> invocation.task < state.created
  reached : forall execution, state.executing = some execution ->
    (state.tasks execution.task).deadline ≤ last
  behind : forall invocation, invocation ∈ state.invocations -> state.isDaily invocation.task ->
    invocation.deadline ≤ (state.tasks invocation.task).deadline

theorem Timely.later {last later : Rat} {state : State} (timely : Timely last state)
    (passed : last ≤ later) : Timely later state :=
  { timely with
    reached := fun execution executing => (timely.reached execution executing).trans passed }

/-- The timer is not looked at, nor whether the queue is drained. -/
theorem Timely.frame {last : Rat} {state next : State} (timely : Timely last state)
    (sound : Sound next) (only : Exists fun draining => TimerOnly { state with draining } next) :
    Timely last next := by
  rcases only with ⟨_, _, _, _, _, rfl⟩
  exact ⟨⟨timely.logged, timely.queued⟩, sound, timely.valid, timely.known, timely.reached,
    timely.behind⟩

/-! ## Registering -/

theorem TimerOnly.books {state next : State} (only : TimerOnly state next) :
    next.tasks = state.tasks ∧ next.created = state.created := by
  rcases only with ⟨_, _, _, _, rfl⟩
  exact ⟨rfl, rfl⟩

theorem enqueueTask_books (state : State) (ref : Ref) (env : RegisterEnv) :
    (enqueueTask state ref env).1.tasks = state.tasks ∧
      (enqueueTask state ref env).1.created = state.created := by
  have armed := (armTimer_timerOnly (heapPush state ref) env.arm).books
  unfold enqueueTask
  dsimp only
  split
  · exact ⟨rfl, rfl⟩
  · split
    · rename_i final result
      rw [result] at armed
      exact armed
    · rename_i final error result
      rw [result] at armed
      have stopped := (stopTimer_timerOnly (heapRemove final ref) env.arm.stops).books
      split
      · exact ⟨stopped.1.trans armed.1, stopped.2.trans armed.2⟩
      · exact armed

/-- A registration writes at most the task it makes, and makes it as it was asked to. -/
theorem register_books (state : State) (request : Registration) (env : RegisterEnv) :
    ((register state request env).1.tasks = state.tasks ∧
      (register state request env).1.created = state.created) ∨
    Exists fun deadline => Exists fun kind => Exists fun spec =>
      (register state request env).1.tasks = (newTask state deadline kind spec).tasks ∧
      (register state request env).1.created = state.created + 1 ∧
      forall given, spec = some given -> request = .daily given := by
  have enqueued : forall deadline kind spec,
      ((enqueue state deadline kind spec env).1.tasks = state.tasks ∧
        (enqueue state deadline kind spec env).1.created = state.created) ∨
      ((enqueue state deadline kind spec env).1.tasks = (newTask state deadline kind spec).tasks ∧
        (enqueue state deadline kind spec env).1.created = state.created + 1) := by
    intro deadline kind spec
    have made := (ensureTimer_timerOnly (newTask state deadline kind spec) env.timer).books
    unfold enqueue
    split
    · exact Or.inl ⟨rfl, rfl⟩
    · exact Or.inl ⟨rfl, rfl⟩
    · exact Or.inl ⟨rfl, rfl⟩
    · split
      · rename_i ready error ensured
        rw [ensured] at made
        exact Or.inr made
      · rename_i ready ensured
        rw [ensured] at made
        have entered := enqueueTask_books ready state.created env
        exact Or.inr ⟨entered.1.trans made.1, entered.2.trans made.2⟩
  cases request with
  | «at» deadline =>
      refine (enqueued deadline .at none).imp_right fun made => ⟨deadline, .at, none, made.1, made.2, ?_⟩
      rintro given ⟨⟩
  | daily spec =>
      unfold register
      dsimp only
      split
      · exact Or.inl ⟨rfl, rfl⟩
      · split
        · exact Or.inl ⟨rfl, rfl⟩
        · rename_i deadline _
          refine (enqueued deadline .daily (some spec)).imp_right fun made =>
            ⟨deadline, .daily, some spec, made.1, made.2, ?_⟩
          rintro given ⟨⟩
          rfl

/-- A task that is made has never been invoked. -/
theorem Timely.newTask {last : Rat} {state : State} (timely : Timely last state) (deadline : Rat)
    {kind : Kind} {spec : Option DailySpec} (specified : kind = .daily -> spec.isSome = true)
    (valid : forall given, spec = some given -> 0 ≤ given.secondOfDay ∧ given.secondOfDay < 86400) :
    Timely last (newTask state deadline kind spec) := by
  have same : forall invocation, invocation ∈ state.invocations ->
      (Scheduler.newTask state deadline kind spec).tasks invocation.task =
        state.tasks invocation.task :=
    fun invocation member => newTask_other state deadline kind spec (timely.known invocation member)
  have daily : forall invocation, invocation ∈ state.invocations ->
      (Scheduler.newTask state deadline kind spec).isDaily invocation.task ->
        state.isDaily invocation.task := by
    intro invocation member isDaily
    unfold State.isDaily at isDaily ⊢
    rw [← same invocation member]
    exact isDaily
  constructor
  · constructor
    · apply timely.logged.imp_of_mem
      intro first second member _ rises equal isDaily
      exact rises equal (daily first member isDaily)
    · intro invocation member isDaily queued
      rw [same invocation member]
      exact timely.queued invocation member (daily invocation member isDaily) queued
  · exact timely.sound.newTask deadline specified
  · intro ref given below specifies
    rcases Nat.lt_succ_iff_lt_or_eq.mp below with older | rfl
    · rw [newTask_other state deadline kind spec older] at specifies
      exact timely.valid ref given older specifies
    · rw [newTask_self] at specifies
      exact valid given specifies
  · exact fun invocation member => Nat.lt_succ_of_lt (timely.known invocation member)
  · intro execution executing
    rw [newTask_other state deadline kind spec (timely.sound.apart execution executing).2]
    exact timely.reached execution executing
  · intro invocation member isDaily
    rw [same invocation member]
    exact timely.behind invocation member (daily invocation member isDaily)

/-- Tasks may leave the queue, and enter it that were never invoked. -/
theorem Timely.requeue {last : Rat} {state : State} (timely : Timely last state) {heap : Heap Ref}
    {registered : List Ref} (sound : Sound { state with heap, registered })
    (fresh : forall ref, ref ∈ heap.slots -> ref ∈ state.heap.slots ∨
      forall invocation, invocation ∈ state.invocations -> invocation.task ≠ ref) :
    Timely last { state with heap, registered } := by
  refine ⟨⟨timely.logged, ?_⟩, sound, timely.valid, timely.known, timely.reached, timely.behind⟩
  intro invocation member isDaily queued
  rcases fresh invocation.task queued with before | never
  · exact timely.queued invocation member isDaily before
  · exact absurd rfl (never invocation member)

theorem Timely.register {last : Rat} {state : State} (timely : Timely last state)
    (request : Registration) (env : RegisterEnv)
    (parsed : Action.Parsed (.register request env)) : Timely last (register state request env).1 := by
  have enrolled := register_enrolled timely.sound request env
  have sound := enrolled.sound timely.sound
  -- The specification in the new task is the one that was asked for.
  have bounded : forall {deadline kind spec},
      (Scheduler.register state request env).1.tasks =
        (Scheduler.newTask state deadline kind spec).tasks ->
      (Scheduler.register state request env).1.created = state.created + 1 ->
      forall given, spec = some given -> 0 ≤ given.secondOfDay ∧ given.secondOfDay < 86400 := by
    rintro deadline kind _ tasks created given rfl
    rcases register_books state request env with ⟨-, old⟩ | ⟨_, _, spec, written, -, asked⟩
    · omega
    · rw [tasks] at written
      have same := congrFun written state.created
      rw [newTask_self, newTask_self] at same
      have specs : some given = spec := congrArg Task.dailySpec same
      obtain rfl := asked given specs.symm
      rcases parsed with ⟨value, valid⟩
      exact parseDailyTime_bounds valid
  have unseen : forall invocation, invocation ∈ state.invocations ->
      invocation.task ≠ state.created :=
    fun invocation member => Nat.ne_of_lt (timely.known invocation member)
  cases enrolled with
  | refused only => exact timely.frame sound ⟨state.draining, only⟩
  | undone deadline kind spec heap specified valid perm only =>
      have made := timely.newTask deadline specified (bounded only.books.1 only.books.2)
      have shrunk := (timely.sound.newTask deadline specified).shrink valid
        fun ref member => perm.mem_iff.mp member
      have undone := @Timely.requeue _ _ made heap state.registered shrunk
        fun ref member => Or.inl (perm.mem_iff.mp member)
      exact undone.frame sound ⟨state.draining, only⟩
  | done deadline kind spec specified only =>
      have made := timely.newTask deadline specified (bounded only.books.1 only.books.2)
      have pushed := timely.sound.enroll deadline specified
      have done := @Timely.requeue _ _ made
        (heapPush (Scheduler.newTask state deadline kind spec) state.created).heap
        (state.registered ++ [state.created])
        (pushed.congr rfl rfl rfl rfl pushed.apart pushed.idle) (by
          intro ref member
          rcases List.mem_cons.mp ((heapPush_perm _ _).mem_iff.mp member) with rfl | old
          · exact Or.inr unseen
          · exact Or.inl old)
      exact done.frame sound ⟨state.draining, only⟩

/-! ## Draining -/

/-- The root was queued, so its deadline is past every one it was invoked for. -/
theorem Timely.drainLoop {last : Rat} {state : State} (timely : Timely last state)
    (free : state.executing = none) (entered : state.draining = true) (processed : Nat)
    (env : DrainEnv) {later : Rat} (passed : last ≤ later) (bound : forall now, env.now = some now -> now ≤ later) :
    Timely later (drainLoop state processed env) := by
  have sound := timely.sound.drainLoop free entered processed env
  rcases drainLoop_cases state processed env with
    ⟨aborted, left⟩ | ⟨now, root, popped, reading, taken, due, -, invoked⟩
  · rw [left] at sound ⊢
    exact (timely.later passed).frame sound ⟨false, leaveDrain_timerOnly state aborted env⟩
  · rcases timely.sound.heapPop taken with ⟨-, perm, ⟨heap, rfl⟩, atRoot, gone, -⟩
    have rootQueued : root ∈ state.heap.slots := perm.mem_iff.mpr List.mem_cons_self
    rw [invoked] at sound ⊢
    constructor
    · constructor
      · apply List.pairwise_append.mpr
        refine ⟨timely.logged, List.pairwise_singleton _ _, ?_⟩
        rintro first before second last same isDaily
        obtain rfl := List.mem_singleton.mp last
        dsimp only at same ⊢
        rw [← same]
        exact timely.queued first before isDaily (same ▸ rootQueued)
      · intro invocation member isDaily queued
        rcases List.mem_append.mp member with before | last
        · exact timely.queued invocation before isDaily
            (perm.mem_iff.mpr (List.mem_cons_of_mem root queued))
        · obtain rfl := List.mem_singleton.mp last
          exact absurd queued gone
    · exact sound
    · exact timely.valid
    · intro invocation member
      rcases List.mem_append.mp member with before | last
      · exact timely.known invocation before
      · obtain rfl := List.mem_singleton.mp last
        exact timely.sound.known root rootQueued
    · rintro execution ⟨⟩
      exact due.trans (bound now reading)
    · intro invocation member isDaily
      rcases List.mem_append.mp member with before | last
      · exact timely.behind invocation before isDaily
      · obtain rfl := List.mem_singleton.mp last
        exact le_refl _

/-- The new deadline is past the reading it was computed from. -/
theorem requeue_passes {offset : Int} {state next : State} {ref : Ref} {env : DrainEnv}
    (gregorian : Gregorian offset env.calendar)
    (valid : forall spec, (state.tasks ref).dailySpec = some spec ->
      0 ≤ spec.secondOfDay ∧ spec.secondOfDay < 86400)
    (queued : requeue state ref env = (next, none)) :
    Exists fun now => Exists fun deadline => env.dailyNow = some now ∧ now < deadline ∧
      next = heapPush (renewTask state ref deadline) ref := by
  unfold requeue at queued
  cases reading : env.dailyNow with
  | none =>
      rw [reading] at queued
      cases congrArg Prod.snd queued
  | some now =>
      rw [reading] at queued
      dsimp only at queued
      cases given : (state.tasks ref).dailySpec with
      | none =>
          rw [given] at queued
          cases congrArg Prod.snd queued
      | some spec =>
          rcases valid spec given with ⟨begins, ends⟩
          rcases nextDailyDeadline_least gregorian begins ends now with ⟨deadline, result, least⟩
          rw [given] at queued
          simp only [Option.map_some, result] at queued
          exact ⟨now, deadline, rfl, least.1.1, (congrArg Prod.fst queued).symm⟩

/-- A task that was put back has a deadline past all it was invoked for. -/
theorem Timely.renewed {last : Rat} {state : State} (timely : Timely last state) {ref : Ref}
    (free : state.executing = none) (absent : ref ∉ state.heap.slots) (exists_ref : ref < state.created)
    (isDaily : state.isDaily ref) {deadline : Rat} (later : (state.tasks ref).deadline < deadline) :
    Timely last (heapPush (renewTask state ref deadline) ref) := by
  have others : forall other, other ≠ ref ->
      (renewTask state ref deadline).tasks other = state.tasks other :=
    fun other different => renewTask_other state deadline different
  have kinds : forall other, (heapPush (renewTask state ref deadline) ref).isDaily other ->
      state.isDaily other := by
    intro other daily
    exact (renewTask_kind state ref other deadline).symm.trans daily
  have grown : forall other,
      (state.tasks other).deadline ≤ ((renewTask state ref deadline).tasks other).deadline := by
    intro other
    by_cases same : other = ref
    · rw [same, renewTask_self]
      exact later.le
    · rw [others other same]
  constructor
  · constructor
    · apply timely.logged.imp
      exact fun rises equal daily => rises equal (kinds _ daily)
    · intro invocation member daily queued
      by_cases same : invocation.task = ref
      · have behind := timely.behind invocation member (kinds _ daily)
        have renewed : ((renewTask state ref deadline).tasks invocation.task).deadline = deadline := by
          rw [same, renewTask_self]
        show invocation.deadline < ((renewTask state ref deadline).tasks invocation.task).deadline
        rw [renewed]
        rw [same] at behind
        exact lt_of_le_of_lt behind later
      · have before : invocation.task ∈ state.heap.slots := by
          rcases List.mem_cons.mp ((heapPush_perm _ _).mem_iff.mp queued) with equal | old
          · exact absurd equal same
          · exact old
        exact lt_of_lt_of_le (timely.queued invocation member (kinds _ daily) before) (grown _)
  · exact timely.sound.requeued absent exists_ref isDaily free deadline
  · intro other spec below given
    by_cases same : other = ref
    · rw [same] at given
      have kept : ((renewTask state ref deadline).tasks ref).dailySpec = some spec := given
      rw [renewTask_self] at kept
      exact timely.valid ref spec exists_ref kept
    · have kept : ((renewTask state ref deadline).tasks other).dailySpec = some spec := given
      rw [others other same] at kept
      exact timely.valid other spec below kept
  · exact timely.known
  · intro execution executing
    cases free.symm.trans executing
  · intro invocation member daily
    exact (timely.behind invocation member (kinds _ daily)).trans (grown _)

theorem Timely.ended {last : Rat} {state : State} (timely : Timely last state) :
    Timely last { state with executing := none } := by
  refine ⟨⟨timely.logged, timely.queued⟩, timely.sound.ended, timely.valid, timely.known, ?_,
    timely.behind⟩
  rintro execution ⟨⟩

/-- Bounds on the readings of one environment. -/
structure DrainEnv.Between (env : DrainEnv) (last later : Rat) : Prop where
  passed : last ≤ later
  daily : forall now, env.dailyNow = some now -> last ≤ now
  head : forall now, env.now = some now -> now ≤ later

theorem Timely.finishAction {offset : Int} {last later : Rat} {state : State}
    (timely : Timely last state) {execution : Execution} (executing : state.executing = some execution)
    (raised : Option String) {env : DrainEnv} (gregorian : Gregorian offset env.calendar)
    (between : env.Between last later) : Timely later (finishAction state execution raised env) := by
  have apart := timely.sound.apart execution executing
  have entered := timely.sound.entered executing
  have sound := timely.sound.finishAction executing raised env
  have reached := timely.reached execution executing
  unfold Scheduler.finishAction at sound ⊢
  dsimp only [reportError] at sound ⊢
  split at sound
  · exact timely.ended.drainLoop rfl entered _ env between.passed between.head
  · rename_i isDaily
    cases result : Scheduler.requeue { state with executing := none } execution.task env with
    | mk next error =>
        cases error with
        | some error =>
            rw [result] at sound
            have same : next = { state with executing := none } := by
              rcases requeue_cases { state with executing := none } execution.task env with
                ⟨_, failed⟩ | ⟨_, succeeded⟩
              · exact congrArg Prod.fst (result.symm.trans failed)
              · cases congrArg Prod.snd (result.symm.trans succeeded)
            dsimp only at sound ⊢
            rw [same] at sound ⊢
            exact (timely.ended.later between.passed).frame sound ⟨false, leaveDrain_timerOnly _ _ env⟩
        | none =>
            rcases @requeue_passes offset { state with executing := none } next execution.task env
              gregorian (fun spec => timely.valid _ spec apart.2) result with
              ⟨now, deadline, reading, future, rfl⟩
            have past := (reached.trans (between.daily now reading)).trans_lt future
            dsimp only
            exact (timely.ended.renewed rfl apart.1 apart.2 isDaily past).drainLoop rfl entered _ env
              between.passed between.head

theorem Timely.onTimer {last later : Rat} {state : State} (timely : Timely last state)
    {env : DrainEnv} (passed : last ≤ later) (bound : forall now, env.now = some now -> now ≤ later) :
    Timely later (onTimer state env) := by
  unfold Scheduler.onTimer
  split
  · exact timely.later passed
  · rename_i outside
    have free := timely.sound.idle (Bool.not_eq_true _ ▸ outside)
    have begun : Timely last (beginDrain state) :=
      ⟨⟨timely.logged, timely.queued⟩,
        timely.sound.congr rfl rfl rfl rfl timely.sound.apart fun _ => free, timely.valid,
        timely.known, timely.reached, timely.behind⟩
    exact begun.drainLoop free rfl 0 env passed bound

theorem Clocked.timely {offset : Int} {last : Rat} {state : State} (clocked : Clocked offset last state) :
    Timely last state := by
  induction clocked with
  | loaded start =>
      refine ⟨⟨List.Pairwise.nil, ?_⟩, loaded_sound, ?_, ?_, ?_, ?_⟩
      · exact fun _ member => absurd member List.not_mem_nil
      · exact fun _ _ below => absurd below (Nat.not_lt_zero _)
      · exact fun _ member => absurd member List.not_mem_nil
      · rintro execution ⟨⟩
      · exact fun _ member => absurd member List.not_mem_nil
  | @step last later state next action before gregorian parsed ordered moved timely =>
      have bounds := List.pairwise_cons.mp ordered
      have passed : last ≤ later := bounds.1 later (List.mem_append_right _ (List.mem_singleton_self _))
      have below : forall now, now ∈ action.readings -> last ≤ now ∧ now ≤ later := by
        intro now member
        have after := (List.pairwise_append.mp bounds.2).2.2 now member later (List.mem_singleton_self _)
        exact ⟨bounds.1 now (List.mem_append_left _ member), after⟩
      cases action with
      | register request env =>
          cases moved
          exact (timely.register request env parsed).later passed
      | timer env =>
          cases moved
          exact timely.onTimer passed fun now reading =>
            (below now (List.mem_append_left _ (Option.mem_toList.mpr reading))).2
      | finish raised env =>
          rcases Option.map_eq_some_iff.mp moved with ⟨execution, executing, rfl⟩
          refine timely.finishAction executing raised gregorian ⟨passed, ?_, ?_⟩
          · exact fun now reading => (below now (List.mem_append_left _ (Option.mem_toList.mpr reading))).1
          · exact fun now reading => (below now (List.mem_append_right _
              (List.mem_append_left _ (Option.mem_toList.mpr reading)))).2

/-- A daily task that is put back moves past the reading its deadline was
computed from, however long it was overdue. -/
def Skips (offset : Int) (last : Rat) (state : State) : Prop :=
  forall execution raised env next now, state.executing = some execution ->
    state.isDaily execution.task -> env.dailyNow = some now -> last ≤ now ->
    Gregorian offset env.calendar -> step state (.finish raised env) = some next ->
    now < (next.tasks execution.task).deadline ∧
      (state.tasks execution.task).deadline < (next.tasks execution.task).deadline

theorem drainLoop_tasks (state : State) (processed : Nat) (env : DrainEnv) :
    (drainLoop state processed env).tasks = state.tasks := by
  rcases drainLoop_cases state processed env with
    ⟨aborted, left⟩ | ⟨now, root, popped, -, taken, -, -, invoked⟩
  · rw [left]
    exact (leaveDrain_timerOnly state aborted env).books.1
  · rcases Option.map_eq_some_iff.mp taken with ⟨⟨first, heap⟩, -, equal⟩
    obtain ⟨rfl, rfl⟩ := Prod.mk.inj equal
    rw [invoked]
    rfl

theorem Timely.skips {offset : Int} {last : Rat} {state : State} (timely : Timely last state) :
    Skips offset last state := by
  intro execution raised env next now executing isDaily reading passed gregorian moved
  have apart := timely.sound.apart execution executing
  have specified : (state.tasks execution.task).dailySpec.isSome = true :=
    timely.sound.specified execution.task apart.2 isDaily
  rcases Option.isSome_iff_exists.mp specified with ⟨spec, given⟩
  rcases timely.valid execution.task spec apart.2 given with ⟨begins, ends⟩
  rcases nextDailyDeadline_least gregorian begins ends now with ⟨deadline, result, least⟩
  have queued : Scheduler.requeue { state with executing := none } execution.task env =
      (heapPush (renewTask { state with executing := none } execution.task deadline)
        execution.task, none) := by
    unfold Scheduler.requeue
    rw [reading]
    dsimp only
    rw [given]
    simp only [Option.map_some, result]
  have finished : Scheduler.finishAction state execution raised env =
      Scheduler.drainLoop (heapPush (renewTask { state with executing := none } execution.task deadline)
        execution.task) (execution.processed + 1) env := by
    unfold Scheduler.finishAction
    dsimp only [reportError]
    unfold State.isDaily at isDaily
    rw [isDaily]
    dsimp only
    rw [queued]
  have stepped : next = Scheduler.finishAction state execution raised env := by
    unfold step at moved
    rw [executing] at moved
    exact (Option.some.inj moved).symm
  have renewed : (next.tasks execution.task).deadline = deadline := by
    rw [stepped, finished, drainLoop_tasks]
    exact congrArg Task.deadline (renewTask_self _ _ _)
  rw [renewed]
  exact ⟨least.1.1, ((timely.reached execution executing).trans passed).trans_lt least.1.1⟩

/-- For a specification the parser returns, the next deadline is the least
moment with that time of day past the clock reading.  Along every run on a clock
that does not go back the deadlines of a daily task grow, and missed days are
not made up for one by one. -/
theorem next_daily_deadline {offset : Int} {calendar : Calendar}
    (gregorian : Gregorian offset calendar) {value : DailyTime} {spec : DailySpec}
    (parsed : parseDailyTime value = .ok spec) :
    (forall now : Rat, Exists fun deadline => nextDailyDeadline calendar spec now = .ok deadline ∧
      IsLeast { moment | now < moment ∧ Occurs offset spec moment } deadline) ∧
    (forall last state, Clocked offset last state -> Rising state ∧ Skips offset last state) := by
  rcases parseDailyTime_bounds parsed with ⟨begins, ends⟩
  refine ⟨nextDailyDeadline_least gregorian begins ends, ?_⟩
  intro last state clocked
  exact ⟨clocked.timely.toRising, clocked.timely.skips⟩

/-- Eight hours ahead of the meridian. -/
theorem next_daily_deadline_ahead :
    Exists fun deadline => nextDailyDeadline (gregorianCalendar 28800) ⟨8, 5, 1⟩ 0 = .ok deadline ∧
      IsLeast { moment | 0 < moment ∧ Occurs 28800 ⟨8, 5, 1⟩ moment } deadline := by
  have parsed : parseDailyTime (.table (.number (some 8)) (.number (some 5)) (.number (some 1))) =
      .ok ⟨8, 5, 1⟩ := by
    decide +kernel
  exact (next_daily_deadline (gregorianCalendar_gregorian 28800) parsed).1 0

end Scheduler
end ServiceRuntime

