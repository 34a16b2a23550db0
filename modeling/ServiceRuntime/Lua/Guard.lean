import ServiceRuntime.Lua.Dispatcher
import ServiceRuntime.Pool.Targets

namespace ServiceRuntime
namespace Guard

open Foundation
open Lua (Co Table searchSession)
open Registry (Target Number callee callSendError)

/-!
# The guard of `service.call`

Lua code runs on a stack of coroutines.  The dispatcher and `service.sleep`
resume through `resume_session`, which notes the coroutine in
`running_thread`; user code may also create coroutines of its own and resume
them with `coroutine.resume`, which notes nothing.  `service.call` looks at
`running_thread` only.

The main thread is the empty stack: the host, callbacks of luv, idle hooks and
the dispatcher itself all run there.  Errors that are caught leave the stack as
it is; an error nobody catches ends its coroutine like a return.
-/

/-- What put a coroutine on the stack. -/
inductive Resumed where
  | session
  | plain
  deriving DecidableEq, Repr

structure Frame where
  co : Co
  via : Resumed
  deriving DecidableEq, Repr

/-- The coroutines of one Lua state, innermost first, beside the module-level
variables of `service.lua` that `service.call` and `resume_session` use.
Coroutines are numbered in the order of their creation. -/
structure State where
  pool : Registry.State
  created : Nat
  managedCoroutines : List Co
  dead : List Co
  stack : List Frame
  runningThread : Option Co
  suspendLookup : Table Session Co
  nextSession : Session

def State.loaded (pool : Registry.State) : State where
  pool := pool
  created := 0
  managedCoroutines := []
  dead := []
  stack := []
  runningThread := none
  suspendLookup := ∅
  nextSession := 1

/-- `coroutine.running`, with `none` for the main thread. -/
def State.executing (state : State) : Option Co :=
  state.stack.head?.map Frame.co

/-- `coroutine.resume` would enter the coroutine. -/
def State.suspended (state : State) (co : Co) : Prop :=
  co < state.created ∧ co ∉ state.stack.map Frame.co ∧ co ∉ state.dead

instance (state : State) (co : Co) : Decidable (state.suspended co) :=
  inferInstanceAs (Decidable (_ ∧ _ ∧ _))

/-! ## Moving between coroutines -/

/-- `new_thread`, or `coroutine.create` by user code. -/
def create (state : State) (managed : Bool) : State :=
  { state with
    created := state.created + 1
    managedCoroutines :=
      if managed then state.created :: state.managedCoroutines else state.managedCoroutines }

/-- `resume_session` up to the point where the coroutine has control; a
coroutine that cannot be resumed returns at once. -/
def resumeSession (state : State) (co : Co) : State :=
  if state.suspended co then
    { state with stack := ⟨co, .session⟩ :: state.stack, runningThread := some co }
  else { state with runningThread := none }

/-- `coroutine.resume` by user code. -/
def resume (state : State) (co : Co) : State :=
  if state.suspended co then { state with stack := ⟨co, .plain⟩ :: state.stack } else state

/-- The innermost coroutine yields or, if it is over, ends. -/
def leave (state : State) (past : Bool) : Option State :=
  match state.stack with
  | [] => none
  | frame :: rest =>
      some { state with
        stack := rest
        dead := if past then frame.co :: state.dead else state.dead
        runningThread :=
          match frame.via with
          | .session => none
          | .plain => state.runningThread }

/-! ## The call -/

/-- The arguments of `service.call`, the caller's own identifier, and how the
mailbox of the target answers: with `none` it accepts. -/
structure CallRequest where
  sender : UInt32
  target : Target
  payload : Option Payload
  answer : Option String
  deriving DecidableEq, Repr

inductive CallResult where
  | raised (message : String)
  | returned (error : String)
  | waiting (session : Session)
  deriving DecidableEq, Repr

def notManaged : String :=
  "service.call must be called from a managed service coroutine"

/-- The coroutine the guard lets through. -/
def guard (state : State) : Option Co :=
  state.runningThread.filter fun caller => decide (caller ∈ state.managedCoroutines)

section Call

variable (convert : Number -> Int)

/-- `service.call` from the point where the session has been allocated. -/
def callSession (state : State) (caller : Co) (request : CallRequest)
    (session nextSession : Session) : State × CallResult :=
  match Registry.call convert state.pool request.sender (.ofNat session) request.target
    request.payload with
  | (pool, .raised message) => ({ state with pool, nextSession }, .raised message)
  | (pool, .failed error) => ({ state with pool, nextSession }, .returned error)
  | (pool, .entered _) =>
      match request.answer with
      | some code => ({ state with pool, nextSession }, .returned (callSendError code))
      | none =>
          let registered :=
            { state with
              pool, nextSession, suspendLookup := state.suspendLookup.insert session caller }
          match leave registered false with
          | some next => (next, .waiting session)
          | none => (registered, .raised "attempt to yield from outside a coroutine")

/-- `service.call`. -/
def serviceCall (state : State) (request : CallRequest) : State × CallResult :=
  match guard state with
  | none => (state, .raised notManaged)
  | some caller =>
      match callee state.pool request.target with
      | none => (state, .returned "service not found")
      | some _ =>
          match searchSession state.suspendLookup state.nextSession uint32Max state.nextSession with
          | none => (state, .raised "RPC_SESSION_EXHAUSTED")
          | some (session, nextSession) =>
              callSession convert state caller request session nextSession

/-! ## The machine -/

/-- What the running code does, or what others do to the pool.  A reply is
taken by the dispatcher, on the main thread. -/
inductive Action where
  | create (managed : Bool)
  | resumeSession (co : Co)
  | resume (co : Co)
  | leave (past : Bool)
  | call (request : CallRequest)
  | reply (session : Session)
  | pool (action : Registry.Action)
  deriving DecidableEq, Repr

def step (state : State) : Action -> Option State
  | .create managed => some (create state managed)
  | .resumeSession co => some (resumeSession state co)
  | .resume co => some (resume state co)
  | .leave past => leave state past
  | .call request => some (serviceCall convert state request).1
  | .reply session =>
      if state.stack = [] then
        (state.suspendLookup.lookup session).map fun co =>
          resumeSession { state with suspendLookup := state.suspendLookup.erase session } co
      else none
  | .pool action =>
      (Registry.step state.pool action).map fun pool => { state with pool }

def machine : Machine State Action where
  initial := fun state => Exists fun pool => state = .loaded pool
  step := step convert

end Call

/-! ## What a step does to the stack -/

/-- The part of the state the guard depends on, and how a step changes it. -/
inductive Shift (action : Action) (state next : State) : Prop where
  | kept (stack : next.stack = state.stack) (running : next.runningThread = state.runningThread)
      (managed : next.managedCoroutines = state.managedCoroutines)
      (count : next.created = state.created)
  | created (stack : next.stack = state.stack)
      (running : next.runningThread = state.runningThread)
      (managed : forall co, co ∈ next.managedCoroutines ->
        co ∈ state.managedCoroutines ∨ co = state.created)
      (before : forall co, co ∈ state.managedCoroutines -> co ∈ next.managedCoroutines)
      (count : next.created = state.created + 1)
  | cleared (stack : next.stack = state.stack) (running : next.runningThread = none)
      (managed : next.managedCoroutines = state.managedCoroutines)
      (count : next.created = state.created)
  | session (co : Co) (suspended : state.suspended co)
      (stack : next.stack = ⟨co, .session⟩ :: state.stack) (running : next.runningThread = some co)
      (managed : next.managedCoroutines = state.managedCoroutines)
      (count : next.created = state.created)
  | plain (co : Co) (taken : action = .resume co) (suspended : state.suspended co)
      (stack : next.stack = ⟨co, .plain⟩ :: state.stack)
      (running : next.runningThread = state.runningThread)
      (managed : next.managedCoroutines = state.managedCoroutines)
      (count : next.created = state.created)
  | left (frame : Frame) (before : state.stack = frame :: next.stack)
      (running : next.runningThread =
        match frame.via with
        | .session => none
        | .plain => state.runningThread)
      (managed : next.managedCoroutines = state.managedCoroutines)
      (count : next.created = state.created)

theorem leave_cases {state next : State} {past : Bool} (moved : leave state past = some next) :
    Exists fun frame => state.stack = frame :: next.stack ∧
      (next.runningThread =
        match frame.via with
        | .session => none
        | .plain => state.runningThread) ∧
      next.managedCoroutines = state.managedCoroutines ∧ next.created = state.created ∧
      next.suspendLookup = state.suspendLookup := by
  unfold leave at moved
  split at moved
  · cases moved
  · rename_i frame rest before
    cases moved
    exact ⟨frame, before, rfl, rfl, rfl, rfl⟩

section Moves

variable {convert : Number -> Int}

theorem callSession_shift (action : Action) (state : State) (caller : Co) (request : CallRequest)
    (session nextSession : Session) :
    Shift action state (callSession convert state caller request session nextSession).1 := by
  unfold callSession
  split
  · exact .kept rfl rfl rfl rfl
  · exact .kept rfl rfl rfl rfl
  · split
    · exact .kept rfl rfl rfl rfl
    · dsimp only
      split
      · rename_i next left
        rcases leave_cases left with ⟨frame, before, running, managed, count, -⟩
        exact .left frame before running managed count
      · exact .kept rfl rfl rfl rfl

theorem serviceCall_shift (action : Action) (state : State) (request : CallRequest) :
    Shift action state (serviceCall convert state request).1 := by
  unfold serviceCall
  split
  · exact .kept rfl rfl rfl rfl
  · split
    · exact .kept rfl rfl rfl rfl
    · split
      · exact .kept rfl rfl rfl rfl
      · exact callSession_shift action state _ request _ _

theorem step_shift {state next : State} {action : Action}
    (moved : step convert state action = some next) : Shift action state next := by
  cases action with
  | create managed =>
      cases moved
      refine .created rfl rfl ?_ ?_ rfl
      · intro co
        cases managed with
        | true => exact fun member => (List.mem_cons.mp member).symm
        | false => exact Or.inl
      · intro co
        cases managed with
        | true => exact List.mem_cons_of_mem _
        | false => exact id
  | resumeSession co =>
      cases moved
      unfold resumeSession
      split
      · rename_i suspended
        exact .session co suspended rfl rfl rfl rfl
      · exact .cleared rfl rfl rfl rfl
  | resume co =>
      cases moved
      unfold resume
      split
      · rename_i suspended
        exact .plain co rfl suspended rfl rfl rfl rfl
      · exact .kept rfl rfl rfl rfl
  | leave past =>
      rcases leave_cases moved with ⟨frame, before, running, managed, count, -⟩
      exact .left frame before running managed count
  | call request =>
      cases moved
      exact serviceCall_shift _ state request
  | reply session =>
      simp only [step, Option.ite_none_right_eq_some] at moved
      rcases Option.map_eq_some_iff.mp moved.2 with ⟨co, -, rfl⟩
      unfold resumeSession
      split
      · rename_i suspended
        exact .session co suspended rfl rfl rfl rfl
      · exact .cleared rfl rfl rfl rfl
  | pool action =>
      rcases Option.map_eq_some_iff.mp moved with ⟨pool, -, rfl⟩
      exact .kept rfl rfl rfl rfl

/-! ## The stack of every run -/

/-- No coroutine is on the stack twice; `running_thread` is the innermost one
that `resume_session` put there, or `nil`. -/
structure Stacked (state : State) : Prop where
  distinct : (state.stack.map Frame.co).Nodup
  known : forall frame, frame ∈ state.stack -> frame.co < state.created
  running : forall co, state.runningThread = some co ->
    Exists fun above => Exists fun below => state.stack = above ++ ⟨co, .session⟩ :: below ∧
      forall frame, frame ∈ above -> frame.via = .plain

theorem Shift.stacked {action : Action} {state next : State} (shift : Shift action state next) (stacked : Stacked state) :
    Stacked next := by
  cases shift with
  | kept stack running managed count =>
      constructor
      · rw [stack]
        exact stacked.distinct
      · rw [stack, count]
        exact stacked.known
      · rw [stack, running]
        exact stacked.running
  | created stack running managed before count =>
      constructor
      · rw [stack]
        exact stacked.distinct
      · rw [stack, count]
        exact fun frame member => Nat.lt_succ_of_lt (stacked.known frame member)
      · rw [stack, running]
        exact stacked.running
  | cleared stack running managed count =>
      constructor
      · rw [stack]
        exact stacked.distinct
      · rw [stack, count]
        exact stacked.known
      · intro co impossible
        rw [running] at impossible
        cases impossible
  | session co suspended stack running managed count =>
      constructor
      · rw [stack]
        exact List.nodup_cons.mpr ⟨suspended.2.1, stacked.distinct⟩
      · rw [stack, count]
        intro frame member
        rcases List.mem_cons.mp member with rfl | older
        · exact suspended.1
        · exact stacked.known frame older
      · intro other named
        obtain rfl : co = other := Option.some.inj (running.symm.trans named)
        exact ⟨[], state.stack, stack, fun _ impossible => absurd impossible List.not_mem_nil⟩
  | plain co taken suspended stack running managed count =>
      constructor
      · rw [stack]
        exact List.nodup_cons.mpr ⟨suspended.2.1, stacked.distinct⟩
      · rw [stack, count]
        intro frame member
        rcases List.mem_cons.mp member with rfl | older
        · exact suspended.1
        · exact stacked.known frame older
      · intro other named
        rcases stacked.running other (running.symm.trans named) with ⟨above, below, split, plain⟩
        refine ⟨⟨co, .plain⟩ :: above, below, by rw [stack, split]; rfl, ?_⟩
        intro frame member
        rcases List.mem_cons.mp member with rfl | older
        · rfl
        · exact plain frame older
  | left frame before running managed count =>
      have distinct := stacked.distinct
      rw [before] at distinct
      constructor
      · exact (List.nodup_cons.mp distinct).2
      · rw [count]
        intro other member
        exact stacked.known other (before ▸ List.mem_cons_of_mem frame member)
      · intro co named
        rw [running] at named
        -- only a frame of `coroutine.resume` leaves `running_thread` alone
        cases entered : frame.via with
        | session =>
            simp only [entered, reduceCtorEq] at named
        | plain =>
            simp only [entered] at named
            rcases stacked.running co named with ⟨above, below, split, plain⟩
            cases above with
            | nil =>
                rw [before] at split
                cases (List.cons.inj split).1
                cases entered
            | cons top rest =>
                rw [before] at split
                exact ⟨rest, below, (List.cons.inj split).2, fun other member =>
                  plain other (List.mem_cons_of_mem top member)⟩

theorem reachable_stacked {state : State} (reachable : (machine convert).Reachable state) :
    Stacked state := by
  apply Machine.Reachable.invariant _ _ reachable
  · rintro start ⟨pool, rfl⟩
    constructor
    · exact List.nodup_nil
    · exact fun frame impossible => absurd impossible List.not_mem_nil
    · rintro co ⟨⟩
  · intro current action next stacked moved
    exact (step_shift moved).stacked stacked

/-! ## Who gets past the guard -/

theorem guard_eq_some {state : State} {caller : Co} :
    guard state = some caller <->
      state.runningThread = some caller ∧ caller ∈ state.managedCoroutines := by
  unfold guard
  rw [Option.filter_eq_some_iff, decide_eq_true_eq]

/-- A rejected call has done nothing. -/
theorem serviceCall_rejected {state : State} (rejected : guard state = none)
    (request : CallRequest) : serviceCall convert state request = (state, .raised notManaged) := by
  unfold serviceCall
  rw [rejected]

theorem callSession_registers {state : State} {caller : Co} {request : CallRequest}
    {session nextSession waited : Session}
    (waits : (callSession convert state caller request session nextSession).2 = .waiting waited) :
    (callSession convert state caller request session nextSession).1.suspendLookup.lookup waited =
      some caller := by
  unfold callSession at waits ⊢
  split at waits
  · cases waits
  · cases waits
  · split at waits
    · cases waits
    · dsimp only at waits ⊢
      split at waits
      · rename_i next left
        cases waits
        rcases leave_cases left with ⟨-, -, -, -, -, same⟩
        rw [same]
        exact AList.lookup_insert _
      · cases waits

/-- What an admitted call registers is what the guard saw. -/
theorem serviceCall_registers {state : State} {request : CallRequest} {session : Session}
    (waits : (serviceCall convert state request).2 = .waiting session) :
    Exists fun caller => guard state = some caller ∧
      (serviceCall convert state request).1.suspendLookup.lookup session = some caller := by
  unfold serviceCall at waits ⊢
  split at waits
  · cases waits
  · rename_i caller admitted
    refine ⟨caller, admitted, ?_⟩
    split at waits
    · cases waits
    · split at waits
      · cases waits
      · exact callSession_registers waits

/-- Only the coroutine that will be resumed gets past the guard; everybody else
is told so and changes nothing. -/
structure Guarded (convert : Number -> Int) (state : State) : Prop where
  admits : forall caller, guard state = some caller ->
    state.executing = some caller ∧ caller ∈ state.managedCoroutines
  registers : forall request session, (serviceCall convert state request).2 = .waiting session ->
    Exists fun co => state.executing = some co ∧ co ∈ state.managedCoroutines ∧
      (serviceCall convert state request).1.suspendLookup.lookup session = some co
  raises : (forall co, state.executing = some co -> co ∉ state.managedCoroutines) ->
    forall request, serviceCall convert state request = (state, .raised notManaged)

/-- The running coroutine was resumed by hand while `running_thread` still
names a managed one. -/
def Nested (state : State) : Prop :=
  Exists fun frame => Exists fun rest => state.stack = frame :: rest ∧ frame.via = .plain ∧
    (guard state).isSome = true

theorem Stacked.executing {state : State} (stacked : Stacked state) (flat : ¬ Nested state)
    {caller : Co} (admitted : guard state = some caller) : state.executing = some caller := by
  rcases stacked.running caller (guard_eq_some.mp admitted).1 with ⟨above, below, split, plain⟩
  cases above with
  | nil =>
      unfold State.executing
      rw [split]
      rfl
  | cons top rest =>
      refine absurd ⟨top, _, split, plain top List.mem_cons_self, ?_⟩ flat
      rw [admitted]
      rfl

/-- The guard is right exactly outside of coroutines that were resumed by hand
on behalf of a managed one. -/
theorem Stacked.guarded_iff {state : State} (stacked : Stacked state) :
    Guarded convert state <-> ¬ Nested state := by
  constructor
  · rintro guarded ⟨frame, rest, top, plain, admitted⟩
    rcases Option.isSome_iff_exists.mp admitted with ⟨caller, passed⟩
    have running := (guarded.admits caller passed).1
    unfold State.executing at running
    rw [top] at running
    have same : frame.co = caller := Option.some.inj running
    rcases stacked.running caller (guard_eq_some.mp passed).1 with ⟨above, below, split, -⟩
    -- the caller is further down, so it would be on the stack twice
    cases above with
    | nil =>
        rw [top] at split
        cases (List.cons.inj split).1
        cases plain
    | cons first others =>
        have distinct := stacked.distinct
        rw [split] at distinct top
        obtain rfl : first = frame := (List.cons.inj top).1
        refine absurd ?_ (List.nodup_cons.mp distinct).1
        rw [same]
        exact List.mem_map.mpr
          ⟨⟨caller, .session⟩, List.mem_append_right others List.mem_cons_self, rfl⟩
  · intro flat
    have admits : forall caller, guard state = some caller ->
        state.executing = some caller ∧ caller ∈ state.managedCoroutines :=
      fun caller passed => ⟨stacked.executing flat passed, (guard_eq_some.mp passed).2⟩
    constructor
    · exact admits
    · intro request session waits
      rcases serviceCall_registers waits with ⟨caller, passed, registered⟩
      exact ⟨caller, (admits caller passed).1, (admits caller passed).2, registered⟩
    · intro outside request
      apply serviceCall_rejected
      rw [Option.eq_none_iff_forall_not_mem]
      intro caller passed
      exact outside caller (admits caller passed).1 (admits caller passed).2

/-- The step does not resume a coroutine by hand while `running_thread` names
a managed one. -/
def ResumesOutside (state : State) : Action -> Prop
  | .resume co => state.suspended co -> guard state = none
  | .create _ | .resumeSession _ | .leave _ | .call _ | .reply _ | .pool _ => True

instance (state : State) (action : Action) : Decidable (ResumesOutside state action) := by
  cases action <;> unfold ResumesOutside <;> infer_instance

theorem Shift.guard_of_eq {state next : State} {caller : Co}
    (running : next.runningThread = state.runningThread)
    (managed : caller ∈ next.managedCoroutines -> caller ∈ state.managedCoroutines)
    (admitted : guard next = some caller) : guard state = some caller := by
  have both := guard_eq_some.mp admitted
  exact guard_eq_some.mpr ⟨running ▸ both.1, managed both.2⟩

/-- A coroutine is only nested by being resumed by hand. -/
theorem Shift.nested {action : Action} {state next : State} (shift : Shift action state next)
    (stacked : Stacked state) (outside : ResumesOutside state action) (nested : Nested next) :
    Nested state := by
  rcases nested with ⟨frame, rest, top, plain, admitted⟩
  rcases Option.isSome_iff_exists.mp admitted with ⟨caller, passed⟩
  have named := (guard_eq_some.mp passed).1
  cases shift with
  | kept stack running managed count =>
      refine ⟨frame, rest, stack ▸ top, plain, ?_⟩
      rw [Shift.guard_of_eq running (managed ▸ fun member => member) passed]
      rfl
  | created stack running managed before count =>
      refine ⟨frame, rest, stack ▸ top, plain, ?_⟩
      have old : caller ∈ next.managedCoroutines -> caller ∈ state.managedCoroutines := by
        intro member
        rcases managed caller member with earlier | fresh
        · exact earlier
        · -- the new coroutine is not on the stack yet
          rcases stacked.running caller (running ▸ named) with ⟨above, below, split, -⟩
          have known := stacked.known ⟨caller, .session⟩
            (split ▸ List.mem_append_right above List.mem_cons_self)
          exact absurd (fresh ▸ known) (Nat.lt_irrefl _)
      rw [Shift.guard_of_eq running old passed]
      rfl
  | cleared stack running managed count =>
      rw [running] at named
      cases named
  | session co suspended stack running managed count =>
      rw [stack] at top
      cases (List.cons.inj top).1
      cases plain
  | plain co taken suspended stack running managed count =>
      subst taken
      have none_admitted : guard state = none := outside suspended
      rw [Shift.guard_of_eq running (managed ▸ fun member => member) passed] at none_admitted
      cases none_admitted
  | left removed before running managed count =>
      cases entered : removed.via with
      | session =>
          simp only [entered] at running
          rw [running] at named
          cases named
      | plain =>
          simp only [entered] at running
          refine ⟨removed, next.stack, before, entered, ?_⟩
          rw [Shift.guard_of_eq running (managed ▸ fun member => member) passed]
          rfl

/-- In every reachable state the guard lets only the coroutine pass that will
be resumed, unless a coroutine runs that was resumed by hand while
`running_thread` names a managed one; and a run never comes to such a state
exactly if none of its steps resumes a coroutine by hand there. -/
theorem guarded_iff_resumesOutside (convert : Number -> Int) :
    (forall state, (machine convert).Reachable state ->
      (Guarded convert state <-> ¬ Nested state)) ∧
    (forall pool schedule,
      (machine convert).Throughout (Guarded convert) (.loaded pool) schedule <->
        (machine convert).Obeys ResumesOutside (.loaded pool) schedule) := by
  refine ⟨fun state reachable => (reachable_stacked reachable).guarded_iff, ?_⟩
  intro pool schedule
  have begins : (machine convert).Reachable (.loaded pool) ∧ ¬ Nested (.loaded pool) := by
    refine ⟨⟨.loaded pool, [], ⟨pool, rfl⟩, rfl⟩, ?_⟩
    rintro ⟨frame, rest, top, -⟩
    cases top
  apply (machine convert).throughout_iff_obeys
    (fun state => (machine convert).Reachable state ∧ ¬ Nested state) _ _ _ begins
  · rintro state ⟨reachable, flat⟩
    exact (reachable_stacked reachable).guarded_iff.mpr flat
  · rintro state action next ⟨reachable, flat⟩ outside moved
    exact ⟨reachable.step moved, fun nested =>
      flat ((step_shift moved).nested (reachable_stacked reachable) outside nested)⟩
  · rintro state action next ⟨reachable, flat⟩ inside moved guarded
    refine (reachable_stacked (reachable.step moved)).guarded_iff.mp guarded ?_
    cases action with
    | resume co =>
        simp only [ResumesOutside, Classical.not_imp] at inside
        cases moved
        have entered : (resume state co) = { state with stack := ⟨co, .plain⟩ :: state.stack } :=
          if_pos inside.1
        rw [entered]
        exact ⟨⟨co, .plain⟩, state.stack, rfl, rfl, Option.isSome_iff_ne_none.mpr inside.2⟩
    | create | resumeSession | leave | call | reply | pool => exact absurd trivial inside

end Moves

/-- Root and one more service. -/
def bootPool : Registry.State :=
  (Registry.machine.run .empty Registry.bootstrapped).getD .empty

/-- A call on root by service 1. -/
def askRoot : CallRequest :=
  ⟨1, .number (.finite 0), some 0, none⟩

/-- A handler calls root. -/
def handlerCalls : List Action :=
  [.create true, .resumeSession 0, .call askRoot]

/-- A handler resumes a coroutine of its own. -/
def handlerNests : List Action :=
  [.create true, .resumeSession 0, .create false, .resume 1]

theorem guarded_handler :
    (((machine Registry.convertX64).run (.loaded bootPool) handlerCalls).any fun final =>
      decide (final.suspendLookup.lookup 1 = some 0)) = true ∧
    (machine Registry.convertX64).Throughout (Guarded Registry.convertX64) (.loaded bootPool)
      handlerCalls := by
  have obeys : (machine Registry.convertX64).Obeys ResumesOutside (.loaded bootPool)
      handlerCalls := by
    decide +kernel
  exact ⟨by decide +kernel, ((guarded_iff_resumesOutside _).2 bootPool _).mpr obeys⟩

/-- The nested coroutine sends a request under the name of the handler. -/
theorem nested_call_admitted :
    Exists fun state => (machine Registry.convertX64).Reachable state ∧
      state.executing = some 1 ∧ 1 ∉ state.managedCoroutines ∧
      (serviceCall Registry.convertX64 state askRoot).2 = .waiting 1 ∧
      (serviceCall Registry.convertX64 state askRoot).1.suspendLookup.lookup 1 = some 0 ∧
      ¬ Guarded Registry.convertX64 state := by
  have ends : ((machine Registry.convertX64).run (.loaded bootPool) handlerNests).any
      (fun state => decide (state.executing = some 1 ∧ 1 ∉ state.managedCoroutines ∧
        (serviceCall Registry.convertX64 state askRoot).2 = .waiting 1 ∧
        (serviceCall Registry.convertX64 state askRoot).1.suspendLookup.lookup 1 = some 0)) =
      true := by
    decide +kernel
  rcases (machine Registry.convertX64).exists_reachable ⟨bootPool, rfl⟩ ends with
    ⟨state, reachable, executing, unmanaged, waits, registered⟩
  refine ⟨state, reachable, executing, unmanaged, waits, registered, ?_⟩
  intro guarded
  rcases guarded.registers askRoot 1 waits with ⟨co, running, managed, -⟩
  cases executing.symm.trans running
  exact unmanaged managed

end Guard
end ServiceRuntime
