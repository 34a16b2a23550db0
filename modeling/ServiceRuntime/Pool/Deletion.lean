import ServiceRuntime.Service.Joining

namespace ServiceRuntime
namespace ServicePool

open Lua (Letter)
open Service (Errno JoinInvariant JoinsStopped)
open Foundation

/-!
# Deleting a pool

`service_pool_delete` runs one loop over `pool->services` that stops every
service and a second one that joins them.  Before every round it reads
`pool->next_id` anew, and then the slot, both without `pool->lock`.  Stopping is
cooperative: a handler that is running goes on, and may call `service_new` on
the same pool, which counts `next_id` up before it stores the slot.

The machine runs the deletion beside all services of the pool.  Each service
is the machine of its own thread and callers; the calls of the deletion are
among those callers.  Reads and writes of different threads are interleaved, and
each sees what was written before it.
-/

def maxServices : Nat := 32
def mailboxMinSize : Nat := 16
def mailboxMaxSize : Nat := 65536

/-- Where the thread that deletes the pool stands.  In a `Loop` it is about to
read `next_id`, in a `Read` the slot; `stopping` and `joining` name the service
and the position of the call made on it.  `crashed` is the use of a slot that is
`NULL`. -/
inductive DeleterPc where
  | idle
  | stopLoop (id : Nat)
  | stopRead (id : Nat)
  | stopping (id index : Nat)
  | joinLoop (id : Nat)
  | joinRead (id : Nat)
  | joining (id index : Nat)
  | aborted (id : Nat) (error : Errno)
  | destroyLoop (id : Nat)
  | destroyRead (id : Nat)
  | crashed (id : Nat)
  | deleted
  deriving DecidableEq, Repr

/-- A `service_new` inside `pool->lock`, between `pool->next_id++` and the store
of its slot.  The host calls it, or the code of the service with an identifier. -/
structure Registration where
  creator : Option Nat
  service : Service.State

/-- `services` are the slots that are stored; behind them every slot is `NULL`.
`owner` is the service in whose thread `service_pool_delete` runs, if it is one
of the pool. -/
structure State where
  nextId : Nat
  services : List Service.State
  registering : Option Registration
  owner : Option Nat
  deleter : DeleterPc

/-- `takeId` and `storeSlot` are the two writes of a successful `service_new`. -/
inductive Action where
  | takeId (creator : Option Nat) (capacity : Nat) (cells : List Letter)
  | storeSlot
  | service (id : Nat) (action : Service.Action)
  | enterDelete (owner : Option Nat)
  | delete
  deriving DecidableEq, Repr

/-- The service thread is executing code of the user. -/
def executes (service : Service.State) : Bool :=
  match service.thread with
  | .luaInit | .lua (.user _) => true
  | _ => false

/-- The thread of a service is inside `service_new` or `service_pool_delete`. -/
def occupied (state : State) (id : Nat) : Bool :=
  decide (state.owner = some id) ||
    state.registering.any fun registration => decide (registration.creator = some id)

/-- The user code of a service is free to call into the pool. -/
def mayCall (state : State) (id : Nat) : Bool :=
  !occupied state id && (state.services[id]?).any executes

/-- Who can call `service_new`: a thread of the host, and user code of a
service. -/
def mayRegister (state : State) : Option Nat -> Bool
  | none => true
  | some id => mayCall state id

/-- The `service_t` has been freed with the pool. -/
def DeleterPc.destroyed (id : Nat) : DeleterPc -> Bool
  | .destroyLoop next | .destroyRead next | .crashed next => decide (id < next)
  | .deleted => true
  | _ => false

/-- `service_new` up to `pool->next_id++`; one registration at a time holds the
lock. -/
def takeId (state : State) (creator : Option Nat) (capacity : Nat) (cells : List Letter) :
    Option State :=
  if mayRegister state creator ∧ state.deleter ≠ .deleted ∧ state.registering.isNone ∧
      state.nextId < maxServices ∧ mailboxMinSize ≤ capacity ∧ capacity ≤ mailboxMaxSize ∧
      cells.length = capacity then
    (Mailbox.new capacity (some cells)).map fun box =>
      { state with nextId := state.nextId + 1, registering := some ⟨creator, .start box⟩ }
  else none

/-- `pool->services[service->id] = service`, and the lock is released. -/
def storeSlot (state : State) : Option State :=
  if state.deleter = .deleted then none
  else
    state.registering.map fun registration =>
      { state with services := state.services ++ [registration.service], registering := none }

/-- The next step of a call takes `pool->lock`. -/
def callLocks : Service.Call -> Bool
  | .send _ .pin | .send _ (.unpin _) | .stop .retire | .start (.failRetire _)
  | .join _ (.free .retire) | .join _ (.free .wait) | .free .retire | .free .wait => true
  | _ => false

/-- The next step of a service thread takes `pool->lock`. -/
def threadLocks : Service.ThreadPc -> Bool
  | .quitting _ .retire | .failStop .retire | .shutdown _ .retire | .shutdown _ .waitPins => true
  | _ => false

/-- The step has to wait: for `pool->lock`, or for a call that the thread itself
is in. -/
def waits (state : State) (id : Nat) (service : Service.State) : Service.Action -> Bool
  | .call _ => false
  | .advance index _ => state.registering.isSome && (service.calls[index]?).any callLocks
  | .thread _ => occupied state id || state.registering.isSome && threadLocks service.thread

/-- Nobody calls `service_free` but `service_join`. -/
def serviceStep (state : State) (id : Nat) (action : Service.Action) : Option State :=
  if action ≠ .call .free ∧ state.deleter.destroyed id = false then
    (state.services[id]?).bind fun service =>
      if waits state id service action then none
      else
        (Service.step id service action).map fun next =>
          { state with services := state.services.set id next }
  else none

/-- The deletion reads a slot, and enters a call on the service it finds. -/
def enter (state : State) (id : Nat) (request : Service.Request) (after : Nat -> DeleterPc)
    (otherwise : DeleterPc) : Option State :=
  match state.services[id]? with
  | some service =>
      some
        { state with
          services :=
            state.services.set id { service with calls := service.calls ++ [request.call] }
          deleter := after service.calls.length }
  | none => some { state with deleter := otherwise }

/-- Any thread may delete the pool, once. -/
def enterDelete (state : State) (owner : Option Nat) : Option State :=
  if state.deleter = .idle ∧ owner.all (mayCall state) then
    some { state with owner, deleter := .stopLoop 0 }
  else none

/-- One step of `service_pool_delete`.  `service_stop` and `service_join` answer
`EINVAL` to `NULL`, which only the second loop looks at. -/
def deleteStep (state : State) : Option State :=
  match state.deleter with
  | .idle => none
  | .stopLoop id =>
      some { state with deleter := if id < state.nextId then .stopRead id else .joinLoop 0 }
  | .stopRead id => enter state id .stop (.stopping id) (.stopLoop (id + 1))
  | .stopping id index =>
      (state.services[id]?).bind fun service =>
        match service.calls[index]? with
        | some (.stop .returned) => some { state with deleter := .stopLoop (id + 1) }
        | _ => none
  | .joinLoop id =>
      some { state with deleter := if id < state.nextId then .joinRead id else .destroyLoop 0 }
  | .joinRead id =>
      enter state id (.join (decide (state.owner = some id))) (.joining id)
        (.aborted id Service.EINVAL)
  | .joining id index =>
      (state.services[id]?).bind fun service =>
        match service.calls[index]? with
        | some (.join _ (.returned error)) =>
            some { state with
              deleter := if error = 0 then .joinLoop (id + 1) else .aborted id error }
        | _ => none
  | .destroyLoop id =>
      some { state with deleter := if id < state.nextId then .destroyRead id else .deleted }
  | .destroyRead id =>
      some { state with
        deleter := if id < state.services.length then .destroyLoop (id + 1) else .crashed id }
  | .aborted _ _ | .crashed _ | .deleted => none

def step (state : State) : Action -> Option State
  | .takeId creator capacity cells => takeId state creator capacity cells
  | .storeSlot => storeSlot state
  | .service id action => serviceStep state id action
  | .enterDelete owner => enterDelete state owner
  | .delete => deleteStep state

/-- `service_pool_new`. -/
def State.empty : State where
  nextId := 0
  services := []
  registering := none
  owner := none
  deleter := .idle

/-- A pool starts without services. -/
def machine : Machine State Action where
  initial := fun state => state = .empty
  step := step

/-! ## What the deletion promises -/

/-- The service has had a `service_stop` that returned. -/
def Stopped (service : Service.State) : Prop :=
  Exists fun position : Nat => service.calls[position]? = some (.stop .returned)

/-- Only services that were stopped are joined, so that none of them is NEW or
RUNNING; no join makes the deletion give up, and no slot is missing; and what is
destroyed at the end is FREED. -/
structure Orderly (state : State) : Prop where
  joins : forall id index, state.deleter = .joining id index ->
    Exists fun service => state.services[id]? = some service ∧ Stopped service ∧
      service.shared.state ≠ .new ∧ service.shared.state ≠ .running
  completes : forall id error, state.deleter ≠ .aborted id error
  present : forall id, state.deleter ≠ .crashed id
  frees : (Exists fun id => state.deleter = .destroyLoop id) ∨ state.deleter = .deleted ->
    forall service, service ∈ state.services -> service.shared.state = .freed

/-- The deletion has left the loop that stops. -/
def DeleterPc.pastStops : DeleterPc -> Bool
  | .idle | .stopLoop _ | .stopRead _ | .stopping _ _ => false
  | .joinLoop _ | .joinRead _ | .joining _ _ | .aborted _ _ | .destroyLoop _ | .destroyRead _
  | .crashed _ | .deleted => true

/-- If the loop that stops is about to read a slot, that slot is stored. -/
def DeleterPc.Finds (count : Nat) : DeleterPc -> Prop
  | .stopRead id => id < count
  | _ => True

instance (count : Nat) : (deleter : DeleterPc) -> Decidable (deleter.Finds count)
  | .stopRead id => inferInstanceAs (Decidable (id < count))
  | .idle | .stopLoop _ | .stopping _ _ | .joinLoop _ | .joinRead _ | .joining _ _ | .aborted _ _
  | .destroyLoop _ | .destroyRead _ | .crashed _ | .deleted => inferInstanceAs (Decidable True)

/-- The thread that deletes is none of the services'; `next_id` is not counted up
behind the back of the loop that stops; and that loop reads no slot while a
registration has counted `next_id` up without having stored it. -/
def Steady (state : State) : Action -> Prop
  | .takeId _ _ _ => state.deleter.pastStops = false
  | .enterDelete owner => owner = none
  | .delete => state.deleter.Finds state.services.length
  | .storeSlot | .service _ _ => True

instance (state : State) (action : Action) : Decidable (Steady state action) := by
  cases action <;> unfold Steady <;> infer_instance

/-! ## The services of a pool -/

/-- Every service of the pool has run by itself so far, and only joins have
freed it. -/
def Independent (services : List Service.State) : Prop :=
  forall (id : Nat) service, services[id]? = some service ->
    (Service.machine id).Reachable service ∧ JoinInvariant service

theorem step_stopCall {self : ServiceId} {state next : Service.State} {action : Service.Action}
    (reachable : (Service.machine self).Reachable state)
    (moved : (Service.machine self).step state action = some next) {position : Nat}
    {pc : Service.StopPc} (located : state.calls[position]? = some (.stop pc)) :
    Exists fun after => next.calls[position]? = some (.stop after) ∧
      (pc = .returned -> after = .returned) := by
  rcases Service.reachable_call_step reachable moved located with ⟨after, later, rfl | callMoved⟩
  · exact ⟨pc, later, id⟩
  · cases callMoved with
    | stop stopMoved =>
        refine ⟨_, later, ?_⟩
        rintro rfl
        cases stopMoved

theorem step_stopped {self : ServiceId} {state next : Service.State} {action : Service.Action}
    (reachable : (Service.machine self).Reachable state)
    (moved : (Service.machine self).step state action = some next) (stopped : Stopped state) :
    Stopped next := by
  rcases stopped with ⟨position, returned⟩
  rcases step_stopCall reachable moved returned with ⟨after, later, stays⟩
  refine ⟨position, ?_⟩
  rw [later, stays rfl]

theorem Independent.set {services : List Service.State} (independent : Independent services)
    {id : Nat} {service next : Service.State} {action : Service.Action}
    (present : services[id]? = some service) (indirect : action ≠ .call .free)
    (moved : Service.step id service action = some next) : Independent (services.set id next) := by
  have before := independent id service present
  apply forall_set independent
  intro _
  exact ⟨before.1.step moved, Service.step_joinInvariant before.1 before.2 indirect moved⟩

/-! ## How far the deletion has come -/

/-- The services before this position have been stopped. -/
def DeleterPc.stops (count : Nat) : DeleterPc -> Nat
  | .idle => 0
  | .stopLoop id | .stopRead id | .stopping id _ => id
  | .joinLoop _ | .joinRead _ | .joining _ _ | .aborted _ _ | .destroyLoop _ | .destroyRead _
  | .crashed _ | .deleted => count

/-- The services before this position have been joined. -/
def DeleterPc.joins (count : Nat) : DeleterPc -> Nat
  | .idle | .stopLoop _ | .stopRead _ | .stopping _ _ | .aborted _ _ | .crashed _ => 0
  | .joinLoop id | .joinRead id | .joining id _ => id
  | .destroyLoop _ | .destroyRead _ | .deleted => count

/-- What the slot or the call the deletion is at says. -/
def DeleterPc.Waits (services : List Service.State) : DeleterPc -> Prop
  | .stopping id index =>
      Exists fun service => services[id]? = some service ∧
        Exists fun pc => service.calls[index]? = some (.stop pc)
  | .joinRead id | .destroyRead id => id < services.length
  | .joining id index =>
      Exists fun service => services[id]? = some service ∧ JoinsStopped service index
  | .aborted _ _ | .crashed _ => False
  | .idle | .stopLoop _ | .stopRead _ | .joinLoop _ | .destroyLoop _ | .deleted => True

/-- A service may take a step in which its stops stay stops and its joins stay
joins. -/
theorem DeleterPc.Waits.set {services : List Service.State} {deleter : DeleterPc}
    (waits : deleter.Waits services) {id : Nat} {service next : Service.State}
    (present : services[id]? = some service)
    (stops : forall (index : Nat) pc, service.calls[index]? = some (.stop pc) ->
      Exists fun after => next.calls[index]? = some (.stop after))
    (joins : forall index, JoinsStopped service index -> JoinsStopped next index) :
    deleter.Waits (services.set id next) := by
  have below := length_of_getElem? present
  cases deleter with
  | stopping target index =>
      rcases waits with ⟨waited, found, pc, located⟩
      by_cases own : id = target
      · subst own
        cases found.symm.trans present
        exact ⟨next, List.getElem?_set_self below, stops index pc located⟩
      · exact ⟨waited, (List.getElem?_set_ne own).trans found, pc, located⟩
  | joining target index =>
      rcases waits with ⟨waited, found, joined⟩
      by_cases own : id = target
      · subst own
        cases found.symm.trans present
        exact ⟨next, List.getElem?_set_self below, joins index joined⟩
      · exact ⟨waited, (List.getElem?_set_ne own).trans found, joined⟩
  | joinRead | destroyRead => exact Nat.lt_of_lt_of_eq waits List.length_set.symm
  | aborted | crashed => exact waits
  | idle | stopLoop | stopRead | joinLoop | destroyLoop | deleted => trivial

/-- What has been taken of `next_id` is stored, up to the registration that holds
the lock; behind the loop that stops there is none. -/
structure Progress (state : State) : Prop where
  independent : Independent state.services
  counted : state.nextId = state.services.length + state.registering.toList.length
  fresh : forall registration, state.registering = some registration ->
    Service.Fresh registration.service
  outside : state.owner = none
  closed : state.deleter.pastStops = true -> state.registering = none
  bound : state.deleter.stops state.services.length ≤ state.services.length
  stopped : forall (id : Nat) service, state.services[id]? = some service ->
    id < state.deleter.stops state.services.length ->
    Stopped service ∧ 3 ≤ service.shared.state.rank
  freed : forall (id : Nat) service, state.services[id]? = some service ->
    id < state.deleter.joins state.services.length -> service.shared.state = .freed
  waits : state.deleter.Waits state.services

/-- A step of one service takes the deletion neither back nor forth. -/
theorem Progress.set {state : State} (progress : Progress state) {id : Nat}
    {service next : Service.State} {action : Service.Action}
    (present : state.services[id]? = some service) (indirect : action ≠ .call .free)
    (moved : Service.step id service action = some next) :
    Progress { state with services := state.services.set id next } := by
  have before := progress.independent id service present
  have below := length_of_getElem? present
  refine ⟨progress.independent.set present indirect moved, ?_, progress.fresh, progress.outside,
    progress.closed, ?_, ?_, ?_, ?_⟩
  · simp only [List.length_set]
    exact progress.counted
  · simp only [List.length_set]
    exact progress.bound
  · simp only [List.length_set]
    apply forall_set progress.stopped
    intro _ stops
    have told := progress.stopped id service present stops
    exact ⟨step_stopped before.1 moved told.1, Service.step_stopping before.1 told.2 moved⟩
  · simp only [List.length_set]
    apply forall_set progress.freed
    intro _ joins
    exact Service.step_freed before.1 before.2 (progress.freed id service present joins) moved
  · apply DeleterPc.Waits.set progress.waits present
    · intro index pc located
      rcases step_stopCall before.1 moved located with ⟨after, later, _⟩
      exact ⟨after, later⟩
    · intro index joins
      exact Service.step_joinsStopped before.1 before.2 joins moved

/-- While services are still being stopped, one more does not matter. -/
theorem DeleterPc.Waits.append {services : List Service.State} {deleter : DeleterPc}
    (waits : deleter.Waits services) (early : deleter.pastStops = false) {added : Service.State} :
    deleter.Waits (services ++ [added]) := by
  cases deleter with
  | idle | stopLoop | stopRead => trivial
  | stopping id index =>
      rcases waits with ⟨waited, found, located⟩
      exact ⟨waited, (List.getElem?_append_left (length_of_getElem? found)).trans found, located⟩
  | joinLoop | joinRead | joining | aborted | destroyLoop | destroyRead | crashed | deleted =>
      cases early

/-- The deletion enters a call: a step of the service it enters. -/
theorem enter_cases {state next : State} {id : Nat} {request : Service.Request}
    {after : Nat -> DeleterPc} {otherwise : DeleterPc}
    (moved : enter state id request after otherwise = some next) :
    (Exists fun service => Exists fun entered => state.services[id]? = some service ∧
      Service.step id service (.call request) = some entered ∧
      entered.calls[service.calls.length]? = some request.call ∧
      entered.shared = service.shared ∧
      next = { state with
        services := state.services.set id entered, deleter := after service.calls.length }) ∨
    (state.services.length ≤ id ∧ next = { state with deleter := otherwise }) := by
  unfold enter at moved
  split at moved
  · rename_i service present
    cases moved
    refine Or.inl ⟨service, _, present, rfl, ?_, rfl, rfl⟩
    exact List.getElem?_concat_length
  · rename_i absent
    cases moved
    exact Or.inr ⟨List.getElem?_eq_none_iff.mp absent, rfl⟩

/-- The deletion moves on between two calls. -/
theorem Progress.move {state : State} (progress : Progress state) {deleter : DeleterPc}
    (closed : deleter.pastStops = true -> state.registering = none)
    (bound : deleter.stops state.services.length ≤ state.services.length)
    (stopped : forall (id : Nat) service, state.services[id]? = some service ->
      id < deleter.stops state.services.length ->
      Stopped service ∧ 3 ≤ service.shared.state.rank)
    (freed : forall (id : Nat) service, state.services[id]? = some service ->
      id < deleter.joins state.services.length -> service.shared.state = .freed)
    (waits : deleter.Waits state.services) : Progress { state with deleter } :=
  ⟨progress.independent, progress.counted, progress.fresh, progress.outside, closed, bound, stopped,
    freed, waits⟩

/-- A loop that has reached position `id + 1` has also covered `id`. -/
theorem covered_succ {property : Service.State -> Prop} {services : List Service.State} {id : Nat}
    (before : forall (index : Nat) service, services[index]? = some service -> index < id ->
      property service)
    (own : forall service, services[id]? = some service -> property service) :
    forall (index : Nat) service, services[index]? = some service -> index < id + 1 ->
      property service := by
  intro index service present bound
  rcases Nat.lt_succ_iff_lt_or_eq.mp bound with below | rfl
  · exact before index service present below
  · exact own service present

theorem takeId_progress {state next : State} {creator : Option Nat} {capacity : Nat}
    {cells : List Letter} (progress : Progress state)
    (steady : state.deleter.pastStops = false)
    (moved : takeId state creator capacity cells = some next) : Progress next := by
  unfold takeId at moved
  split at moved
  · rename_i guard
    rcases Option.map_eq_some_iff.mp moved with ⟨box, created, rfl⟩
    refine ⟨progress.independent, ?_, ?_, progress.outside, ?_, progress.bound, progress.stopped,
      progress.freed, progress.waits⟩
    · have before := progress.counted
      rw [Option.isNone_iff_eq_none.mp guard.2.2.1] at before
      exact congrArg Nat.succ before
    · intro registration same
      rw [← Option.some.inj same]
      exact ⟨capacity, cells, box, guard.2.2.2.2.2.2, created, rfl⟩
    · intro past
      rw [steady] at past
      cases past
  · cases moved

theorem storeSlot_progress {state next : State} (progress : Progress state)
    (moved : storeSlot state = some next) : Progress next := by
  unfold storeSlot at moved
  split at moved
  · cases moved
  rcases Option.map_eq_some_iff.mp moved with ⟨registration, held, rfl⟩
  rcases progress.fresh registration held with ⟨capacity, cells, box, sized, created, fresh⟩
  have early : state.deleter.pastStops = false := by
    apply Bool.eq_false_iff.mpr
    intro past
    rw [progress.closed past] at held
    cases held
  have reachable : (Service.machine state.services.length).Reachable registration.service :=
    ⟨_, [], ⟨capacity, cells, box, sized, created, fresh⟩, rfl⟩
  have joinable : JoinInvariant registration.service := by
    rw [fresh]
    exact Service.fresh_joinInvariant box
  have counts (count : Nat) : state.deleter.stops count = state.deleter.stops state.services.length ∧
      state.deleter.joins count = 0 := by
    cases pc : state.deleter with
    | idle | stopLoop | stopRead | stopping => exact ⟨rfl, rfl⟩
    | joinLoop | joinRead | joining | aborted | destroyLoop | destroyRead | crashed | deleted =>
        rw [pc] at early
        cases early
  refine ⟨?_, ?_, ?_, progress.outside, ?_, ?_, ?_, ?_, ?_⟩
  · exact forall_append_singleton progress.independent ⟨reachable, joinable⟩
  · have before := progress.counted
    rw [held] at before
    rw [List.length_append]
    exact before
  · intro other absent
    cases absent
  · exact fun _ => rfl
  · rw [(counts _).1, List.length_append]
    exact Nat.le_trans progress.bound (Nat.le_add_right _ _)
  · rw [(counts _).1]
    apply forall_append_singleton progress.stopped
    intro beyond
    exact absurd beyond (Nat.not_lt.mpr progress.bound)
  · rw [(counts _).2]
    intro id service present none
    cases none
  · exact progress.waits.append early

/-- When a loop has gone through all numbers, every slot is stored. -/
theorem Progress.all_stored {state : State} (progress : Progress state)
    {id : Nat} (past : ¬id < state.nextId) (within : id ≤ state.services.length) :
    state.registering = none ∧ state.services.length ≤ id := by
  have counted := progress.counted
  cases held : state.registering with
  | none =>
      rw [held] at counted
      exact ⟨rfl, Nat.le_trans (Nat.le_of_eq counted.symm) (Nat.not_lt.mp past)⟩
  | some registration =>
      rw [held] at counted
      have one : state.nextId = state.services.length + 1 := counted
      omega

/-- Behind the loop that stops `next_id` counts the stored slots. -/
theorem Progress.stored {state : State} (progress : Progress state)
    (past : state.deleter.pastStops = true) : state.nextId = state.services.length := by
  have counted := progress.counted
  rw [progress.closed past] at counted
  exact counted

theorem deleteStep_progress {state next : State} (progress : Progress state)
    (finds : state.deleter.Finds state.services.length)
    (moved : deleteStep state = some next) : Progress next := by
  rcases state with ⟨nextId, services, registering, owner, deleter⟩
  cases deleter with
  | idle => cases moved
  | stopLoop id =>
      cases moved
      dsimp only
      split
      · exact progress.move Bool.noConfusion progress.bound progress.stopped progress.freed trivial
      · rename_i past
        have all := progress.all_stored past progress.bound
        refine progress.move (fun _ => all.1) (Nat.le_refl _) ?_ ?_ trivial
        · intro index service present below
          exact progress.stopped index service present (Nat.lt_of_lt_of_le below all.2)
        · intro index service present none
          cases none
  | stopRead id =>
      rcases enter_cases moved with ⟨service, entered, present, taken, located, _, rfl⟩ | ⟨past, _⟩
      · have after := progress.set present (by decide) taken
        refine after.move Bool.noConfusion after.bound after.stopped after.freed ?_
        exact ⟨entered, List.getElem?_set_self (length_of_getElem? present), .retire, located⟩
      · exact absurd finds (Nat.not_lt.mpr past)
  | stopping id index =>
      rcases Option.bind_eq_some_iff.mp moved with ⟨service, present, inner⟩
      split at inner
      · rename_i returned
        cases inner
        have told := Service.reachable_told (progress.independent id service present).1 index _ returned
        refine progress.move Bool.noConfusion (length_of_getElem? present) ?_ progress.freed trivial
        apply covered_succ progress.stopped
        intro other found
        cases found.symm.trans present
        exact ⟨⟨index, returned⟩, told⟩
      · cases inner
  | joinLoop id =>
      have stored := progress.stored rfl
      cases moved
      dsimp only
      split
      · rename_i more
        exact progress.move progress.closed (Nat.le_refl _) progress.stopped progress.freed
          (Nat.lt_of_lt_of_eq more stored)
      · rename_i past
        refine progress.move progress.closed (Nat.le_refl _) progress.stopped ?_ trivial
        intro index service present below
        exact progress.freed index service present
          (Nat.lt_of_lt_of_le below (stored ▸ Nat.not_lt.mp past))
  | joinRead id =>
      have host : owner = none := progress.outside
      subst host
      rcases enter_cases moved with
        ⟨service, entered, present, taken, located, shared, rfl⟩ | ⟨past, _⟩
      · have told := progress.stopped id service present (length_of_getElem? present)
        have after := progress.set present (by rintro ⟨⟩) taken
        refine after.move after.closed after.bound after.stopped after.freed ?_
        refine ⟨entered, List.getElem?_set_self (length_of_getElem? present), ?_, .enter, located, ?_⟩
        · rw [shared]
          exact told.2
        · intro error returned
          cases returned
      · exact absurd progress.waits (Nat.not_lt.mpr past)
  | joining id index =>
      rcases Option.bind_eq_some_iff.mp moved with ⟨service, present, inner⟩
      split at inner
      · rename_i fromThread error returned
        cases inner
        rcases progress.waits with ⟨waited, found, joins⟩
        cases found.symm.trans present
        rcases joins.call with ⟨pc, located, returns⟩
        cases returned.symm.trans located
        rcases returns error rfl with ⟨success, freed⟩
        rw [if_pos success]
        refine progress.move progress.closed (Nat.le_refl _) progress.stopped ?_ trivial
        apply covered_succ progress.freed
        intro other found
        cases found.symm.trans present
        exact freed
      · cases inner
  | destroyLoop id =>
      have stored := progress.stored rfl
      cases moved
      dsimp only
      split
      · rename_i more
        exact progress.move progress.closed (Nat.le_refl _) progress.stopped progress.freed
          (Nat.lt_of_lt_of_eq more stored)
      · exact progress.move progress.closed (Nat.le_refl _) progress.stopped progress.freed trivial
  | destroyRead id =>
      cases moved
      have present : id < services.length := progress.waits
      dsimp only
      rw [if_pos present]
      exact progress.move progress.closed (Nat.le_refl _) progress.stopped progress.freed trivial
  | aborted id error => cases moved
  | crashed id => cases moved
  | deleted => cases moved

theorem step_progress (state : State) (action : Action) (next : State) (progress : Progress state)
    (moved : (machine.restrict Steady).step state action = some next) : Progress next := by
  rcases Machine.restrict_step_eq_some moved with ⟨steady, taken⟩
  cases action with
  | takeId creator capacity cells => exact takeId_progress progress steady taken
  | storeSlot => exact storeSlot_progress progress taken
  | service id action =>
      have taken : serviceStep state id action = some next := taken
      unfold serviceStep at taken
      split at taken
      · rename_i guard
        rcases Option.bind_eq_some_iff.mp taken with ⟨service, present, inner⟩
        split at inner
        · cases inner
        rcases Option.map_eq_some_iff.mp inner with ⟨after, serviceMoved, rfl⟩
        exact progress.set present guard.1 serviceMoved
      · cases taken
  | enterDelete owner =>
      have taken : enterDelete state owner = some next := taken
      unfold enterDelete at taken
      split at taken
      · cases taken
        refine ⟨progress.independent, progress.counted, progress.fresh, steady, Bool.noConfusion,
          Nat.zero_le _, ?_, ?_, trivial⟩
        · intro id service present none
          cases none
        · intro id service present none
          cases none
      · cases taken
  | delete => exact deleteStep_progress progress steady taken

theorem initial_progress (state : State) (initial : state = .empty) : Progress state := by
  subst initial
  refine ⟨?_, rfl, ?_, rfl, fun _ => rfl, Nat.le_refl _, ?_, ?_, trivial⟩
  · intro id service present
    cases present
  · intro registration absent
    cases absent
  · intro id service present
    cases present
  · intro id service present
    cases present

theorem Progress.orderly {state : State} (progress : Progress state) : Orderly state := by
  have waits := progress.waits
  constructor
  · intro id index joining
    rw [joining] at waits
    rcases waits with ⟨service, present, joins⟩
    have below : id < state.deleter.stops state.services.length := by
      rw [joining]
      exact length_of_getElem? present
    have told := progress.stopped id service present below
    refine ⟨service, present, told.1, ?_, Service.Phase.ne_running told.2⟩
    intro new
    have rank := told.2
    rw [new] at rank
    exact absurd rank (by decide)
  · intro id error aborted
    rw [aborted] at waits
    exact waits
  · intro id crashed
    rw [crashed] at waits
    exact waits
  · intro past service member
    rcases List.mem_iff_getElem?.mp member with ⟨id, present⟩
    apply progress.freed id service present
    rcases past with ⟨reached, past⟩ | past <;>
    · rw [past]
      exact length_of_getElem? present

/-- In a run in which the deleting thread is none of the services', in which
`next_id` is not counted up after the deletion has left the loop that stops, and
in which that loop reads no slot that a registration has yet to store, the
deletion joins what it has stopped, never gives up, and ends with every service
of the pool FREED. -/
theorem pool_delete_orderly {state : State} (reachable : (machine.restrict Steady).Reachable state) :
    Orderly state := by
  have progress : Progress state := reachable.invariant initial_progress step_progress
  exact progress.orderly

/-! ## A service that appears between the two loops -/

def free : Service.Outcome := ⟨none, 0⟩

def emptyCells : List Letter :=
  List.replicate 16 ⟨⟨0, 0, 0, .system, none⟩, 0⟩

/-- `service_new` without anybody in between. -/
def register (creator : Option Nat) : List Action :=
  [.takeId creator 16 emptyCells, .storeSlot]

/-- Service 0 is started and enters a callback of the user; the deletion then
stops it. -/
def stopFirst : List Action :=
  List.flatten
    [register none, [.service 0 (.call .start), .service 0 (.advance 0 free)],
      List.replicate 11 (.service 0 (.thread .next)),
      [.service 0 (.thread .callback), .enterDelete none],
      List.replicate 2 .delete,
      List.replicate 4 (.service 0 (.advance 1 free)),
      [.delete]]

/-- The callback of service 0 ends and its thread shuts down, while the
deletion waits for it. -/
def joinFirst : List Action :=
  List.flatten
    [List.replicate 2 .delete,
      [.service 0 (.thread (.lua .done)), .service 0 (.thread .next),
        .service 0 (.thread .wakeControl)],
      List.replicate 6 (.service 0 (.thread .next)),
      [.service 0 (.thread .inboxClosed), .service 0 (.thread .controlClosed),
        .service 0 (.thread .exit)],
      List.replicate 5 (.service 0 (.thread .next)),
      [.service 0 (.thread (.visit [])), .service 0 (.thread (.lua .next))],
      List.replicate 5 (.service 0 (.thread .next)),
      List.replicate 10 (.service 0 (.advance 2 free)),
      [.delete]]

/-- The callback of service 0 registers service 1 when the deletion has just
left its first loop. -/
def lateRegistration : List Action :=
  List.flatten
    [stopFirst, [.delete], register (some 0), joinFirst,
      List.replicate 2 .delete, [.service 1 (.advance 0 free), .delete]]

/-- The deletion gives up on a NEW service which it has never stopped. -/
theorem pool_delete_aborts_on_new :
    Exists fun state => machine.Reachable state ∧ state.deleter = .aborted 1 Service.EINVAL ∧
      ¬ Orderly state := by
  have ends : (machine.run .empty lateRegistration).any
      (fun final => decide (final.deleter = .aborted 1 Service.EINVAL)) = true := by
    decide +kernel
  rcases machine.exists_reachable rfl ends with ⟨state, reachable, aborted⟩
  exact ⟨state, reachable, aborted, fun orderly => orderly.completes 1 Service.EINVAL aborted⟩

/-- The loop that stops has passed a slot that is stored after it was read. -/
def tornRegistration : List Action :=
  List.flatten
    [stopFirst, [.takeId (some 0) 16 emptyCells], List.replicate 2 .delete, [.storeSlot, .delete],
      joinFirst, List.replicate 2 .delete, [.service 1 (.advance 0 free), .delete]]

example : (machine.run .empty tornRegistration).any
    (fun final => decide (final.deleter = .aborted 1 Service.EINVAL)) = true := by decide +kernel

/-- The same registration one step earlier is seen by both loops. -/
def timelyRegistration : List Action :=
  List.flatten
    [stopFirst, register (some 0), List.replicate 2 .delete,
      List.replicate 3 (.service 1 (.advance 0 free)),
      List.replicate 2 .delete,
      joinFirst,
      List.replicate 2 .delete,
      List.replicate 10 (.service 1 (.advance 1 free)),
      List.replicate 7 .delete]

theorem pool_delete_orderly_timely :
    Exists fun state => (machine.restrict Steady).Reachable state ∧ state.deleter = .deleted ∧
      state.services.length = 2 ∧ Orderly state := by
  have ends : ((machine.restrict Steady).run .empty timelyRegistration).any
      (fun final => decide (final.deleter = .deleted ∧ final.services.length = 2)) = true := by
    decide +kernel
  rcases (machine.restrict Steady).exists_reachable rfl ends with ⟨state, reachable, deleted, two⟩
  exact ⟨state, reachable, deleted, two, pool_delete_orderly reachable⟩

end ServicePool
end ServiceRuntime
