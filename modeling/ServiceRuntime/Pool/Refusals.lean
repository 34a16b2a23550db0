import ServiceRuntime.Pool.Registry

namespace ServiceRuntime
namespace Refusals

open Lua (Letter)
open Service (Call Phase Shared FreePc callStep EBUSY EINVAL EDEADLK EALREADY)
open Registry (LuaString Entry)
open Foundation

/-!
# Calls that are refused

`service_start`, `service_join` and `service_free` look at the state of the
service under `state_lock` and may refuse.  What a call does to the service is
what its own steps do, whatever other threads do in between: a run is watched
from the moment a function is entered, and the steps of that one call are
noted, each with the pool it found and the pool it left.

The registry is extended by `service->config`, which `service_new` is given,
`service_init_lua` frees when it is done with it, and `service_free` frees with
the service.
-/

/-- A pool, and the configuration each service still holds. -/
structure State (Config : Type) where
  pool : Registry.State
  config : Nat -> Option Config

/-- A step of the pool, with the configuration `service_new` is given and
whether `service_init_lua`, if it is this step, frees it. -/
structure Action (Config : Type) where
  move : Registry.Action
  given : Option Config
  frees : Bool

/-- Where a call stands in `service_free`, called directly or by `service_join`. -/
def freePc : Call -> Option FreePc
  | .free pc | .join _ (.free pc) => some pc
  | _ => none

/-- The call at a position of the service in a slot. -/
def callAt (pool : Registry.State) (id index : Nat) : Option Call :=
  (pool.slot id).bind fun entry => entry.service.calls[index]?

/-- The locked section of `service_free` that takes the service apart. -/
def takesApart (pool : Registry.State) (id index : Nat) : Prop :=
  (callAt pool id index).bind freePc = some .lock ∧
    (pool.slot id).map (fun entry => entry.service.shared.state) = some .joined

/-- The service thread is in `service_init_lua`. -/
def initialises (pool : Registry.State) (id : Nat) : Prop :=
  (pool.slot id).map (fun entry => entry.service.thread) = some .luaInit

instance (pool : Registry.State) (id index : Nat) : Decidable (takesApart pool id index) :=
  inferInstanceAs (Decidable (_ ∧ _))

instance (pool : Registry.State) (id : Nat) : Decidable (initialises pool id) :=
  inferInstanceAs (Decidable (_ = _))

variable {Config : Type}

/-- `service->config` set for one service. -/
def setConfig (config : Nat -> Option Config) (id : Nat) (value : Option Config) (other : Nat) :
    Option Config :=
  if other = id then value else config other

/-- What a step does to the configurations. -/
def configAfter (state : State Config) (action : Action Config) : Nat -> Option Config :=
  match action.move with
  | .new request outcome =>
      match (Registry.serviceNew state.pool request outcome).2 with
      | some id => setConfig state.config id action.given
      | none => state.config
  | .service id (.thread _) =>
      if initialises state.pool id ∧ action.frees = true then setConfig state.config id none
      else state.config
  | .service id (.advance index _) =>
      if takesApart state.pool id index then setConfig state.config id none else state.config
  | .service _ (.call _) | .lookup _ | .post _ _ => state.config

def step (state : State Config) (action : Action Config) : Option (State Config) :=
  (Registry.step state.pool action.move).map fun pool => ⟨pool, configAfter state action⟩

def machine (Config : Type) : Machine (State Config) (Action Config) where
  initial := fun state => state.pool = .empty
  step := step

/-! ## What must not change -/

/-- What a refused call is to leave as it was in its service. -/
structure View (Config : Type) where
  phase : Phase
  routable : Bool
  contents : List Letter
  closed : Bool
  config : Option Config

def viewOf (shared : Shared) (config : Option Config) : View Config where
  phase := shared.state
  routable := shared.routable
  contents := shared.box.contents
  closed := shared.box.closed
  config := config

def view (state : State Config) (id : Nat) : Option (View Config) :=
  (state.pool.slot id).map fun entry => viewOf entry.service.shared (state.config id)

/-- The registry: the next identifier, and who is in which slot. -/
def registry (pool : Registry.State) : Nat × List (Option (Nat × List UInt8 × Option LuaString)) :=
  (pool.nextId, pool.services.map fun slot => slot.map fun entry => (entry.id, entry.name, entry.given))

def Unchanged (id : Nat) (source target : State Config) : Prop :=
  view target id = view source id ∧ registry target.pool = registry source.pool

/-! ## The steps of one call -/

/-- A step of the watched call, from `before` to `after`. -/
structure Event (Config : Type) where
  source : State Config
  target : State Config
  before : Call
  after : Call

/-- A call as a function of the library. -/
inductive Function where
  | start
  | join
  | free
  deriving DecidableEq, Repr

/-- The function has just been entered; `service_join` enters `service_free`. -/
inductive Enters : Function -> Call -> Prop where
  | start : Enters .start (.start .lock)
  | join (own : Bool) : Enters .join (.join own .enter)
  | free : Enters .free (.free .retire)
  | freeInJoin (own : Bool) : Enters .free (.join own (.free .retire))

/-- The function refuses: `service_start` with EALREADY, `service_join` with
EDEADLK or EINVAL, `service_free` with EBUSY. -/
inductive Refuses : Function -> Call -> Call -> Prop where
  | already : Refuses .start (.start .lock) (.start (.returned EALREADY))
  | deadlock (own : Bool) : Refuses .join (.join own .enter) (.join own (.returned EDEADLK))
  | invalid (own : Bool) : Refuses .join (.join own .enter) (.join own (.returned EINVAL))
  | invalidAfterWait (own hasThread : Bool) :
      Refuses .join (.join own (.waiting hasThread)) (.join own (.returned EINVAL))
  | busy : Refuses .free (.free .lock) (.free (.returned EBUSY))
  | busyInJoin (own : Bool) :
      Refuses .free (.join own (.free .lock)) (.join own (.free (.returned EBUSY)))

/-- The steps of the call at one position are noted. -/
def noteCall (id index : Nat) (source : State Config) (action : Action Config)
    (target : State Config) : List (Event Config) :=
  match action.move with
  | .service service (.advance position _) =>
      if service = id ∧ position = index then
        match callAt source.pool id index, callAt target.pool id index with
        | some before, some after => [⟨source, target, before, after⟩]
        | _, _ => []
      else []
  | _ => []

def watching (Config : Type) (id index : Nat) :
    Machine (State Config × List (Event Config)) (Action Config) :=
  (machine Config).observe (noteCall id index)

/-- The service was routable no more when `service_free` cleared the flag. -/
def RetiredBefore (id : Nat) (event : Event Config) : Prop :=
  freePc event.before = some .retire ->
    forall entry, event.source.pool.slot id = some entry -> entry.routable = false

/-! ## Where a function can still refuse -/

/-- The function has neither refused nor done anything it cannot take back,
but for clearing `routable`. -/
inductive Undecided : Function -> Call -> Prop where
  | start : Undecided .start (.start .lock)
  | enter (own : Bool) : Undecided .join (.join own .enter)
  | waiting (own hasThread : Bool) : Undecided .join (.join own (.waiting hasThread))
  | free {pc : FreePc} (early : pc = .retire ∨ pc = .wait ∨ pc = .lock) : Undecided .free (.free pc)
  | freeInJoin {pc : FreePc} (own : Bool) (early : pc = .retire ∨ pc = .wait ∨ pc = .lock) :
      Undecided .free (.join own (.free pc))

/-- The function has returned, and its caller does nothing more to the service. -/
inductive Finished : Function -> Call -> Prop where
  | start (error : Service.Errno) : Finished .start (.start (.returned error))
  | join (own : Bool) (error : Service.Errno) : Finished .join (.join own (.returned error))
  | free (error : Service.Errno) : Finished .free (.free (.returned error))
  | freeInJoin (own : Bool) (error : Service.Errno) :
      Finished .free (.join own (.free (.returned error)))
  | finish (own : Bool) (error : Service.Errno) : Finished .free (.join own (.finish error))
  | returned (own : Bool) (error : Service.Errno) : Finished .free (.join own (.returned error))

/-- The function has accepted the request. -/
inductive Accepted : Function -> Call -> Prop where
  | start {pc : Service.StartPc} (past : pc ≠ .lock) : Accepted .start (.start pc)
  | join {pc : Service.JoinPc} (own : Bool) (past : pc ≠ .enter)
      (waited : forall hasThread, pc ≠ .waiting hasThread) : Accepted .join (.join own pc)
  | free {pc : FreePc} (past : pc ≠ .retire ∧ pc ≠ .wait ∧ pc ≠ .lock) : Accepted .free (.free pc)
  | freeInJoin {pc : FreePc} (own : Bool) (past : pc ≠ .retire ∧ pc ≠ .wait ∧ pc ≠ .lock) :
      Accepted .free (.join own (.free pc))
  | finish (own : Bool) (error : Service.Errno) : Accepted .free (.join own (.finish error))
  | returned (own : Bool) (error : Service.Errno) : Accepted .free (.join own (.returned error))

/-- What a step of a function that is still undecided does. -/
inductive EarlyStep (shared : Shared) (function : Function) (call : Call) (next : Shared) (after : Call) :
    Prop where
  | looks (same : next = shared) (notRetire : freePc call ≠ some .retire)
      (notTaken : ¬ (freePc call = some .lock ∧ shared.state = .joined))
      (remains : Undecided function after ∨ Finished function after)
  | retires (isFree : function = .free) (atRetire : freePc call = some .retire)
      (cleared : next = { shared with routable := false }) (undecided : Undecided function after)
  | accepts (accepted : Accepted function after) (silent : ¬ Refuses function call after)

theorem Undecided.silent {function : Function} {call after : Call}
    (undecided : Undecided function after) : ¬ Refuses function call after := by
  intro refuses
  cases refuses with
  | already | deadlock | invalid | invalidAfterWait => cases undecided
  | busy =>
      cases undecided with
      | free early => simp at early
  | busyInJoin =>
      cases undecided with
      | freeInJoin own early => simp at early

/-- `service_free` before it takes the service apart. -/
theorem freeMove_early {shared next : Shared} {pc after : FreePc}
    (moved : Service.FreeMove shared pc next after) (early : pc = .retire ∨ pc = .wait ∨ pc = .lock) :
    (pc = .retire ∧ after = .wait ∧ next = { shared with routable := false }) ∨
      (pc = .wait ∧ after = .lock ∧ next = shared) ∨
      (pc = .lock ∧ after = .returned EBUSY ∧ next = shared ∧ shared.state ≠ .joined) ∨
      (pc = .lock ∧ after = .delete) := by
  cases moved with
  | retire => exact Or.inl ⟨rfl, rfl, rfl⟩
  | wait settled => exact Or.inr (Or.inl ⟨rfl, rfl, rfl⟩)
  | busy unjoined => exact Or.inr (Or.inr (Or.inl ⟨rfl, rfl, rfl, unjoined⟩))
  | free joined => exact Or.inr (Or.inr (Or.inr ⟨rfl, rfl⟩))
  | delete | dispose | done => simp at early

theorem startMove_early {shared next : Shared} {after : Service.StartPc}
    (moved : Service.StartMove shared .lock next after) :
    EarlyStep shared .start (.start .lock) next (.start after) := by
  cases moved with
  | start new =>
      refine .accepts (.start Service.StartPc.noConfusion) ?_
      intro refuses
      cases refuses
  | fail new failed =>
      refine .accepts (.start Service.StartPc.noConfusion) ?_
      intro refuses
      cases refuses
  | already begun =>
      refine .looks rfl ?_ ?_ (Or.inr (.start _))
      · intro impossible
        cases impossible
      · rintro ⟨impossible, _⟩
        cases impossible

/-- `service_join` before it claims the join. -/
theorem joinMove_early {shared next : Shared} {own : Bool} {pc after : Service.JoinPc}
    (moved : Service.JoinMove shared own pc next after)
    (early : pc = .enter ∨ Exists fun hasThread => pc = .waiting hasThread) :
    EarlyStep shared .join (.join own pc) next (.join own after) := by
  have outside : freePc (.join own pc) = none := by
    rcases early with rfl | ⟨hasThread, rfl⟩
    · rfl
    · rfl
  have looks (remains : Undecided .join (.join own after) ∨ Finished .join (.join own after))
      (same : next = shared) : EarlyStep shared .join (.join own pc) next (.join own after) := by
    refine .looks same ?_ ?_ remains
    · rw [outside]
      intro impossible
      cases impossible
    · rw [outside]
      rintro ⟨impossible, _⟩
      cases impossible
  cases moved with
  | deadlock isOwn => exact looks (Or.inr (.join own _)) rfl
  | wait joining => exact looks (Or.inl (.waiting own _)) rfl
  | past arrives done => exact looks (Or.inr (.join own _)) rfl
  | refuse arrives unjoined active => exact looks (Or.inr (.join own _)) rfl
  | claim arrives unjoined allowed =>
      refine .accepts (.join own Service.JoinPc.noConfusion fun _ => Service.JoinPc.noConfusion) ?_
      intro refuses
      cases refuses
  | reap | publish | free | freed | finish => simp at early

/-- `service_free` in a caller that stands in it. -/
theorem freeMove_step {shared next : Shared} {pc after : FreePc} {inCaller : FreePc -> Call}
    (position : forall pc, freePc (inCaller pc) = some pc)
    (undecided : forall pc, pc = .retire ∨ pc = .wait ∨ pc = .lock -> Undecided .free (inCaller pc))
    (finished : forall error, Finished .free (inCaller (.returned error)))
    (accepted : Accepted .free (inCaller .delete))
    (silent : ¬ Refuses .free (inCaller .lock) (inCaller .delete))
    (moved : Service.FreeMove shared pc next after) (early : pc = .retire ∨ pc = .wait ∨ pc = .lock) :
    EarlyStep shared .free (inCaller pc) next (inCaller after) := by
  rcases freeMove_early moved early with
    ⟨rfl, rfl, cleared⟩ | ⟨rfl, rfl, same⟩ | ⟨rfl, rfl, same, unjoined⟩ | ⟨rfl, rfl⟩
  · exact .retires rfl (position .retire) cleared (undecided .wait (Or.inr (Or.inl rfl)))
  · refine .looks same ?_ ?_ (Or.inl (undecided .lock (Or.inr (Or.inr rfl))))
    · simp [position]
    · simp [position]
  · refine .looks same ?_ ?_ (Or.inr (finished EBUSY))
    · simp [position]
    · exact fun taken => unjoined taken.2
  · exact .accepts accepted silent

theorem callStep_start {shared next : Shared} {index : Nat} {outcome : Service.Outcome}
    {pc : Service.StartPc} {after : Call}
    (moved : callStep shared index outcome (.start pc) = some (next, after)) :
    Exists fun later => after = .start later ∧ Service.StartMove shared pc next later := by
  rcases Option.map_eq_some_iff.mp (show Option.map _ (Service.startStep shared outcome.error pc) =
    some (next, after) from moved) with ⟨⟨_, later⟩, taken, result⟩
  cases result
  exact ⟨later, rfl, Service.startStep_move taken⟩

theorem callStep_join {shared next : Shared} {index : Nat} {outcome : Service.Outcome} {own : Bool}
    {pc : Service.JoinPc} {after : Call}
    (moved : callStep shared index outcome (.join own pc) = some (next, after)) :
    Exists fun later => after = .join own later ∧ Service.JoinMove shared own pc next later := by
  rcases Option.map_eq_some_iff.mp (show Option.map _ (Service.joinStep shared own pc) =
    some (next, after) from moved) with ⟨⟨_, later⟩, taken, result⟩
  cases result
  exact ⟨later, rfl, Service.joinStep_move taken⟩

theorem callStep_free {shared next : Shared} {index : Nat} {outcome : Service.Outcome} {pc : FreePc}
    {after : Call} (moved : callStep shared index outcome (.free pc) = some (next, after)) :
    Exists fun later => after = .free later ∧ Service.FreeMove shared pc next later := by
  rcases Option.map_eq_some_iff.mp (show Option.map _ (Service.freeStep shared pc) =
    some (next, after) from moved) with ⟨⟨_, later⟩, taken, result⟩
  cases result
  exact ⟨later, rfl, Service.freeStep_move taken⟩

/-- Past its tests `service_join` does not come back to them. -/
theorem not_arrives {shared : Shared} {hasThread : Bool} {pc : Service.JoinPc} (past : pc ≠ .enter)
    (waited : forall known, pc ≠ .waiting known) : ¬ Service.Arrives shared hasThread pc := by
  rintro ⟨_, ⟨entered, _⟩ | waiting⟩
  · exact past entered
  · exact waited hasThread waiting

theorem early_step {shared next : Shared} {index : Nat} {outcome : Service.Outcome}
    {function : Function} {call after : Call} (undecided : Undecided function call)
    (moved : callStep shared index outcome call = some (next, after)) :
    EarlyStep shared function call next after := by
  cases undecided with
  | start =>
      rcases callStep_start moved with ⟨later, rfl, move⟩
      exact startMove_early move
  | enter own =>
      rcases callStep_join moved with ⟨later, rfl, move⟩
      exact joinMove_early move (Or.inl rfl)
  | waiting own hasThread =>
      rcases callStep_join moved with ⟨later, rfl, move⟩
      exact joinMove_early move (Or.inr ⟨hasThread, rfl⟩)
  | free early =>
      rcases callStep_free moved with ⟨later, rfl, move⟩
      apply freeMove_step (fun _ => rfl) (fun _ early => .free early) .free (.free (by simp)) _ move early
      intro refuses
      cases refuses
  | freeInJoin own early =>
      rcases callStep_join moved with ⟨later, rfl, move⟩
      cases move with
      | free inner =>
          have silent : ¬ Refuses .free (.join own (.free .lock)) (.join own (.free .delete)) := by
            intro refuses
            cases refuses
          exact @freeMove_step _ _ _ _ (fun pc => .join own (.free pc)) (fun _ => rfl)
            (fun _ early => .freeInJoin own early) (.freeInJoin own) (.freeInJoin own (by simp)) silent
            inner early
      | freed => simp at early
      | past arrives | refuse arrives | claim arrives => exact absurd arrives (not_arrives nofun nofun)

/-- After it has returned, the caller changes nothing that a refusal is to keep. -/
theorem finished_step {shared next : Shared} {index : Nat} {outcome : Service.Outcome}
    {function : Function} {call after : Call} (finished : Finished function call)
    (moved : callStep shared index outcome call = some (next, after)) :
    Finished function after ∧ freePc call ≠ some .retire ∧ freePc call ≠ some .lock ∧
      next.state = shared.state ∧ next.routable = shared.routable ∧ next.box = shared.box := by
  cases finished with
  | start error =>
      rcases callStep_start moved with ⟨later, rfl, move⟩
      cases move
  | join own error =>
      rcases callStep_join moved with ⟨later, rfl, move⟩
      cases move with
      | past arrives | refuse arrives | claim arrives => exact absurd arrives (not_arrives nofun nofun)
  | free error =>
      rcases callStep_free moved with ⟨later, rfl, move⟩
      cases move
  | freeInJoin own error =>
      rcases callStep_join moved with ⟨later, rfl, move⟩
      cases move with
      | free inner => cases inner
      | freed => exact ⟨.finish own error, by simp [freePc], by simp [freePc], rfl, rfl, rfl⟩
      | past arrives | refuse arrives | claim arrives => exact absurd arrives (not_arrives nofun nofun)
  | finish own error =>
      rcases callStep_join moved with ⟨later, rfl, move⟩
      cases move with
      | finish => exact ⟨.returned own error, by simp [freePc], by simp [freePc], rfl, rfl, rfl⟩
      | past arrives | refuse arrives | claim arrives => exact absurd arrives (not_arrives nofun nofun)
  | returned own error =>
      rcases callStep_join moved with ⟨later, rfl, move⟩
      cases move with
      | past arrives | refuse arrives | claim arrives => exact absurd arrives (not_arrives nofun nofun)

theorem freeMove_late {shared next : Shared} {pc after : FreePc}
    (moved : Service.FreeMove shared pc next after)
    (past : pc ≠ .retire ∧ pc ≠ .wait ∧ pc ≠ .lock) :
    after ≠ .retire ∧ after ≠ .wait ∧ after ≠ .lock := by
  cases moved with
  | retire | wait | free | busy => simp at past
  | delete | dispose | done => simp

/-- A function that has accepted the request does not refuse it any more. -/
theorem accepted_step {shared next : Shared} {index : Nat} {outcome : Service.Outcome}
    {function : Function} {call after : Call} (accepted : Accepted function call)
    (moved : callStep shared index outcome call = some (next, after)) :
    Accepted function after ∧ ¬ Refuses function call after := by
  have silent : ¬ Refuses function call after := by
    intro refuses
    cases refuses with
    | already =>
        cases accepted with
        | start past => exact past rfl
    | deadlock | invalid =>
        cases accepted with
        | join own past waited => exact past rfl
    | invalidAfterWait own hasThread =>
        cases accepted with
        | join own past waited => exact waited hasThread rfl
    | busy =>
        cases accepted with
        | free past => exact past.2.2 rfl
    | busyInJoin =>
        cases accepted with
        | freeInJoin own past => exact past.2.2 rfl
  refine ⟨?_, silent⟩
  cases accepted with
  | start past =>
      rcases callStep_start moved with ⟨later, rfl, move⟩
      apply Accepted.start
      cases move with
      | start | fail | already => exact absurd rfl past
      | failRetire | failClose | done => exact nofun
  | join own past waited =>
      rcases callStep_join moved with ⟨later, rfl, move⟩
      cases move with
      | deadlock | wait => exact absurd rfl past
      | past arrives | refuse arrives | claim arrives => exact absurd arrives (not_arrives past waited)
      | reap | publish | free | freed | finish => exact .join own nofun nofun
  | free past =>
      rcases callStep_free moved with ⟨later, rfl, move⟩
      exact .free (freeMove_late move past)
  | freeInJoin own past =>
      rcases callStep_join moved with ⟨later, rfl, move⟩
      cases move with
      | free inner => exact .freeInJoin own (freeMove_late inner past)
      | freed => exact .finish own _
      | past arrives | refuse arrives | claim arrives => exact absurd arrives (not_arrives nofun nofun)
  | finish own error =>
      rcases callStep_join moved with ⟨later, rfl, move⟩
      cases move with
      | finish => exact .returned own error
      | past arrives | refuse arrives | claim arrives => exact absurd arrives (not_arrives nofun nofun)
  | returned own error =>
      rcases callStep_join moved with ⟨later, rfl, move⟩
      cases move with
      | past arrives | refuse arrives | claim arrives => exact absurd arrives (not_arrives nofun nofun)

/-! ## Steps of the pool -/

theorem callAt_of_slot {pool : Registry.State} {id index : Nat} {entry : Entry}
    (present : pool.slot id = some entry) : callAt pool id index = entry.service.calls[index]? := by
  unfold callAt
  rw [present]
  rfl

theorem callAt_eq_some {pool : Registry.State} {id index : Nat} {call : Call} :
    callAt pool id index = some call <->
      Exists fun entry => pool.slot id = some entry ∧ entry.service.calls[index]? = some call :=
  Option.bind_eq_some_iff

/-- A service that takes a step is replaced in its slot; the registry stays. -/
theorem registry_update {pool : Registry.State} {id : Nat} {entry : Entry}
    (present : pool.slot id = some entry) (service : Service.State) :
    registry (pool.update id entry service) = registry pool := by
  have inside := Registry.slot_inside present
  have located : pool.services[id]? = some (some entry) := by
    rw [Registry.State.slot, Option.join_eq_some_iff] at present
    exact present
  simp only [registry, Registry.State.update, List.map_set, Prod.mk.injEq, true_and]
  apply List.ext_getElem?
  intro other
  by_cases same : id = other
  · subst same
    rw [List.getElem?_set_self (by rw [List.length_map]; exact inside), List.getElem?_map, located]
    rfl
  · rw [List.getElem?_set_ne same]

/-- A step of the watched call. -/
theorem own_step {id index : Nat} {outcome : Service.Outcome} {action : Action Config}
    {source target : State Config} {before : Call}
    (mine : action.move = .service id (.advance index outcome))
    (present : callAt source.pool id index = some before) (moved : step source action = some target) :
    Exists fun entry => Exists fun shared => Exists fun after => source.pool.slot id = some entry ∧
      callStep entry.service.shared index outcome before = some (shared, after) ∧
      callAt target.pool id index = some after ∧
      view target id = some (viewOf shared
        (if takesApart source.pool id index then none else source.config id)) ∧
      registry target.pool = registry source.pool := by
  rcases Option.map_eq_some_iff.mp moved with ⟨pool, stepped, rfl⟩
  rw [mine] at stepped
  rcases Option.bind_eq_some_iff.mp stepped with ⟨entry, resolved, taken⟩
  rcases Option.map_eq_some_iff.mp taken with ⟨service, advanced, rfl⟩
  have located := (Registry.getService_eq_some.mp resolved).2
  rcases Service.advance_cases advanced with ⟨call, shared, after, standing, called, rfl⟩
  obtain rfl : call = before := by
    rw [callAt_of_slot located, standing, Option.some.injEq] at present
    exact present
  have slots := Registry.slot_update located
    { entry.service with shared, calls := entry.service.calls.set index after } id
  rw [if_pos rfl] at slots
  refine ⟨entry, shared, after, located, called, ?_, ?_, registry_update located _⟩
  · rw [callAt_of_slot slots]
    have inside := (List.getElem?_eq_some_iff.mp standing).1
    exact List.getElem?_set_self inside
  · unfold view
    rw [slots, configAfter, mine]
    simp only [Option.map_some, Option.some.injEq]
    split
    · simp only [setConfig, if_pos]
    · rfl

/-- A step of a service which is not one of the watched call leaves it alone. -/
theorem service_step_spares {self : ServiceId} {index : Nat} {action : Service.Action}
    {state next : Service.State} {call : Call} (present : state.calls[index]? = some call)
    (moved : Service.step self state action = some next)
    (other : forall outcome, action ≠ .advance index outcome) : next.calls[index]? = some call := by
  cases action with
  | call request =>
      cases moved
      exact List.getElem?_append_left (List.getElem?_eq_some_iff.mp present).1 ▸ present
  | advance position outcome =>
      rcases Service.advance_cases moved with ⟨mover, shared, after, _, _, rfl⟩
      have different : position ≠ index := by
        rintro rfl
        exact other outcome rfl
      rw [← present]
      exact List.getElem?_set_ne different
  | thread choice =>
      rw [(Service.threadStep_move moved).calls]
      exact present

/-- The pool after a step of a service: its call is where it was, if the
service spares it. -/
theorem callAt_update {pool : Registry.State} {id moving index : Nat} {entry : Entry} {call : Call}
    {service : Service.State} (located : pool.slot moving = some entry)
    (present : callAt pool id index = some call)
    (spares : entry.service.calls[index]? = some call -> service.calls[index]? = some call) :
    callAt (pool.update moving entry service) id index = some call := by
  have slots := Registry.slot_update located service id
  by_cases same : id = moving
  · subst same
    rw [if_pos rfl] at slots
    rw [callAt_of_slot located] at present
    rw [callAt_of_slot slots]
    exact spares present
  · rw [if_neg same] at slots
    rw [callAt, slots]
    exact present

/-- `service_new` fills a slot that was free. -/
theorem serviceNew_spares {pool : Registry.State} {id : Nat} {entry : Entry}
    {request : Registry.NewRequest} {outcome : Registry.NewOutcome} (sound : Registry.Sound pool)
    (located : pool.slot id = some entry) :
    (Registry.serviceNew pool request outcome).1.slot id = some entry := by
  have contract := sound.newContract request outcome
  cases returned : (Registry.serviceNew pool request outcome).2 with
  | none =>
      rw [contract.unchanged returned]
      exact located
  | some fresh =>
      have registered := contract.registers fresh returned
      have below : id < pool.nextId :=
        (sound.occupied id).mp (Option.isSome_iff_exists.mpr ⟨entry, located⟩)
      rw [registered.2.2 id (by omega)]
      exact located

/-- The call stands where it is while others move. -/
theorem others_step {id index : Nat} {action : Action Config} {source target : State Config}
    {call : Call} (sound : Registry.Sound source.pool)
    (present : callAt source.pool id index = some call) (moved : step source action = some target)
    (other : forall outcome, action.move ≠ .service id (.advance index outcome)) :
    callAt target.pool id index = some call ∧ noteCall id index source action target = [] := by
  rcases Option.map_eq_some_iff.mp moved with ⟨pool, stepped, rfl⟩
  unfold noteCall
  cases kind : action.move with
  | new request outcome =>
      rw [kind] at stepped
      simp only [Registry.step, Option.ite_none_right_eq_some, Option.some.injEq] at stepped
      rcases callAt_eq_some.mp present with ⟨entry, located, standing⟩
      rw [← stepped.2]
      exact ⟨callAt_eq_some.mpr ⟨entry, serviceNew_spares sound located, standing⟩, rfl⟩
  | service moving turn =>
      rw [kind] at stepped other
      rcases Option.bind_eq_some_iff.mp stepped with ⟨entry, resolved, taken⟩
      rcases Option.map_eq_some_iff.mp taken with ⟨service, advanced, rfl⟩
      have located := (Registry.getService_eq_some.mp resolved).2
      by_cases same : moving = id
      · subst same
        have kept : forall outcome, turn ≠ .advance index outcome :=
          fun outcome mine => other outcome (congrArg _ mine)
        refine ⟨callAt_update located present fun standing => service_step_spares standing advanced kept, ?_⟩
        cases turn with
        | advance position outcome =>
            have different : position ≠ index := by
              rintro rfl
              exact kept outcome rfl
            simp [different]
        | call | thread => rfl
      · have slots := Registry.slot_update located service id
        rw [if_neg (Ne.symm same)] at slots
        refine ⟨?_, ?_⟩
        · rw [callAt, slots]
          exact present
        · cases turn with
          | advance position outcome => simp [same]
          | call | thread => rfl
  | lookup name =>
      rw [kind] at stepped
      cases stepped
      exact ⟨present, rfl⟩
  | post client message =>
      rw [kind] at stepped
      rcases Registry.post_cases stepped with ⟨_, found, _, _, _, rfl | ⟨entry, located, rfl⟩⟩
      · exact ⟨present, rfl⟩
      · refine ⟨?_, rfl⟩
        have kept : callAt (source.pool.update found.id entry (entry.enterSend message)) id index =
            some call := by
          apply callAt_update located present
          intro standing
          exact List.getElem?_append_left (List.getElem?_eq_some_iff.mp standing).1 ▸ standing
        exact kept

/-! ## The whole run -/

theorem step_sound {source target : State Config} {action : Action Config}
    (sound : Registry.Sound source.pool) (moved : step source action = some target) :
    Registry.Sound target.pool := by
  rcases Option.map_eq_some_iff.mp moved with ⟨pool, stepped, rfl⟩
  exact (Registry.step_change stepped).sound sound

theorem reachable_sound {state : State Config} (reachable : (machine Config).Reachable state) :
    Registry.Sound state.pool := by
  have established (start : State Config) (initial : (machine Config).initial start) :
      Registry.Sound start.pool := by
    have empty : start.pool = .empty := initial
    rw [empty]
    exact Registry.empty_sound
  exact @Machine.Reachable.invariant _ _ _ (fun state => Registry.Sound state.pool) established
    (fun _ _ _ sound moved => step_sound sound moved) _ reachable

/-- A step that shows nothing, or clears `routable` and shows that it did. -/
def Event.Quiet (id : Nat) (function : Function) (event : Event Config) : Prop :=
  (Unchanged id event.source event.target ∧ freePc event.before ≠ some .retire) ∨
    (function = .free ∧ freePc event.before = some .retire ∧
      (Unchanged id event.source event.target <-> RetiredBefore id event))

/-- The watched call and what has been noted of it. -/
structure Watched (id index : Nat) (function : Function)
    (observed : State Config × List (Event Config)) : Prop where
  sound : Registry.Sound observed.1.pool
  progress : Exists fun call => callAt observed.1.pool id index = some call ∧
    ((Undecided function call ∧ (forall event, event ∈ observed.2 -> event.Quiet id function) ∧
        forall event, event ∈ observed.2 -> ¬ Refuses function event.before event.after) ∨
      (Finished function call ∧ forall event, event ∈ observed.2 -> event.Quiet id function) ∨
      (Accepted function call ∧
        forall event, event ∈ observed.2 -> ¬ Refuses function event.before event.after))

/-- What the watched call did to the service, when it did not take it apart. -/
theorem view_of_own {id index : Nat} {source target : State Config} {entry : Entry} {call : Call}
    {shared : Shared} (located : source.pool.slot id = some entry)
    (present : callAt source.pool id index = some call)
    (shown : view target id = some (viewOf shared
      (if takesApart source.pool id index then none else source.config id)))
    (notTaken : ¬ (freePc call = some .lock ∧ entry.service.shared.state = .joined)) :
    view source id = some (viewOf entry.service.shared (source.config id)) ∧
      view target id = some (viewOf shared (source.config id)) := by
  have whole : ¬ takesApart source.pool id index := by
    simpa [takesApart, present, located] using notTaken
  rw [if_neg whole] at shown
  refine ⟨?_, shown⟩
  unfold view
  rw [located]
  rfl

theorem forall_noted {property : Event Config -> Prop} {events : List (Event Config)}
    {event : Event Config} (sofar : forall earlier, earlier ∈ events -> property earlier)
    (new : property event) : forall noted, noted ∈ events ++ [event] -> property noted :=
  List.forall_mem_append.mpr ⟨sofar, List.forall_mem_singleton.mpr new⟩

theorem Watched.step {id index : Nat} {function : Function}
    {observed next : State Config × List (Event Config)} {action : Action Config}
    (watched : Watched id index function observed)
    (moved : (watching Config id index).step observed action = some next) :
    Watched id index function next := by
  rcases (machine Config).observe_step_eq_some moved with ⟨taken, noted⟩
  rcases watched.progress with ⟨call, present, stands⟩
  refine ⟨step_sound watched.sound taken, ?_⟩
  by_cases mine : Exists fun outcome => action.move = .service id (.advance index outcome)
  · rcases mine with ⟨outcome, mine⟩
    rcases own_step mine present taken with ⟨entry, shared, after, located, called, arrived, shown, kept⟩
    have log : noteCall id index observed.1 action next.1 = [⟨observed.1, next.1, call, after⟩] := by
      simp [noteCall, mine, present, arrived]
    have views := view_of_own located present shown
    rw [log] at noted
    rw [noted]
    refine ⟨after, arrived, ?_⟩
    rcases stands with ⟨undecided, quiet, silent⟩ | ⟨finished, quiet⟩ | ⟨accepted, silent⟩
    · cases early_step undecided called with
      | looks same notRetire notTaken remains =>
          rcases views notTaken with ⟨before, later⟩
          rw [same, ← before] at later
          have rests : (Event.mk observed.1 next.1 call after).Quiet id function :=
            Or.inl ⟨⟨later, kept⟩, notRetire⟩
          have allQuiet := forall_noted quiet rests
          rcases remains with remains | finished
          · exact Or.inl ⟨remains, allQuiet, forall_noted silent remains.silent⟩
          · exact Or.inr (Or.inl ⟨finished, allQuiet⟩)
      | retires isFree atRetire cleared remains =>
          have notTaken : ¬ (freePc call = some .lock ∧ entry.service.shared.state = .joined) := by
            simp [atRetire]
          rcases views notTaken with ⟨before, later⟩
          have exact : Unchanged id observed.1 next.1 <->
              RetiredBefore id ⟨observed.1, next.1, call, after⟩ := by
            unfold Unchanged RetiredBefore
            rw [before, later, cleared, and_iff_left kept, Option.some.injEq]
            simp only [viewOf, View.mk.injEq, true_and, and_true, atRetire, forall_const, located,
              Option.some.injEq, forall_eq', Entry.routable]
            exact eq_comm
          have rests : (Event.mk observed.1 next.1 call after).Quiet id function :=
            Or.inr ⟨isFree, atRetire, exact⟩
          exact Or.inl ⟨remains, forall_noted quiet rests,
            forall_noted silent remains.silent⟩
      | accepts accepted unrefused =>
          exact Or.inr (Or.inr ⟨accepted, forall_noted silent unrefused⟩)
    · rcases finished_step finished called with ⟨remains, notRetire, notLock, phase, routable, box⟩
      rcases views fun taken => notLock taken.1 with ⟨before, later⟩
      have same : view next.1 id = view observed.1 id := by
        rw [before, later, viewOf, viewOf, phase, routable, box]
      exact Or.inr (Or.inl
        ⟨remains, forall_noted quiet (Or.inl ⟨⟨same, kept⟩, notRetire⟩)⟩)
    · rcases accepted_step accepted called with ⟨remains, unrefused⟩
      exact Or.inr (Or.inr ⟨remains, forall_noted silent unrefused⟩)
  · have other : forall outcome, action.move ≠ .service id (.advance index outcome) :=
      fun outcome same => mine ⟨outcome, same⟩
    rcases others_step watched.sound present taken other with ⟨arrived, nothing⟩
    rw [nothing, List.append_nil] at noted
    rw [noted]
    exact ⟨call, arrived, stands⟩

/-- A run that refuses leaves everything as it was, if and only if the service
was not routable any more when `service_free` cleared the flag; `service_start`
and `service_join` do not clear it. -/
theorem refused_harmless_iff {Config : Type} {start : State Config} {id index : Nat} {call : Call}
    {function : Function} {schedule : List (Action Config)} {final : State Config}
    {events : List (Event Config)} (reachable : (machine Config).Reachable start)
    (standing : callAt start.pool id index = some call) (entered : Enters function call)
    (taken : (watching Config id index).run (start, []) schedule = some (final, events))
    (refused : Exists fun event => event ∈ events ∧ Refuses function event.before event.after) :
    (function ≠ .free -> forall event, event ∈ events -> Unchanged id event.source event.target) ∧
      ((forall event, event ∈ events -> Unchanged id event.source event.target) <->
        forall event, event ∈ events -> RetiredBefore id event) := by
  have undecided : Undecided function call := by
    cases entered with
    | start => exact .start
    | join own => exact .enter own
    | free => exact .free (Or.inl rfl)
    | freeInJoin own => exact .freeInJoin own (Or.inl rfl)
  have begun : Watched id index function (start, []) :=
    ⟨reachable_sound reachable, call, standing, Or.inl
      ⟨undecided, List.forall_mem_nil _, List.forall_mem_nil _⟩⟩
  have watched : Watched id index function (final, events) :=
    (watching Config id index).run_preserves (fun _ _ _ sofar moved => sofar.step moved) taken begun
  have quiet : forall event, event ∈ events -> event.Quiet id function := by
    rcases refused with ⟨event, noted, refuses⟩
    rcases watched.progress with ⟨_, _, ⟨_, _, silent⟩ | ⟨_, quiet⟩ | ⟨_, silent⟩⟩
    · exact absurd refuses (silent event noted)
    · exact quiet
    · exact absurd refuses (silent event noted)
  have exact : forall event, event ∈ events ->
      (Unchanged id event.source event.target <-> RetiredBefore id event) := by
    intro event noted
    rcases quiet event noted with ⟨unchanged, elsewhere⟩ | ⟨_, _, exact⟩
    · exact iff_of_true unchanged fun retiring => absurd retiring elsewhere
    · exact exact
  refine ⟨?_, forall₂_congr exact⟩
  intro notFree event noted
  rcases quiet event noted with ⟨unchanged, _⟩ | ⟨isFree, _⟩
  · exact unchanged
  · exact absurd isFree notFree

/-! A service is registered, and `service_free` is called on it twice. -/

def registered : List (Action Unit) :=
  [⟨.new ⟨some [97], true, 16⟩
    ⟨true, true, true, some (.replicate 16 ⟨⟨0, 0, 0, .system, none⟩, 0⟩), true⟩, none, false⟩]

def entersFree : List (Action Unit) := [⟨.service 0 (.call .free), none, false⟩]

def frees (index : Nat) : List (Action Unit) :=
  List.replicate 3 ⟨.service 0 (.advance index ⟨none, 0⟩), none, false⟩

/-- The steps of a call, and whether the service was routable before and after. -/
def shows (events : List (Event Unit)) : List (Call × Call × Option Bool × Option Bool) :=
  events.map fun event =>
    (event.before, event.after, (view event.source 0).map View.routable,
      (view event.target 0).map View.routable)

/-- `service_free` clears the flag and is refused. -/
def busyFree (routable : Bool) : List (Call × Call × Option Bool × Option Bool) :=
  [(.free .retire, .free .wait, some routable, some false),
    (.free .wait, .free .lock, some false, some false),
    (.free .lock, .free (.returned EBUSY), some false, some false)]

/-- The state after a schedule, if the call at a position then shows this. -/
theorem exists_busy {schedule : List (Action Unit)} {index : Nat} {routable : Bool}
    (ends : (((machine Unit).run ⟨.empty, fun _ => none⟩ schedule).any fun start =>
      decide (callAt start.pool 0 index = some (.free .retire)) &&
        ((watching Unit 0 index).run (start, []) (frees index)).any fun observed =>
          decide (shows observed.2 = busyFree routable)) = true) :
    Exists fun start => Exists fun final => Exists fun events => (machine Unit).Reachable start ∧
      callAt start.pool 0 index = some (.free .retire) ∧
      (watching Unit 0 index).run (start, []) (frees index) = some (final, events) ∧
      shows events = busyFree routable ∧
      Exists fun event => event ∈ events ∧ Refuses .free event.before event.after := by
  rcases (Option.any_eq_true _ _).mp ends with ⟨start, reached, later⟩
  rcases Bool.and_eq_true_iff.mp later with ⟨standing, watched⟩
  rcases (Option.any_eq_true _ _).mp watched with ⟨⟨final, events⟩, taken, observed⟩
  have shown := of_decide_eq_true observed
  refine ⟨start, final, events, ⟨⟨.empty, fun _ => none⟩, schedule, rfl, reached⟩,
    of_decide_eq_true standing, taken, shown, ?_⟩
  have last : (Call.free .lock, Call.free (.returned EBUSY), some false, some false) ∈ shows events := by
    rw [shown]
    exact List.mem_cons_of_mem _ (List.mem_cons_of_mem _ List.mem_cons_self)
  rcases List.mem_map.mp last with ⟨event, noted, same⟩
  simp only [Prod.mk.injEq] at same
  refine ⟨event, noted, ?_⟩
  rw [same.1, same.2.1]
  exact .busy

/-- The second `service_free` finds the flag cleared by the first. -/
theorem refused_harmless_iff_again :
    Exists fun start => Exists fun final => Exists fun events =>
      (watching Unit 0 1).run (start, []) (frees 1) = some (final, events) ∧
      (Exists fun event => event ∈ events ∧ Refuses .free event.before event.after) ∧
      forall event, event ∈ events -> Unchanged 0 event.source event.target := by
  rcases @exists_busy (registered ++ entersFree ++ frees 0 ++ entersFree) 1 false (by decide +kernel) with
    ⟨start, final, events, reachable, standing, taken, shown, refused⟩
  refine ⟨start, final, events, taken, refused, ?_⟩
  apply (refused_harmless_iff reachable standing .free taken refused).2.mpr
  intro event noted atRetire entry located
  have step : (event.before, event.after, (view event.source 0).map View.routable,
      (view event.target 0).map View.routable) ∈ busyFree false := by
    rw [← shown]
    exact List.mem_map_of_mem noted
  have before : (view event.source 0).map View.routable = some entry.routable := by
    unfold view
    rw [located]
    rfl
  rw [before] at step
  simp only [busyFree, List.mem_cons, Prod.mk.injEq, List.not_mem_nil, or_false] at step
  rcases step with ⟨_, _, shows, _⟩ | ⟨_, _, shows, _⟩ | ⟨_, _, shows, _⟩ <;> exact Option.some.inj shows

/-- The first leaves a service behind that is not routable any more. -/
theorem busy_retires : ¬ forall (start final : State Unit) (id index : Nat) (call : Call)
    (function : Function) (schedule : List (Action Unit)) (events : List (Event Unit)),
    (machine Unit).Reachable start -> callAt start.pool id index = some call ->
    Enters function call -> (watching Unit id index).run (start, []) schedule = some (final, events) ->
    (Exists fun event => event ∈ events ∧ Refuses function event.before event.after) ->
    forall event, event ∈ events -> Unchanged id event.source event.target := by
  intro harmless
  rcases @exists_busy (registered ++ entersFree) 0 true (by decide +kernel) with
    ⟨start, final, events, reachable, standing, taken, shown, refused⟩
  have first : (Call.free .retire, Call.free .wait, some true, some false) ∈ shows events := by
    rw [shown]
    exact List.mem_cons_self
  rcases List.mem_map.mp first with ⟨event, noted, same⟩
  simp only [Prod.mk.injEq] at same
  have unchanged := harmless start final 0 0 _ .free _ events reachable standing .free taken refused event noted
  have flag := congrArg (Option.map View.routable) unchanged.1
  rw [same.2.2.1, same.2.2.2] at flag
  cases flag

end Refusals
end ServiceRuntime
