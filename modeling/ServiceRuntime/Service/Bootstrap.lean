import ServiceRuntime.Service.Aftermath
import ServiceRuntime.Service.Starting

namespace ServiceRuntime
namespace Service

open Lua (Letter Co)
open Foundation

/-!
# How root ends

`service.bootstrap` starts a service as root, sends it the entry command,
joins it and says why it has stopped.  The reason is `exit_error`, which only
the first failure sets: a dispatcher that raised, `service.quit` with an
error, which is also where a failing entry command ends, or the bootstrap
itself when root refuses the entry command.

The service may be called by other threads all the while, except that only
`service_join` frees it.
-/

/-! ## What a start leaves behind -/

/-- What the result of a start says about the service. -/
def StartOutcome (shared : Shared) (error : Errno) : Prop :=
  (error = 0 -> shared.threadCreated = true) ∧ (error ≠ 0 -> 3 ≤ shared.state.rank)

/-- A service that is not NEW: it has a thread, or it is told to stop. -/
def Begun (shared : Shared) : Prop :=
  shared.threadCreated = true ∨ 3 ≤ shared.state.rank

def StartPc.Sound (shared : Shared) : StartPc -> Prop
  | .lock => True
  | .waiting => shared.threadCreated = true
  | .failRetire error | .failClose error => error ≠ 0 ∧ 3 ≤ shared.state.rank
  | .returned error => (error = EALREADY ∧ Begun shared) ∨ StartOutcome shared error

def Call.StartSound (shared : Shared) : Call -> Prop
  | .start pc => pc.Sound shared
  | _ => True

structure StartSound (state : State) : Prop where
  published : state.shared.startDone = true -> StartOutcome state.shared state.shared.startError
  calls : forall (index : Nat) call, state.calls[index]? = some call -> call.StartSound state.shared

section Outcomes

variable {shared next : Shared}

theorem Begun.later (begun : Begun shared)
    (created : shared.threadCreated = true -> next.threadCreated = true)
    (stopping : 3 ≤ shared.state.rank -> 3 ≤ next.state.rank) : Begun next :=
  begun.imp created stopping

theorem StartOutcome.later {error : Errno} (outcome : StartOutcome shared error)
    (created : shared.threadCreated = true -> next.threadCreated = true)
    (stopping : 3 ≤ shared.state.rank -> 3 ≤ next.state.rank) : StartOutcome next error :=
  ⟨fun zero => created (outcome.1 zero), fun failed => stopping (outcome.2 failed)⟩

theorem StartPc.Sound.later {pc : StartPc} (sound : pc.Sound shared)
    (created : shared.threadCreated = true -> next.threadCreated = true)
    (stopping : 3 ≤ shared.state.rank -> 3 ≤ next.state.rank) : pc.Sound next := by
  cases pc with
  | lock => trivial
  | waiting => exact created sound
  | failRetire error | failClose error => exact ⟨sound.1, stopping sound.2⟩
  | returned error =>
      exact sound.imp (And.imp_right fun begun => begun.later created stopping)
        fun outcome => outcome.later created stopping

theorem Call.StartSound.later {call : Call} (sound : call.StartSound shared)
    (created : shared.threadCreated = true -> next.threadCreated = true)
    (stopping : 3 ≤ shared.state.rank -> 3 ≤ next.state.rank) : call.StartSound next := by
  cases call with
  | start pc => exact StartPc.Sound.later sound created stopping
  | send | stop | join | free => trivial

/-- The start that fails or stops says so. -/
theorem startOutcome_failed {error : Errno} (failed : error ≠ 0) (stopping : 3 ≤ shared.state.rank) :
    StartOutcome shared error :=
  ⟨fun zero => absurd zero failed, fun _ => stopping⟩

theorem StartMove.sound {pc after : StartPc} (moved : StartMove shared pc next after)
    (sound : pc.Sound shared) (begins : shared.state ≠ .new -> Begun shared)
    (published : shared.startDone = true -> StartOutcome shared shared.startError) :
    after.Sound next ∧ (next.startDone = true -> StartOutcome next next.startError) := by
  cases moved with
  | start new =>
      refine ⟨rfl, fun done => ?_⟩
      have before := published done
      refine ⟨fun _ => rfl, fun failed => ?_⟩
      have early := before.2 failed
      rw [new] at early
      exact absurd early (by decide)
  | fail new failed =>
      have late : 3 ≤ Phase.stopped.rank := by decide
      exact ⟨⟨failed, late⟩, fun _ => startOutcome_failed failed late⟩
  | already begun => exact ⟨Or.inl ⟨rfl, begins begun⟩, published⟩
  | failRetire => exact ⟨sound, published⟩
  | failClose => exact ⟨Or.inr (startOutcome_failed sound.1 sound.2), published⟩
  | done finished => exact ⟨Or.inr (published finished), published⟩

theorem StopMove.startOutcome {pc after : StopPc} (moved : StopMove shared pc next after)
    (published : shared.startDone = true -> StartOutcome shared shared.startError) :
    next.startDone = true -> StartOutcome next next.startError := by
  cases moved with
  | stopNew =>
      have failed : ECANCELED ≠ 0 := by decide
      exact fun _ => startOutcome_failed failed (show 3 ≤ Phase.stopped.rank by decide)
  | stop => exact fun done => ⟨(published done).1, fun _ => Nat.le_refl 3⟩
  | retire | late | close | signal => exact published

theorem SameStart.published (same : SameStart shared next)
    (stopping : 3 ≤ shared.state.rank -> 3 ≤ next.state.rank)
    (published : shared.startDone = true -> StartOutcome shared shared.startError)
    (done : next.startDone = true) : StartOutcome next next.startError := by
  rw [same.error]
  exact (published (same.done.symm.trans done)).later same.created.trans stopping

end Outcomes

theorem ThreadMove.startOutcome {self : ServiceId} {state next : State}
    (moved : ThreadMove self state next) (life : Lifecycle state)
    (published : state.shared.startDone = true ->
      StartOutcome state.shared state.shared.startError) :
    next.shared.startDone = true -> StartOutcome next.shared next.shared.startError := by
  have beside (same : SameStart state.shared next.shared) :
      next.shared.startDone = true -> StartOutcome next.shared next.shared.startError :=
    same.published (moved.stopping life) published
  cases moved with
  | started located wanted =>
      have fits := life.stage
      rw [located] at fits
      exact fun _ => ⟨fun _ => fits.2.1, fun failed => absurd rfl failed⟩
  | notStarted located reason coded =>
      refine fun _ => startOutcome_failed ?_ (Nat.le_refl 3)
      show _ ≠ 0
      rw [coded]
      split
      · exact show ECANCELED ≠ 0 by decide
      · assumption
  | quitStep located moved | failStep located moved => exact moved.startOutcome published
  | shutdownStep located moved | shutdownDone located moved => exact beside moved.sameStart
  | _ => exact beside ⟨rfl, rfl, rfl, id⟩

theorem CallMove.startSound {shared next : Shared} {index : Nat} {call after : Call}
    (moved : CallMove shared index call next after) (sound : call.StartSound shared)
    (begins : shared.state ≠ .new -> Begun shared)
    (stopping : 3 ≤ shared.state.rank -> 3 ≤ next.state.rank)
    (published : shared.startDone = true -> StartOutcome shared shared.startError) :
    after.StartSound next ∧ (next.startDone = true -> StartOutcome next next.startError) := by
  cases moved with
  | send moved => exact ⟨trivial, moved.sameStart.published stopping published⟩
  | stop moved => exact ⟨trivial, moved.startOutcome published⟩
  | start moved => exact moved.sound sound begins published
  | join moved => exact ⟨trivial, moved.sameStart.published stopping published⟩
  | free moved => exact ⟨trivial, moved.sameStart.published stopping published⟩

/-- Only a NEW service has neither been started nor stopped. -/
theorem Lifecycle.begun {state : State} (life : Lifecycle state) (late : state.shared.state ≠ .new) :
    Begun state.shared := by
  have fits := life.stage
  cases stage : state.thread.stage with
  | unborn =>
      rw [stage] at fits
      rcases fits.2 with started | new | threadless
      · exact Or.inl started.1
      · exact absurd new.2.1 late
      · exact Or.inr (Nat.le_of_succ_le threadless.2)
  | starting | operating | closing | ended =>
      rw [stage] at fits
      exact Or.inl fits.2.1

/-- A thread once created stays created. -/
theorem step_created {self : ServiceId} {state next : State} {action : Action}
    (reachable : (machine self).Reachable state) (created : state.shared.threadCreated = true)
    (moved : (machine self).step state action = some next) : next.shared.threadCreated = true := by
  rcases reachable_step_cases reachable moved with
    ⟨request, rfl⟩ | ⟨index, call, shared, after, present, callMoved, rfl⟩ | threadMoved
  · exact created
  · exact (reachable_phaseStep reachable present callMoved).created created
  · exact (threadMove_frame threadMoved).1.trans created

theorem step_startSound (self : ServiceId) (state : State) (action : Action) (next : State)
    (reachable : (machine self).Reachable state) (sound : StartSound state)
    (moved : (machine self).step state action = some next) : StartSound next := by
  have life := reachable_lifecycle reachable
  have stopping (before : 3 ≤ state.shared.state.rank) : 3 ≤ next.shared.state.rank :=
    step_stopping reachable before moved
  have created (before : state.shared.threadCreated = true) : next.shared.threadCreated = true :=
    step_created reachable before moved
  rcases reachable_step_cases reachable moved with
    ⟨request, rfl⟩ | ⟨index, call, shared, after, present, callMoved, rfl⟩ | threadMoved
  · refine ⟨sound.published, ?_⟩
    apply forall_append_singleton sound.calls
    cases request <;> trivial
  · have result := callMoved.startSound (sound.calls index call present) life.begun stopping
      sound.published
    refine ⟨result.2, ?_⟩
    apply forall_set fun position other beside =>
      (sound.calls position other beside).later created stopping
    intro _
    exact result.1
  · refine ⟨threadMoved.startOutcome life sound.published, ?_⟩
    intro index call present
    rw [threadMoved.calls] at present
    exact (sound.calls index call present).later created stopping

theorem fresh_startSound (state : State) (fresh : Fresh state) : StartSound state := by
  rcases fresh with ⟨capacity, cells, box, _sized, _created, rfl⟩
  refine ⟨Bool.noConfusion, ?_⟩
  intro index call present
  cases present

theorem reachable_startSound {self : ServiceId} {state : State}
    (reachable : (machine self).Reachable state) : StartSound state :=
  reachable.induction fresh_startSound (step_startSound self)

/-! ## The bootstrap -/

/-- Why `service.bootstrap` returned `nil`. -/
inductive Reason where
  | startFailed (error : Errno)
  | exit (message : String)
  deriving DecidableEq, Repr

/-- Where `service.bootstrap` stands.  Its calls into root are known by their
position among all calls. -/
inductive BootPc where
  | start
  | starting (index : Nat)
  | startFailed (error : Errno)
  | joiningFailed (error : Errno) (index : Nat)
  | send
  | sending (index : Nat)
  | refused (result : SendResult)
  | stopping (index : Nat)
  | join
  | joining (index : Nat)
  | read
  | returned (reason : Option Reason)
  | raised (error : Errno)
  | unpackable
  deriving DecidableEq, Repr

/-- Root, its `exit_error`, and the thread that bootstraps it.  The reports
are ghost: every message `service_set_exit_error` has made a copy of. -/
structure Root where
  service : State
  exitError : Option String
  reports : List String
  boot : BootPc

/-- `service_set_exit_error`; `copied` says that there was memory for the copy. -/
def Root.setExitError (root : Root) (message : String) (copied : Bool) : Root :=
  if copied then
    { root with
      exitError := if root.exitError.isNone then some message else root.exitError
      reports := root.reports ++ [message] }
  else root

/-- The error text of `lservice_send_message`. -/
def SendResult.error : SendResult -> String
  | .full => "MAILBOX_FULL"
  | .notFound => "SERVICE_NOT_FOUND"
  | .stopping => "SERVICE_STOPPING"
  | .ok | .stopped => "SERVICE_STOPPED"

/-- The bootstrap enters a call into root. -/
def Root.enter (root : Root) (request : Request) (boot : Nat -> BootPc) : Root :=
  { root with
    service := { root.service with calls := root.service.calls ++ [request.call] }
    boot := boot root.service.calls.length }

/-- The entry command, a SYSTEM message from the host. -/
def bootMessage (self : ServiceId) : Message :=
  ⟨0, self, 0, .system, some 0⟩

/-- One step of `service.bootstrap` from `pcall(service.start, addr)` to the
reading of the exit error. -/
def bootStep (self : ServiceId) (root : Root) (copied : Bool) : Option Root :=
  match root.boot with
  | .start => some (root.enter .start .starting)
  | .starting index =>
      match root.service.calls[index]? with
      | some (.start (.returned error)) =>
          some { root with boot := if error = 0 then .send else .startFailed error }
      | _ => none
  | .startFailed error =>
      if Phase.stopping.rank ≤ root.service.shared.state.rank then
        some (root.enter (.join false) (.joiningFailed error))
      else some { root with boot := .returned (some (.startFailed error)) }
  | .joiningFailed error index =>
      match root.service.calls[index]? with
      | some (.join _ (.returned _)) =>
          some { root with boot := .returned (some (.startFailed error)) }
      | _ => none
  | .send => some (root.enter (.send (bootMessage self)) .sending)
  | .sending index =>
      match root.service.calls[index]? with
      | some (.send _ (.returned result)) =>
          some { root with boot := if result = .ok then .join else .refused result }
      | _ => none
  | .refused result => some ((root.setExitError result.error copied).enter .stop .stopping)
  | .stopping index =>
      match root.service.calls[index]? with
      | some (.stop .returned) => some { root with boot := .join }
      | _ => none
  | .join => some (root.enter (.join false) .joining)
  | .joining index =>
      match root.service.calls[index]? with
      | some (.join _ (.returned error)) =>
          some { root with boot := if error = 0 then .read else .raised error }
      | _ => none
  | .read => some { root with boot := .returned (root.exitError.map .exit) }
  | .returned _ | .raised _ | .unpackable => none

/-- The service thread is about to report an error: the dispatcher has raised,
or `service.quit` calls `service._stop`. -/
def ThreadPc.failing : ThreadPc -> Bool
  | .lua .raised | .lua (.quitting _) => true
  | _ => false

def reporting (state : State) : Action -> Bool
  | .thread .next => state.thread.failing
  | _ => false

/-- `report` is what the step hands to `service_set_exit_error`: nothing for a
`service.quit` without an error and when there is no memory.  `unpackable` is
`service.pack` raising on the arguments of the entry command. -/
inductive RootAction where
  | service (action : Action) (report : Option String)
  | boot (copied : Bool)
  | unpackable
  deriving DecidableEq, Repr

def rootStep (self : ServiceId) (root : Root) : RootAction -> Option Root
  | .service (.call .free) _ => none
  | .service action none =>
      (step self root.service action).map fun service => { root with service }
  | .service action (some message) =>
      if reporting root.service action then
        (step self root.service action).map fun service =>
          { root.setExitError message true with service }
      else none
  | .boot copied => bootStep self root copied
  | .unpackable => if root.boot = .send then some { root with boot := .unpackable } else none

def rootMachine (self : ServiceId) : Machine Root RootAction where
  initial root := Fresh root.service ∧ root.exitError = none ∧ root.reports = [] ∧ root.boot = .start
  step := rootStep self

/-! ## What the bootstrap knows -/

/-- A join by another thread on a service that has a thread: if it has
returned, it succeeded. -/
structure JoinsCreated (state : State) (index : Nat) : Prop where
  created : state.shared.threadCreated = true
  call : Exists fun pc => state.calls[index]? = some (.join false pc) ∧
    forall error, pc = .returned error -> error = 0 ∧ state.shared.state = .freed

theorem JoinMove.returns_created {state : State} (life : Lifecycle state)
    (invariant : JoinInvariant state) (created : state.shared.threadCreated = true) {index : Nat}
    {pc after : JoinPc} {shared : Shared} (present : state.calls[index]? = some (.join false pc))
    (moved : JoinMove state.shared false pc shared after) {error : Errno}
    (returned : after = .returned error) : error = 0 ∧ shared.state = .freed := by
  cases moved with
  | deadlock own => cases own
  | past arrives done =>
      cases returned
      refine ⟨invariant.error, ?_⟩
      rcases done with joined | freed
      · exact invariant.settled joined arrives.1
      · exact freed
  | refuse arrives unjoined active =>
      rcases arrives.2 with ⟨rfl, absent⟩ | rfl
      · cases created.symm.trans absent.symm
      · have threadless := (life.calls index _ present).2 rfl
        cases created.symm.trans threadless.1
  | finish =>
      cases returned
      have joins := invariant.calls index _ present
      exact ⟨joins.2, joins.1⟩
  | wait | claim | reap | publish | free | freed => cases returned

theorem step_joinsCreated {self : ServiceId} {state next : State} {action : Action}
    (reachable : (machine self).Reachable state) (invariant : JoinInvariant state) {position : Nat}
    (joins : JoinsCreated state position) (moved : (machine self).step state action = some next) :
    JoinsCreated next position := by
  refine ⟨step_created reachable joins.created moved, ?_⟩
  rcases joins.call with ⟨pc, located, returns⟩
  rcases reachable_call_step reachable moved located with ⟨after, later, rfl | callMoved⟩
  · refine ⟨pc, later, fun error returned => ?_⟩
    rcases returns error returned with ⟨success, freed⟩
    exact ⟨success, step_freed reachable invariant freed moved⟩
  · cases callMoved with
    | join joinMoved =>
        exact ⟨_, later, fun error returned => joinMoved.returns_created
          (reachable_lifecycle reachable) invariant joins.created located returned⟩

/-- The reason a bootstrap gives, compared with what has happened.  A root that
did not start is FREED, or else it has a thread, which the `service_start` of
somebody else has made: the bootstrap's own one has returned EALREADY. -/
def Truthful (root : Root) : Option Reason -> Prop
  | none => root.reports = [] ∧ root.service.shared.state = .freed
  | some (.exit message) =>
      root.reports.head? = some message ∧ root.service.shared.state = .freed
  | some (.startFailed error) =>
      error ≠ 0 ∧ ((error = EALREADY ∧ root.service.shared.threadCreated = true) ∨
        root.service.shared.state = .freed)

/-- What the bootstrap knows at each of its points. -/
def Boots (root : Root) : BootPc -> Prop
  | .start | .unpackable => True
  | .starting index => Exists fun pc => root.service.calls[index]? = some (.start pc)
  | .startFailed error =>
      error ≠ 0 ∧ ((error = EALREADY ∧ root.service.shared.threadCreated = true) ∨
        3 ≤ root.service.shared.state.rank)
  | .joiningFailed error index => error ≠ 0 ∧ JoinsStopped root.service index
  | .send | .refused _ | .join => root.service.shared.threadCreated = true
  | .sending _ | .stopping _ => root.service.shared.threadCreated = true
  | .joining index => JoinsCreated root.service index
  | .read => root.service.shared.state = .freed
  | .returned reason => Truthful root reason
  | .raised _ => False

structure RootInvariant (id : ServiceId) (root : Root) : Prop where
  reachable : (machine id).Reachable root.service
  joins : JoinInvariant root.service
  first : root.exitError = root.reports.head?
  boots : Boots root root.boot

/-- The first report wins. -/
theorem Root.setExitError_first {root : Root} (first : root.exitError = root.reports.head?)
    (message : String) (copied : Bool) :
    (root.setExitError message copied).exitError =
      (root.setExitError message copied).reports.head? := by
  cases copied with
  | false => exact first
  | true =>
      simp only [Root.setExitError, if_true, first]
      cases root.reports <;> rfl

/-- The thread reports only while the service is not STOPPED. -/
theorem reporting_early {self : ServiceId} {state : State} (reachable : (machine self).Reachable state)
    {action : Action} (reports : reporting state action = true) :
    ¬ 4 ≤ state.shared.state.rank := by
  intro late
  cases action with
  | call | advance => cases reports
  | thread choice =>
      cases choice with
      | next =>
          rcases (reachable_lifecycle reachable).over_of_late late with unborn | ended
          · rw [reporting, unborn] at reports
            cases reports
          · rw [reporting, ended] at reports
            cases reports
      | fail | wakeInbox | wakeControl | callback | exit | inboxClosed | controlClosed | lua | visit =>
          cases reports

section Steps

variable {self : ServiceId} {root : Root}

/-- A step of the service, of its thread or of anybody's call, changes nothing
the bootstrap relies on; and once the service is FREED nothing is reported. -/
theorem Boots.later {next : Root} {action : Action} {pc : BootPc}
    (reachable : (machine self).Reachable root.service) (joins : JoinInvariant root.service)
    (moved : (machine self).step root.service action = some next.service)
    (quiet : root.service.shared.state = .freed -> next.reports = root.reports)
    (boots : Boots root pc) : Boots next pc := by
  have created (before : root.service.shared.threadCreated = true) :
      next.service.shared.threadCreated = true := step_created reachable before moved
  have freed (before : root.service.shared.state = .freed) : next.service.shared.state = .freed :=
    step_freed reachable joins before moved
  cases pc with
  | start | unpackable => trivial
  | starting index =>
      rcases boots with ⟨pc, located⟩
      rcases reachable_call_step reachable moved located with ⟨after, later, rfl | callMoved⟩
      · exact ⟨pc, later⟩
      · cases callMoved with
        | start => exact ⟨_, later⟩
  | startFailed error =>
      refine ⟨boots.1, boots.2.imp (And.imp_right created) ?_⟩
      exact fun before => step_stopping reachable before moved
  | joiningFailed error index => exact ⟨boots.1, step_joinsStopped reachable joins boots.2 moved⟩
  | send | refused | join | sending | stopping => exact created boots
  | joining index => exact step_joinsCreated reachable joins boots moved
  | read => exact freed boots
  | returned reason =>
      cases reason with
      | none => exact ⟨(quiet boots.2).trans boots.1, freed boots.2⟩
      | some reason =>
          cases reason with
          | exit message => exact ⟨(congrArg List.head? (quiet boots.2)).trans boots.1, freed boots.2⟩
          | startFailed error => exact ⟨boots.1, boots.2.imp (And.imp_right created) freed⟩
  | raised error => exact boots

/-- The bootstrap enters a call. -/
theorem RootInvariant.enter (invariant : RootInvariant self root) {request : Request}
    (indirect : request ≠ .free) {boot : Nat -> BootPc}
    (boots : Boots (root.enter request boot) (boot root.service.calls.length)) :
    RootInvariant self (root.enter request boot) := by
  have moved : (machine self).step root.service (.call request) =
      some (root.enter request boot).service := rfl
  refine ⟨invariant.reachable.step moved, ?_, invariant.first, boots⟩
  exact step_joinInvariant invariant.reachable invariant.joins
    (fun same => indirect (Action.call.inj same)) moved

/-- The call that has just been entered. -/
theorem Root.entered (root : Root) (request : Request) (boot : Nat -> BootPc) :
    (root.enter request boot).service.calls[root.service.calls.length]? = some request.call :=
  List.getElem?_concat_length

/-- A step of the bootstrap that enters no call. -/
theorem RootInvariant.goes (invariant : RootInvariant self root) {boot : BootPc}
    (boots : Boots { root with boot } boot) : RootInvariant self { root with boot } :=
  ⟨invariant.reachable, invariant.joins, invariant.first, boots⟩

theorem bootStep_invariant (invariant : RootInvariant self root) {copied : Bool} {next : Root}
    (moved : bootStep self root copied = some next) : RootInvariant self next := by
  have boots := invariant.boots
  have started := (reachable_startSound invariant.reachable).calls
  unfold bootStep at moved
  split at moved
  · cases moved
    exact invariant.enter Request.noConfusion ⟨_, root.entered .start .starting⟩
  · rename_i index located
    split at moved <;> cases moved
    rename_i own error present
    apply invariant.goes
    have sound := started index _ present
    by_cases zero : error = 0
    · rw [if_pos zero]
      rcases sound with ⟨already, begun⟩ | outcome
      · rw [already] at zero
        exact absurd zero (by decide)
      · exact outcome.1 zero
    · rw [if_neg zero]
      refine ⟨zero, ?_⟩
      rcases sound with ⟨already, created | stopping⟩ | outcome
      · exact Or.inl ⟨already, created⟩
      · exact Or.inr stopping
      · exact Or.inr (outcome.2 zero)
  · rename_i error located
    rw [located] at boots
    split at moved <;> cases moved
    · rename_i stopping
      refine invariant.enter Request.noConfusion ⟨boots.1, stopping, .enter, ?_, ?_⟩
      · exact root.entered (.join false) (.joiningFailed error)
      · intro error impossible
        cases impossible
    · rename_i early
      apply invariant.goes
      exact ⟨boots.1, Or.inl (boots.2.resolve_right early)⟩
  · rename_i error index located
    rw [located] at boots
    split at moved <;> cases moved
    rename_i own result present
    apply invariant.goes
    rcases boots.2.call with ⟨pc, there, returns⟩
    cases present.symm.trans there
    exact ⟨boots.1, Or.inr (returns result rfl).2⟩
  · rename_i located
    rw [located] at boots
    cases moved
    exact invariant.enter Request.noConfusion boots
  · rename_i index located
    rw [located] at boots
    split at moved <;> cases moved
    apply invariant.goes
    split <;> exact boots
  · rename_i result located
    rw [located] at boots
    cases moved
    have recorded : RootInvariant self (root.setExitError result.error copied) := by
      refine ⟨?_, ?_, root.setExitError_first invariant.first _ _, ?_⟩
      all_goals cases copied
      · exact invariant.reachable
      · exact invariant.reachable
      · exact invariant.joins
      · exact invariant.joins
      · exact invariant.boots
      · show Boots { root with exitError := _, reports := _ } root.boot
        rw [located]
        exact boots
    apply recorded.enter Request.noConfusion
    cases copied <;> exact boots
  · rename_i index located
    rw [located] at boots
    split at moved <;> cases moved
    exact invariant.goes boots
  · rename_i located
    rw [located] at boots
    cases moved
    refine invariant.enter Request.noConfusion ⟨boots, .enter, ?_, ?_⟩
    · exact root.entered (.join false) .joining
    · intro error impossible
      cases impossible
  · rename_i index located
    rw [located] at boots
    split at moved <;> cases moved
    rename_i own error present
    apply invariant.goes
    rcases boots.call with ⟨pc, there, returns⟩
    cases present.symm.trans there
    have success := returns error rfl
    rw [if_pos success.1]
    exact success.2
  · rename_i located
    rw [located] at boots
    cases moved
    apply invariant.goes
    have first := invariant.first
    cases reports : root.reports with
    | nil =>
        rw [reports] at first
        simp only [first, List.head?_nil, Option.map_none]
        exact ⟨rfl, boots⟩
    | cons message rest =>
        rw [reports] at first
        simp only [first, List.head?_cons, Option.map_some]
        exact ⟨rfl, boots⟩
  · cases moved
  · cases moved
  · cases moved

/-- A step of the service itself, with what it reports. -/
theorem serviceStep_invariant (invariant : RootInvariant self root) {action : Action}
    (indirect : action ≠ .call .free) {service : State}
    (moved : (machine self).step root.service action = some service) {next : Root}
    (equal : next.service = service) (boot : next.boot = root.boot)
    (first : next.exitError = next.reports.head?)
    (quiet : root.service.shared.state = .freed -> next.reports = root.reports) :
    RootInvariant self next := by
  subst equal
  refine ⟨invariant.reachable.step moved, ?_, first, ?_⟩
  · exact step_joinInvariant invariant.reachable invariant.joins indirect moved
  · rw [boot]
    exact invariant.boots.later invariant.reachable invariant.joins moved quiet

theorem step_rootInvariant {action : RootAction} {next : Root} (invariant : RootInvariant self root)
    (moved : (rootMachine self).step root action = some next) : RootInvariant self next := by
  simp only [rootMachine, rootStep] at moved
  split at moved
  · cases moved
  · rename_i action indirect
    rcases Option.map_eq_some_iff.mp moved with ⟨service, taken, rfl⟩
    exact serviceStep_invariant invariant indirect taken rfl rfl invariant.first fun _ => rfl
  · rename_i action message indirect
    split at moved
    · rename_i reports
      rcases Option.map_eq_some_iff.mp moved with ⟨service, taken, rfl⟩
      refine serviceStep_invariant invariant indirect taken rfl rfl
        (root.setExitError_first invariant.first message true) fun freed => ?_
      have early := reporting_early invariant.reachable reports
      rw [freed] at early
      exact absurd (by decide) early
    · cases moved
  · exact bootStep_invariant invariant moved
  · split at moved
    · cases moved
      exact invariant.goes trivial
    · cases moved

theorem reachable_rootInvariant (reachable : (rootMachine self).Reachable root) :
    RootInvariant self root := by
  apply reachable.invariant
  · rintro start ⟨fresh, unset, silent, begins⟩
    refine ⟨⟨start.service, [], fresh, rfl⟩, ?_, ?_, ?_⟩
    · rcases fresh with ⟨capacity, cells, box, _sized, _created, equal⟩
      rw [equal]
      exact fresh_joinInvariant box
    · rw [unset, silent]
      rfl
    · rw [begins]
      trivial
  · intro state action next invariant moved
    exact step_rootInvariant invariant moved

end Steps

/-- A bootstrap tells the truth about root.  Whatever other threads do to root
meanwhile, it never ends in an error of `service.join`; it returns `true` only
if nothing was ever reported, and otherwise the error that was reported first;
in both cases root is FREED, and nothing is reported afterwards.  When it says
that root did not start, root did not start or was started by someone else. -/
theorem bootstrap_truthful {self : ServiceId} {root : Root}
    (reachable : (rootMachine self).Reachable root) :
    root.exitError = root.reports.head? ∧ (forall error, root.boot ≠ .raised error) ∧
    forall reason, root.boot = .returned reason -> Truthful root reason ∧
      (root.service.shared.state = .freed -> forall schedule final,
        (rootMachine self).run root schedule = some final ->
          final.reports = root.reports ∧ final.boot = root.boot) := by
  have invariant := reachable_rootInvariant reachable
  have boots := invariant.boots
  refine ⟨invariant.first, ?_, ?_⟩
  · intro error raised
    rw [raised] at boots
    exact boots
  · intro reason returned
    rw [returned] at boots
    refine ⟨boots, ?_⟩
    intro freed schedule final taken
    have both : (rootMachine self).Reachable final ∧ (final.service.shared.state = .freed ∧
        final.reports = root.reports ∧ final.boot = root.boot) := by
      apply reachable.relates _ _ taken
      · exact ⟨freed, rfl, rfl⟩
      · rintro current action next sofar ⟨still, reports, boot⟩ moved
        have before := reachable_rootInvariant sofar
        simp only [rootMachine, rootStep] at moved
        split at moved
        · cases moved
        · rcases Option.map_eq_some_iff.mp moved with ⟨service, stepped, rfl⟩
          exact ⟨step_freed before.reachable before.joins still stepped, reports, boot⟩
        · split at moved
          · rename_i reporting
            have early := reporting_early before.reachable reporting
            rw [still] at early
            exact absurd (by decide) early
          · cases moved
        · rw [returned] at boot
          simp only [bootStep, boot] at moved
          cases moved
        · rw [boot, returned] at moved
          cases moved
    exact both.2.2

/-- The handler of the entry command raises. -/
def failingEntry : List RootAction :=
  let free : Outcome := ⟨none, 0⟩
  let thread (choice : ThreadChoice) : RootAction := .service (.thread choice) none
  let call (index : Nat) : RootAction := .service (.advance index free) none
  List.flatten
    [[.boot true, call 0], List.replicate 11 (thread .next), [call 0, .boot true, .boot true],
      List.replicate 5 (call 1), [.boot true, .boot true],
      [thread .wakeInbox, thread .next, thread (.lua .next), thread .next, thread .next,
        thread (.lua .next), thread (.lua (.bootstrap true)), thread (.lua (.raise 0)),
        .service (.thread .next) (some "no entry")],
      List.replicate 5 (thread .next),
      [thread (.lua .next), thread (.lua .next), thread .next, thread .next, thread .wakeControl],
      List.replicate 6 (thread .next),
      [thread .inboxClosed, thread .controlClosed, thread .exit], List.replicate 5 (thread .next),
      [thread (.visit []), thread (.lua .next)], List.replicate 5 (thread .next),
      List.replicate 10 (call 2), [.boot true, .boot true]]

theorem bootstrap_truthful_entry :
    Exists fun root => (rootMachine 7).Reachable root ∧
      root.boot = .returned (some (.exit "no entry")) ∧
      root.reports.head? = some "no entry" ∧ root.service.shared.state = .freed := by
  have ends : ((rootMachine 7).run ⟨.smallest, none, [], .start⟩ failingEntry).any (fun final =>
      decide (final.boot = .returned (some (.exit "no entry")))) = true := by
    decide +kernel
  have initial : (rootMachine 7).initial ⟨.smallest, none, [], .start⟩ :=
    ⟨fresh_smallest, rfl, rfl, rfl⟩
  rcases (rootMachine 7).exists_reachable initial ends with ⟨root, reachable, returned⟩
  have truthful := ((bootstrap_truthful reachable).2.2 _ returned).1
  exact ⟨root, reachable, returned, truthful.1, truthful.2⟩

end Service
end ServiceRuntime
