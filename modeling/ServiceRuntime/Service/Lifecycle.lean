import ServiceRuntime.Service.Inbox

namespace ServiceRuntime
namespace Service

open Lua (Letter Co)
open Foundation

/-!
# The life of a service

`service_t.state` is written by whoever calls into the service and by its own
thread.  The program counter of the thread bounds what the others can have
done: while the thread initialises the service is STARTING or already told to
stop, while it closes down the service is STOPPING, and nobody moves it past
STOPPED before the thread has ended.
-/

/-! ## Stages of the thread -/

inductive Stage where
  | unborn
  | starting
  | operating
  | closing
  | ended
  deriving DecidableEq, Repr

def ThreadPc.stage : ThreadPc -> Stage
  | .unborn => .unborn
  | .loopInit | .loopReady | .inboxInit | .inboxReady | .controlInit | .controlReady
  | .readStop _ | .luaInit | .publish _ => .starting
  | .startupSend | .looping | .asyncCheck | .popping _ | .quitting _ _ | .overload _ _
  | .failStop _ | .finishBatch | .resend | .controlRead | .finishLock => .operating
  | .lua pc => if pc.Stopping then .closing else .operating
  | .shutdown _ _ | .closeHandles _ | .notifyStop | .finishRun | .luaClose
  | .finishPublish => .closing
  | .ended => .ended

/-- The service will never have a thread: it was stopped before it started. -/
def Threadless (shared : Shared) : Prop :=
  shared.threadCreated = false ∧ 4 ≤ shared.state.rank

/-- Not yet past the point where the start is published. -/
def Pending (shared : Shared) : Prop :=
  (shared.state = .starting ∧ shared.stopRequested = false) ∨
    (shared.state = .stopping ∧ shared.stopRequested = true)

/-- What a stage of the thread says about the shared state. -/
def Stage.Fits (shared : Shared) : Stage -> Prop
  | .unborn =>
      shared.threadEnded = false ∧
        ((shared.threadCreated = true ∧ Pending shared) ∨
          (shared.threadCreated = false ∧ shared.state = .new ∧ shared.stopRequested = false) ∨
          Threadless shared)
  | .starting => shared.threadEnded = false ∧ shared.threadCreated = true ∧ Pending shared
  | .operating =>
      shared.threadEnded = false ∧ shared.threadCreated = true ∧
        ((shared.state = .running ∧ shared.stopRequested = false) ∨ shared.state = .stopping)
  | .closing =>
      shared.threadEnded = false ∧ shared.threadCreated = true ∧ shared.state = .stopping
  | .ended => shared.threadEnded = true ∧ shared.threadCreated = true ∧ 4 ≤ shared.state.rank

/-- A NEW service has no thread yet. -/
theorem Stage.Fits.fits_new {shared : Shared} {stage : Stage} (fits : stage.Fits shared)
    (new : shared.state = .new) :
    stage = .unborn ∧ shared.threadEnded = false ∧ shared.threadCreated = false ∧
      shared.stopRequested = false := by
  have early : ¬ 4 ≤ shared.state.rank := by
    rw [new]
    decide
  have settled : ¬ Pending shared := by
    intro pending
    rcases pending with pending | pending <;> rw [new] at pending <;> cases pending.1
  cases stage with
  | unborn =>
      rcases fits.2 with ⟨_, pending⟩ | fresh | past
      · exact False.elim (settled pending)
      · exact ⟨rfl, fits.1, fresh.1, fresh.2.2⟩
      · exact False.elim (early past.2)
  | starting => exact False.elim (settled fits.2.2)
  | operating =>
      rcases fits.2.2 with running | stopping
      · cases new.symm.trans running.1
      · cases new.symm.trans stopping
  | closing => cases new.symm.trans fits.2.2
  | ended => exact False.elim (early fits.2.2)

/-- From STOPPED on there is no live thread. -/
theorem Stage.Fits.late {shared : Shared} {stage : Stage} (fits : stage.Fits shared)
    (late : 4 ≤ shared.state.rank) : Threadless shared ∨ shared.threadEnded = true := by
  have settled : ¬ Pending shared := by
    intro pending
    rcases pending with pending | pending <;> rw [pending.1] at late <;>
      exact absurd late (by decide)
  cases stage with
  | unborn =>
      rcases fits.2 with ⟨_, pending⟩ | fresh | past
      · exact False.elim (settled pending)
      · rw [fresh.2.1] at late
        exact absurd late (by decide)
      · exact Or.inl past
  | starting => exact False.elim (settled fits.2.2)
  | operating =>
      rcases fits.2.2 with running | stopping
      · rw [running.1] at late
        exact absurd late (by decide)
      · rw [stopping] at late
        exact absurd late (by decide)
  | closing =>
      rw [fits.2.2] at late
      exact absurd late (by decide)
  | ended => exact Or.inr fits.1

/-! ## What other threads do to the state -/

/-- The fields a stage speaks about are unchanged. -/
structure SamePhase (shared next : Shared) : Prop where
  state : next.state = shared.state
  created : next.threadCreated = shared.threadCreated
  requested : next.stopRequested = shared.stopRequested
  ended : next.threadEnded = shared.threadEnded

/-- Every change of `state` outside the service thread. -/
inductive PhaseStep (shared next : Shared) : Prop where
  | same (equal : SamePhase shared next)
  | stopNew (before : shared.state = .new) (after : next.state = .stopped)
      (created : next.threadCreated = shared.threadCreated)
      (ended : next.threadEnded = shared.threadEnded)
  | stop (before : shared.state = .starting ∨ shared.state = .running) (after : next.state = .stopping)
      (requested : next.stopRequested = true)
      (created : next.threadCreated = shared.threadCreated)
      (ended : next.threadEnded = shared.threadEnded)
  | start (before : shared.state = .new) (after : next.state = .starting)
      (created : next.threadCreated = true) (requested : next.stopRequested = shared.stopRequested)
      (ended : next.threadEnded = shared.threadEnded)
  | join (past : Threadless shared ∨ shared.threadEnded = true) (after : 5 ≤ next.state.rank)
      (created : next.threadCreated = shared.threadCreated)
      (ended : next.threadEnded = shared.threadEnded)

namespace PhaseStep

variable {shared next : Shared}

theorem threadless (moved : PhaseStep shared next) (before : Threadless shared) : Threadless next := by
  have late := before.2
  cases moved with
  | same equal => exact ⟨equal.created.trans before.1, equal.state ▸ before.2⟩
  | stopNew new after created ended | start new after created ended =>
      rw [new] at late
      exact absurd late (by decide)
  | stop active after requested created ended =>
      rcases active with active | active <;> rw [active] at late <;> exact absurd late (by decide)
  | join past after created ended => exact ⟨created.trans before.1, Nat.le_of_succ_le after⟩

theorem ended (moved : PhaseStep shared next) : next.threadEnded = shared.threadEnded := by
  cases moved with
  | same equal => exact equal.ended
  | stopNew _ _ _ ended | stop _ _ _ _ ended | start _ _ _ _ ended | join _ _ _ ended => exact ended

/-- No other thread can break what the stage of the service thread says. -/
theorem fits (moved : PhaseStep shared next) {stage : Stage} (before : stage.Fits shared) :
    stage.Fits next := by
  have kept := moved.threadless
  cases moved with
  | same equal =>
      cases stage <;>
        simpa only [Stage.Fits, Pending, Threadless, equal.state, equal.created, equal.requested,
          equal.ended] using before
  | stopNew new after created ended =>
      rcases Stage.Fits.fits_new before new with ⟨rfl, unended, uncreated, _⟩
      have past : Threadless next := ⟨created.trans uncreated, by rw [after]; decide⟩
      exact ⟨ended.trans unended, Or.inr (Or.inr past)⟩
  | stop active after requested created ended =>
      cases stage with
      | unborn =>
          refine ⟨ended.trans before.1, ?_⟩
          rcases before.2 with ⟨born, _⟩ | fresh | past
          · exact Or.inl ⟨created.trans born, Or.inr ⟨after, requested⟩⟩
          · rw [fresh.2.1] at active
            rcases active with active | active <;> cases active
          · exact Or.inr (Or.inr (kept past))
      | starting => exact ⟨ended.trans before.1, created.trans before.2.1, Or.inr ⟨after, requested⟩⟩
      | operating => exact ⟨ended.trans before.1, created.trans before.2.1, Or.inr after⟩
      | closing => exact ⟨ended.trans before.1, created.trans before.2.1, after⟩
      | ended =>
          have late := before.2.2
          rcases active with active | active <;> rw [active] at late <;> exact absurd late (by decide)
  | start new after created requested ended =>
      rcases Stage.Fits.fits_new before new with ⟨rfl, unended, _, unrequested⟩
      exact ⟨ended.trans unended, Or.inl ⟨created, Or.inl ⟨after, requested.trans unrequested⟩⟩⟩
  | join past after created ended =>
      have alive (unended : shared.threadEnded = false) (born : shared.threadCreated = true) : False := by
        rcases past with past | past
        · cases born.symm.trans past.1
        · cases unended.symm.trans past
      cases stage with
      | unborn =>
          refine ⟨ended.trans before.1, ?_⟩
          rcases past with past | past
          · exact Or.inr (Or.inr (kept past))
          · cases before.1.symm.trans past
      | starting | operating | closing => exact False.elim (alive before.1 before.2.1)
      | ended => exact ⟨ended.trans before.1, created.trans before.2.1, Nat.le_of_succ_le after⟩

end PhaseStep

/-! ## The calls -/

/-- What a join in progress knows. -/
def JoinPc.Fits (shared : Shared) : JoinPc -> Prop
  | .waiting hasThread =>
      (hasThread = true -> shared.threadCreated = true) ∧ (hasThread = false -> Threadless shared)
  | .pthreadJoin hasThread => hasThread = false -> Threadless shared
  | .publish => Threadless shared ∨ shared.threadEnded = true
  | _ => True

def Call.Fits (shared : Shared) : Call -> Prop
  | .join _ pc => pc.Fits shared
  | _ => True

/-- A join is only in progress on a service that has or will have no thread to
wait for. -/
def JoiningFits (shared : Shared) : Prop :=
  shared.joining = true -> shared.threadCreated = true ∨ Threadless shared

namespace PhaseStep

variable {shared next : Shared}

theorem created (moved : PhaseStep shared next) (before : shared.threadCreated = true) :
    next.threadCreated = true := by
  cases moved with
  | same equal => exact equal.created.trans before
  | start _ _ created _ _ => exact created
  | stopNew _ _ created _ | stop _ _ _ created _ | join _ _ created _ => exact created.trans before

theorem callFits (moved : PhaseStep shared next) {call : Call} (before : call.Fits shared) :
    call.Fits next := by
  cases call with
  | join fromThread pc =>
      cases pc with
      | waiting hasThread =>
          exact ⟨fun has => moved.created (before.1 has), fun none => moved.threadless (before.2 none)⟩
      | pthreadJoin hasThread => exact fun none => moved.threadless (before none)
      | publish =>
          rcases before with past | ended
          · exact Or.inl (moved.threadless past)
          · exact Or.inr (moved.ended.trans ended)
      | _ => trivial
  | _ => trivial

theorem joiningFits (moved : PhaseStep shared next) (same : next.joining = shared.joining)
    (before : JoiningFits shared) : JoiningFits next := by
  intro joining
  rcases before (same.symm.trans joining) with created | past
  · exact Or.inl (moved.created created)
  · exact Or.inr (moved.threadless past)

end PhaseStep

theorem SendMove.phase {shared next : Shared} {letter : Letter} {pc after : SendPc}
    (moved : SendMove shared letter pc next after) :
    PhaseStep shared next ∧ next.joining = shared.joining := by
  cases moved <;> exact ⟨.same ⟨rfl, rfl, rfl, rfl⟩, rfl⟩

theorem StopMove.phase {shared next : Shared} {pc after : StopPc}
    (moved : StopMove shared pc next after) :
    PhaseStep shared next ∧ next.joining = shared.joining := by
  cases moved with
  | stopNew new => exact ⟨.stopNew new rfl rfl rfl, rfl⟩
  | stop active => exact ⟨.stop active rfl rfl rfl rfl, rfl⟩
  | _ => exact ⟨.same ⟨rfl, rfl, rfl, rfl⟩, rfl⟩

theorem StopMove.created {shared next : Shared} {pc after : StopPc}
    (moved : StopMove shared pc next after) : next.threadCreated = shared.threadCreated := by
  cases moved <;> rfl

theorem StartMove.phase {shared next : Shared} {pc after : StartPc}
    (moved : StartMove shared pc next after) :
    PhaseStep shared next ∧ next.joining = shared.joining := by
  cases moved with
  | start new => exact ⟨.start new rfl rfl rfl rfl, rfl⟩
  | fail new => exact ⟨.stopNew new rfl rfl rfl, rfl⟩
  | _ => exact ⟨.same ⟨rfl, rfl, rfl, rfl⟩, rfl⟩

theorem FreeMove.phase {shared next : Shared} {pc after : FreePc}
    (moved : FreeMove shared pc next after)
    (late : 4 ≤ shared.state.rank -> Threadless shared ∨ shared.threadEnded = true) :
    PhaseStep shared next ∧ next.joining = shared.joining := by
  cases moved with
  | free joined =>
      have past := late (by rw [joined]; decide)
      exact ⟨.join past (show 5 ≤ Phase.freed.rank by decide) rfl rfl, rfl⟩
  | _ => exact ⟨.same ⟨rfl, rfl, rfl, rfl⟩, rfl⟩

theorem JoinMove.phase {shared next : Shared} {fromThread : Bool} {pc after : JoinPc}
    (moved : JoinMove shared fromThread pc next after) (fits : pc.Fits shared)
    (late : 4 ≤ shared.state.rank -> Threadless shared ∨ shared.threadEnded = true)
    (before : JoiningFits shared) : PhaseStep shared next ∧ after.Fits next ∧ JoiningFits next := by
  have same : PhaseStep shared shared := .same ⟨rfl, rfl, rfl, rfl⟩
  cases moved with
  | deadlock | past | refuse | freed => exact ⟨same, trivial, before⟩
  | wait joining =>
      refine ⟨same, ⟨id, fun absent => ?_⟩, before⟩
      rcases before joining with created | past
      · cases absent.symm.trans created
      · exact past
  | claim arrives unjoined allowed =>
      rename_i hasThread
      have past (absent : hasThread = false) : Threadless shared := by
        rcases arrives.2 with ⟨rfl, own⟩ | rfl
        · exact ⟨own.symm.trans absent, by rw [allowed absent]; decide⟩
        · exact fits.2 absent
      refine ⟨.same ⟨rfl, rfl, rfl, rfl⟩, past, fun _ => ?_⟩
      cases has : hasThread with
      | false => exact Or.inr (past has)
      | true =>
          rcases arrives.2 with ⟨rfl, own⟩ | rfl
          · exact Or.inl (own.symm.trans has)
          · exact Or.inl (fits.1 has)
  | reap gone =>
      refine ⟨same, ?_, before⟩
      rcases gone with absent | ended
      · exact Or.inl (fits absent)
      · exact Or.inr ended
  | publish =>
      have joined : PhaseStep shared
          { shared with joinError := 0, threadJoined := true, state := .joined } :=
        .join fits (show 5 ≤ Phase.joined.rank by decide) rfl rfl
      exact ⟨joined, trivial, joined.joiningFits rfl before⟩
  | free moved =>
      have freeing := moved.phase late
      exact ⟨freeing.1, trivial, freeing.1.joiningFits freeing.2 before⟩
  | finish => exact ⟨.same ⟨rfl, rfl, rfl, rfl⟩, trivial, fun joining => by cases joining⟩

theorem CallMove.phase {shared next : Shared} {index : Nat} {call after : Call}
    (moved : CallMove shared index call next after) (fits : call.Fits shared)
    (late : 4 ≤ shared.state.rank -> Threadless shared ∨ shared.threadEnded = true)
    (before : JoiningFits shared) : PhaseStep shared next ∧ after.Fits next ∧ JoiningFits next := by
  have settle {later : Shared} (phase : PhaseStep shared later ∧ later.joining = shared.joining) :
      PhaseStep shared later ∧ True ∧ JoiningFits later :=
    ⟨phase.1, trivial, phase.1.joiningFits phase.2 before⟩
  cases moved with
  | send moved => exact settle moved.phase
  | stop moved => exact settle moved.phase
  | start moved => exact settle moved.phase
  | free moved => exact settle (moved.phase late)
  | join moved => exact moved.phase fits late before

/-! ## The service thread -/

theorem Walk.stage {state : State} {before after : ThreadPc} (walked : Walk state before after)
    (fits : before.stage.Fits state.shared) : after.stage.Fits state.shared := by
  cases walked with
  | born created =>
      refine ⟨fits.1, created, ?_⟩
      rcases fits.2 with ⟨_, pending⟩ | fresh | past
      · exact pending
      · cases created.symm.trans fresh.1
      · cases created.symm.trans past.1
  | control wanted =>
      refine ⟨fits.1, fits.2.1, ?_⟩
      rcases fits.2.2 with running | stopping
      · cases wanted.symm.trans running.2
      · exact stopping
  | notifyNobody _ place | stopDone place => rcases place with rfl | rfl <;> exact fits
  | _ => exact fits

theorem ShutdownMove.phase {self : ServiceId} {shared next : Shared} {pc : ShutdownPc}
    {after : Option ShutdownPc} (moved : ShutdownMove self shared pc next after) :
    SamePhase shared next ∧ next.joining = shared.joining := by
  cases moved <;> exact ⟨⟨rfl, rfl, rfl, rfl⟩, rfl⟩

theorem threadMove_stage {self : ServiceId} {state next : State} (moved : ThreadMove self state next)
    (fits : state.thread.stage.Fits state.shared) : next.thread.stage.Fits next.shared := by
  cases moved with
  | walk located walked =>
      rw [located] at fits
      exact walked.stage fits
  | started located wanted =>
      rw [located] at fits
      exact ⟨fits.1, fits.2.1, Or.inl ⟨rfl, wanted⟩⟩
  | notStarted located reason =>
      rw [located] at fits
      exact ⟨fits.1, fits.2.1, Or.inr rfl⟩
  | selfWake located =>
      rcases located with located | located <;> rw [located] at fits <;> exact fits
  | lua located internal internal' moved =>
      rename_i pc choice vm after
      rw [located] at fits
      simp only [ThreadPc.stage] at fits ⊢
      cases before : pc.Stopping with
      | true =>
          rw [before] at fits
          cases after.Stopping with
          | true => exact fits
          | false => exact ⟨fits.1, fits.2.1, Or.inr fits.2.2⟩
      | false =>
          rw [before] at fits
          cases stopping : after.Stopping with
          | true => cases before.symm.trans (moved.stopping stopping)
          | false => exact fits
  | quitStep located moved | failStep located moved =>
      rw [located] at fits
      exact moved.phase.1.fits fits
  | quitDone located =>
      rw [located] at fits
      simp only [ThreadPc.stage, Lua.AfterQuit.pc_stopping]
      exact fits
  | overloaded located place =>
      rw [located] at fits
      rw [place]
      split
      · exact fits
      · split <;> exact fits
  | shutdownStep located moved =>
      rw [located] at fits
      exact (PhaseStep.same moved.phase.1).fits fits
  | shutdownDone located moved =>
      rename_i caller pc shared
      rw [located] at fits
      have kept := (PhaseStep.same moved.phase.1).fits fits
      cases caller <;> exact kept
  | closeHandles located =>
      rename_i caller
      rw [located] at fits
      cases caller with
      | control => exact ⟨fits.1, fits.2.1, Or.inr fits.2.2⟩
      | finish => exact fits
  | finishLock located =>
      rw [located] at fits
      refine ⟨fits.1, fits.2.1, ?_⟩
      rcases fits.2.2 with running | stopping
      · simp only [running.1]
        rfl
      · simp only [stopping]
        rfl
  | published located =>
      rw [located] at fits
      exact ⟨rfl, fits.2.1, show 4 ≤ Phase.stopped.rank by decide⟩
  | inboxClosed located | controlClosed located =>
      rcases located with located | located <;> rw [located] at fits ⊢ <;> exact fits
  | loopReady located | inboxReady located | controlReady located | luaReady located
  | batchGoesOn located | batchEnds located | luaClosed located | wakeInbox located
  | wakeControl located | popped located | poppedNone located =>
      rw [located] at fits
      exact fits

theorem Stage.Fits.created {shared : Shared} {stage : Stage} (fits : stage.Fits shared)
    (born : stage ≠ .unborn) : shared.threadCreated = true := by
  cases stage with
  | unborn => exact False.elim (born rfl)
  | starting | operating | closing | ended => exact fits.2.1

theorem ThreadPc.lua_born (pc : Lua.Pc) : (ThreadPc.lua pc).stage ≠ .unborn := by
  simp only [ThreadPc.stage]
  split <;> exact Stage.noConfusion

theorem threadMove_born {self : ServiceId} {state next : State} (moved : ThreadMove self state next) :
    next.thread.stage ≠ .unborn := by
  cases moved with
  | walk located walked =>
      cases walked with
      | notifyNobody _ place | stopDone place => rcases place with rfl | rfl <;> exact Stage.noConfusion
      | _ => exact Stage.noConfusion
  | lua | quitDone => exact ThreadPc.lua_born _
  | overloaded located place =>
      rw [place]
      split
      · exact Stage.noConfusion
      · split <;> exact Stage.noConfusion
  | shutdownDone located moved =>
      rename_i caller pc shared
      cases caller <;> exact Stage.noConfusion
  | closeHandles located =>
      rename_i caller
      cases caller <;> exact Stage.noConfusion
  | inboxClosed located | controlClosed located =>
      rcases located with located | located <;> rw [located] <;> exact Stage.noConfusion
  | _ => exact Stage.noConfusion

/-- The thread never touches what a join relies on, except by ending. -/
theorem threadMove_frame {self : ServiceId} {state next : State} (moved : ThreadMove self state next) :
    next.shared.threadCreated = state.shared.threadCreated ∧
      next.shared.joining = state.shared.joining ∧
      (state.shared.threadEnded = true -> next.shared.threadEnded = true) := by
  cases moved with
  | quitStep located moved | failStep located moved =>
      exact ⟨moved.created, moved.phase.2, moved.phase.1.ended.trans⟩
  | shutdownStep located moved | shutdownDone located moved =>
      exact ⟨moved.phase.1.created, moved.phase.2, moved.phase.1.ended.trans⟩
  | published located => exact ⟨rfl, rfl, fun _ => rfl⟩
  | _ => exact ⟨rfl, rfl, id⟩

/-! ## The invariant -/

structure Lifecycle (state : State) : Prop where
  stage : state.thread.stage.Fits state.shared
  calls : forall (index : Nat) call, state.calls[index]? = some call -> call.Fits state.shared
  joining : JoiningFits state.shared

theorem step_lifecycle (self : ServiceId) (state : State) (action : Action) (next : State)
    (reachable : (machine self).Reachable state) (life : Lifecycle state)
    (moved : (machine self).step state action = some next) : Lifecycle next := by
  rcases reachable_step_cases reachable moved with
    ⟨request, rfl⟩ | ⟨index, call, shared, after, present, callMoved, rfl⟩ | threadMoved
  · refine ⟨life.stage, ?_, life.joining⟩
    apply forall_append_singleton life.calls
    cases request <;> trivial
  · have result := callMoved.phase (life.calls index call present)
      (Stage.Fits.late life.stage) life.joining
    refine ⟨result.1.fits life.stage, ?_, result.2.2⟩
    apply forall_set (fun position member found => result.1.callFits (life.calls position member found))
    intro _
    exact result.2.1
  · have after := threadMove_stage threadMoved life.stage
    have frame := threadMove_frame threadMoved
    have created := Stage.Fits.created after (threadMove_born threadMoved)
    have createdBefore : state.shared.threadCreated = true := frame.1.symm.trans created
    have threaded : ¬ Threadless state.shared := by
      intro past
      cases createdBefore.symm.trans past.1
    refine ⟨after, ?_, fun _ => Or.inl created⟩
    intro index call present
    rw [threadMoved.calls] at present
    have before := life.calls index call present
    cases call with
    | join fromThread pc =>
        cases pc with
        | waiting hasThread =>
            exact ⟨fun _ => created, fun absent => False.elim (threaded (before.2 absent))⟩
        | pthreadJoin hasThread => exact fun absent => False.elim (threaded (before absent))
        | publish =>
            rcases before with past | ended
            · exact False.elim (threaded past)
            · exact Or.inr (frame.2.2 ended)
        | _ => trivial
    | _ => trivial

theorem fresh_lifecycle (state : State) (fresh : Fresh state) : Lifecycle state := by
  rcases fresh with ⟨capacity, cells, box, _sized, _created, rfl⟩
  refine ⟨⟨rfl, Or.inr (Or.inl ⟨rfl, rfl, rfl⟩)⟩, ?_, ?_⟩
  · intro index call present
    cases present
  · intro joining
    cases joining

theorem reachable_lifecycle {self : ServiceId} {state : State}
    (reachable : (machine self).Reachable state) : Lifecycle state :=
  reachable.induction fresh_lifecycle (step_lifecycle self)

theorem Lifecycle.ended_of_threadEnded {state : State} (life : Lifecycle state)
    (ended : state.shared.threadEnded = true) : state.thread = .ended := by
  have fits := life.stage
  cases pc : state.thread with
  | ended => rfl
  | lua inner =>
      rw [pc] at fits
      simp only [ThreadPc.stage] at fits
      split at fits <;> cases fits.1.symm.trans ended
  | _ =>
      rw [pc] at fits
      cases fits.1.symm.trans ended

theorem Lifecycle.unborn_of_threadless {state : State} (life : Lifecycle state)
    (threadless : state.shared.threadCreated = false) : state.thread = .unborn := by
  have fits := life.stage
  have unborn : state.thread.stage = .unborn := by
    by_contra born
    cases threadless.symm.trans (Stage.Fits.created fits born)
  cases pc : state.thread with
  | unborn => rfl
  | lua inner =>
      rw [pc] at unborn
      exact False.elim (ThreadPc.lua_born inner unborn)
  | _ =>
      rw [pc] at unborn
      cases unborn

/-- From STOPPED on the thread has ended, or there never was one. -/
theorem Lifecycle.over_of_late {state : State} (life : Lifecycle state)
    (late : 4 ≤ state.shared.state.rank) : state.thread = .unborn ∨ state.thread = .ended := by
  rcases Stage.Fits.late life.stage late with past | ended
  · exact Or.inl (life.unborn_of_threadless past.1)
  · exact Or.inr (life.ended_of_threadEnded ended)

/-- A service that had a thread is STOPPED only when the thread has ended. -/
theorem Lifecycle.ended_of_stopped {state : State} (life : Lifecycle state)
    (created : state.shared.threadCreated = true) (stopped : state.shared.state = .stopped) :
    state.thread = .ended := by
  have late : 4 ≤ state.shared.state.rank := by
    rw [stopped]
    decide
  rcases Stage.Fits.late life.stage late with past | ended
  · cases created.symm.trans past.1
  · exact life.ended_of_threadEnded ended

theorem ThreadMove.alive {self : ServiceId} {state next : State} (moved : ThreadMove self state next) :
    state.thread ≠ .ended := by
  intro ended
  cases moved with
  | walk located walked =>
      rw [ended] at located
      subst located
      cases walked
  | selfWake located | inboxClosed located | controlClosed located =>
      rcases located with located | located <;> cases ended.symm.trans located
  | loopReady located | inboxReady located | controlReady located | luaReady located
  | batchGoesOn located | batchEnds located | luaClosed located | wakeInbox located
  | wakeControl located | popped located | poppedNone located | overloaded located
  | closeHandles located | published located | finishLock located | shutdownDone located
  | shutdownStep located | failStep located | quitDone located | quitStep located
  | lua located | notStarted located | started located =>
      cases ended.symm.trans located

/-- A thread that still moves is not STOPPED yet. -/
theorem ThreadMove.early {self : ServiceId} {state next : State} (moved : ThreadMove self state next)
    (life : Lifecycle state) : ¬ 4 ≤ state.shared.state.rank := by
  intro late
  have created : state.shared.threadCreated = true := by
    have after := threadMove_stage moved life.stage
    exact (threadMove_frame moved).1.symm.trans
      (Stage.Fits.created after (threadMove_born moved))
  rcases Stage.Fits.late life.stage late with past | ended
  · cases created.symm.trans past.1
  · exact moved.alive (life.ended_of_threadEnded ended)

end Service
end ServiceRuntime
