import ServiceRuntime.Service.Stops

namespace ServiceRuntime
namespace Service

open Lua (Letter Co)
open Foundation

/-!
# The control handle

The first `service_stop` on a service whose control handle is initialised
takes on one signal.  The signal is a token: the stop holds it until
`uv_async_send`, then it is pending in the loop, then the control callback
holds it, and in the end it is turned into the closing of the handle.  A stop
that comes before the handle is ready takes no token; the starting thread then
reads `stop_requested` itself and never enters the loop.

While the thread is in its loop the token exists exactly when a stop has been
requested.  Outside the loop it may be lost, and nobody waits for its holder:
the thread can close the handle before the stop has sent its signal.
-/

/-! ## Parts of the thread -/

inductive Part where
  /-- There is no loop. -/
  | setup
  /-- There is one, and the control handle is not ready. -/
  | opened
  /-- It is, and the start may still succeed. -/
  | armed
  /-- The start has failed. -/
  | failed
  | loop
  | callback
  /-- `service_finish_thread` up to the closing of the loop. -/
  | finish
  | past
  deriving DecidableEq, Repr

def ThreadPc.part : ThreadPc -> Part
  | .unborn | .loopInit | .loopReady => .setup
  | .inboxInit | .inboxReady | .controlInit | .controlReady => .opened
  | .readStop error | .publish error => if error = 0 then .armed else .failed
  | .luaInit => .armed
  | .startupSend | .looping | .asyncCheck | .popping _ | .quitting _ _ | .overload _ _
  | .failStop _ | .finishBatch | .resend => .loop
  | .lua pc => if pc.Stopping then .finish else .loop
  | .controlRead | .shutdown .control _ | .closeHandles .control => .callback
  | .finishLock | .shutdown .finish _ | .notifyStop | .closeHandles .finish | .finishRun => .finish
  | .luaClose | .finishPublish | .ended => .past

/-- In `uv_run` of a RUNNING service, or about to enter it. -/
def Part.inLoop : Part -> Bool
  | .loop | .callback => true
  | .setup | .opened | .armed | .failed | .finish | .past => false

/-- The start has not been published. -/
def Part.early : Part -> Bool
  | .setup | .opened | .armed | .failed => true
  | .loop | .callback | .finish | .past => false

/-- The control handle may be ready. -/
def Part.handles : Part -> Bool
  | .armed | .failed | .loop | .callback | .finish => true
  | .setup | .opened | .past => false

/-! ## The token -/

/-- Has decided to signal the control handle and has not done so. -/
def StopPc.signals : StopPc -> Bool
  | .close decided => decided
  | .signal => true
  | .retire | .lock | .returned => false

theorem inner_signals : Inner StopPc.signals := ⟨rfl, rfl⟩

/-- The places where the token can be, with `held` calls of `service_stop`
among them. -/
def tokens (shared : Shared) (part : Part) (held : Nat) : Nat :=
  held + shared.controlPending.toNat + (decide (part = .callback)).toNat +
    (shared.controlClosing && part.inLoop).toNat

structure ControlAt (shared : Shared) (part : Part) (held : Nat) : Prop where
  /-- A handle that is ready belongs to a loop that is open. -/
  ready : shared.controlAsyncReady = true -> shared.loopReady = true ∧ part.handles = true
  opened : part = .opened -> shared.loopReady = true
  /-- Until it closes, the handle is ready from the end of the set-up on. -/
  armed : part = .armed ∨ part.inLoop = true ->
    shared.controlAsyncReady = true ∨ shared.controlClosing = true
  early : part.early = true -> shared.controlClosing = false
  single : tokens shared part held ≤ shared.stopRequested.toNat
  kept : part.inLoop = true -> shared.stopRequested = true -> 1 ≤ tokens shared part held

def Control (state : State) : Prop :=
  ControlAt state.shared state.thread.part (state.stops StopPc.signals)

/-! ## Steps of `service_stop` -/

/-- What a step of `service_stop` does to the token. -/
structure StopControl (shared next : Shared) (pc after : StopPc) : Prop where
  ready : next.controlAsyncReady = shared.controlAsyncReady
  loop : next.loopReady = shared.loopReady
  closing : next.controlClosing = shared.controlClosing
  /-- It takes the token if it is the first, keeps what it has, or sends it. -/
  token :
    (shared.stopRequested = false ∧ next.stopRequested = true ∧ pc.signals = false ∧
      next.controlPending = shared.controlPending ∧
      (after.signals = shared.controlAsyncReady ∨
        (after.signals = false ∧ shared.state = .new))) ∨
    (next.stopRequested = shared.stopRequested ∧ after.signals = pc.signals ∧
      next.controlPending = shared.controlPending) ∨
    (next.stopRequested = shared.stopRequested ∧ pc.signals = true ∧ after.signals = false ∧
      next.controlPending = true)

theorem StopMove.control {shared next : Shared} {pc after : StopPc}
    (moved : StopMove shared pc next after) : StopControl shared next pc after := by
  cases moved with
  | stopNew new =>
      refine ⟨rfl, rfl, rfl, ?_⟩
      cases requested : shared.stopRequested with
      | false => exact Or.inl ⟨rfl, rfl, rfl, rfl, Or.inr ⟨rfl, new⟩⟩
      | true => exact Or.inr (Or.inl ⟨rfl, rfl, rfl⟩)
  | stop active decided =>
      refine ⟨rfl, rfl, rfl, ?_⟩
      cases requested : shared.stopRequested with
      | false =>
          rw [requested] at decided
          exact Or.inl ⟨rfl, rfl, rfl, rfl, Or.inl decided⟩
      | true =>
          rw [requested] at decided
          exact Or.inr (Or.inl ⟨rfl, decided, rfl⟩)
  | close place =>
      rename_i signal
      refine ⟨rfl, rfl, rfl, Or.inr (Or.inl ?_)⟩
      cases signal <;> rw [place] <;> exact ⟨rfl, rfl, rfl⟩
  | signal => exact ⟨rfl, rfl, rfl, Or.inr (Or.inr ⟨rfl, rfl, rfl, rfl⟩)⟩
  | retire | late => exact ⟨rfl, rfl, rfl, Or.inr (Or.inl ⟨rfl, rfl, rfl⟩)⟩

/-- A step of `service_stop`, by whichever thread. -/
theorem ControlAt.of_stop {shared next : Shared} {part : Part} {held later : Nat}
    (control : ControlAt shared part held) (begun : shared.state = .new -> part.inLoop = false)
    {pc after : StopPc} (moved : StopMove shared pc next after)
    (exchange : later + pc.signals.toNat = held + after.signals.toNat) :
    ControlAt next part later := by
  have effect := moved.control
  have single := control.single
  have kept := control.kept
  simp only [tokens] at single kept
  refine ⟨?_, ?_, ?_, ?_, ?_, ?_⟩
  · rw [effect.ready, effect.loop]
    exact control.ready
  · rw [effect.loop]
    exact control.opened
  · rw [effect.ready, effect.closing]
    exact control.armed
  · rw [effect.closing]
    exact control.early
  · rw [tokens, effect.closing]
    rcases effect.token with ⟨unrequested, requested, idle, pending, _⟩ | ⟨same, signals, pending⟩ |
      ⟨same, signals, sent, pending⟩
    · rw [unrequested, Bool.toNat_false] at single
      rw [idle, Bool.toNat_false] at exchange
      have one := Bool.toNat_le after.signals
      rw [requested, Bool.toNat_true, pending]
      omega
    · rw [signals] at exchange
      rw [same, pending]
      omega
    · rw [signals, sent, Bool.toNat_true, Bool.toNat_false] at exchange
      rw [same, pending, Bool.toNat_true]
      omega
  · intro looping requested
    rw [tokens, effect.closing]
    rcases effect.token with ⟨unrequested, _, idle, pending, taken⟩ | ⟨same, signals, pending⟩ |
      ⟨same, signals, sent, pending⟩
    · -- The first stop finds the handle ready, for nobody has closed it.
      have isOpen : shared.controlClosing = false := by
        cases closing : shared.controlClosing with
        | false => rfl
        | true =>
            rw [unrequested, closing, looping, Bool.and_self, Bool.toNat_false] at single
            exact absurd single (Nat.not_succ_le_zero _)
      have ready : shared.controlAsyncReady = true := by
        rcases control.armed (Or.inr looping) with ready | closing
        · exact ready
        · cases isOpen.symm.trans closing
      rcases taken with signals | ⟨_, new⟩
      · rw [idle, signals, ready, Bool.toNat_false, Bool.toNat_true] at exchange
        omega
      · cases looping.symm.trans (begun new)
    · have sofar := kept looping (same.symm.trans requested)
      rw [signals] at exchange
      rw [pending]
      omega
    · rw [pending, Bool.toNat_true]
      omega

/-! ## Steps of everybody else -/

/-- The step leaves the handle and the token alone. -/
structure SameControl (shared next : Shared) : Prop where
  ready : next.controlAsyncReady = shared.controlAsyncReady
  loop : next.loopReady = shared.loopReady
  closing : next.controlClosing = shared.controlClosing
  requested : next.stopRequested = shared.stopRequested
  pending : next.controlPending = shared.controlPending

theorem SameControl.control {shared next : Shared} {part : Part} {held : Nat}
    (same : SameControl shared next) (control : ControlAt shared part held) :
    ControlAt next part held := by
  constructor
  · rw [same.ready, same.loop]
    exact control.ready
  · rw [same.loop]
    exact control.opened
  · rw [same.ready, same.closing]
    exact control.armed
  · rw [same.closing]
    exact control.early
  · rw [tokens, same.pending, same.closing, same.requested]
    exact control.single
  · rw [tokens, same.pending, same.closing, same.requested]
    exact control.kept

/-- How the thread moves on without touching them. -/
inductive PartStep (shared : Shared) : Part -> Part -> Prop where
  | stay {part} : PartStep shared part part
  | fail {part} (early : part.early = true) : PartStep shared part .failed
  | start (unrequested : shared.stopRequested = false) : PartStep shared .armed .loop
  | abort {part} (early : part.early = true) : PartStep shared part .finish
  | ignore (unrequested : shared.stopRequested = false) : PartStep shared .callback .loop
  | exit : PartStep shared .loop .finish
  | close (unready : shared.controlAsyncReady = false) : PartStep shared .finish .past

/-- Outside the loop the token need not be kept. -/
theorem ControlAt.leave {shared : Shared} {part after : Part} {held : Nat}
    (control : ControlAt shared part held)
    (handles : shared.controlAsyncReady = true -> after.handles = true) (left : after.inLoop = false)
    (unarmed : after ≠ .armed) (unopened : after ≠ .opened)
    (early : after.early = true -> part.early = true) : ControlAt shared after held := by
  have single := control.single
  have notCallback : after ≠ .callback := by
    rintro rfl
    cases left
  refine ⟨fun ready => ⟨(control.ready ready).1, handles ready⟩, fun impossible => ?_, ?_,
    fun isEarly => control.early (early isEarly), ?_, fun inside => ?_⟩
  · exact False.elim (unopened impossible)
  · rintro (impossible | inside)
    · exact False.elim (unarmed impossible)
    · cases left.symm.trans inside
  · simp only [tokens, left, notCallback, Bool.and_false, decide_false, Bool.toNat_false] at single ⊢
    omega
  · cases left.symm.trans inside

theorem PartStep.control {shared : Shared} {part after : Part} {held : Nat}
    (moved : PartStep shared part after) (control : ControlAt shared part held) :
    ControlAt shared after held := by
  have single := control.single
  cases moved with
  | stay => exact control
  | fail early =>
      exact control.leave (fun _ => rfl) rfl Part.noConfusion Part.noConfusion (fun _ => early)
  | abort early =>
      exact control.leave (fun _ => rfl) rfl Part.noConfusion Part.noConfusion (fun _ => early)
  | exit => exact control.leave (fun _ => rfl) rfl Part.noConfusion Part.noConfusion Bool.noConfusion
  | close unready =>
      refine control.leave (fun ready => ?_) rfl Part.noConfusion Part.noConfusion Bool.noConfusion
      cases unready.symm.trans ready
  | start unrequested =>
      refine ⟨fun ready => ⟨(control.ready ready).1, rfl⟩, Part.noConfusion,
        fun _ => control.armed (Or.inl rfl), Bool.noConfusion, ?_, fun _ requested => ?_⟩
      · simp only [tokens, control.early rfl, Bool.false_and] at single ⊢
        exact single
      · cases unrequested.symm.trans requested
  | ignore unrequested =>
      refine ⟨fun ready => ⟨(control.ready ready).1, rfl⟩, Part.noConfusion,
        fun _ => control.armed (Or.inr rfl), Bool.noConfusion, ?_, fun _ requested => ?_⟩
      · simp only [tokens, Part.inLoop, reduceCtorEq, decide_false, decide_true, Bool.toNat_false] at single ⊢
        omega
      · cases unrequested.symm.trans requested

theorem SendMove.sameControl {shared next : Shared} {letter : Letter} {pc after : SendPc}
    (moved : SendMove shared letter pc next after) : SameControl shared next := by
  cases moved <;> exact ⟨rfl, rfl, rfl, rfl, rfl⟩

theorem StartMove.sameControl {shared next : Shared} {pc after : StartPc}
    (moved : StartMove shared pc next after) : SameControl shared next := by
  cases moved <;> exact ⟨rfl, rfl, rfl, rfl, rfl⟩

theorem FreeMove.sameControl {shared next : Shared} {pc after : FreePc}
    (moved : FreeMove shared pc next after) : SameControl shared next := by
  cases moved <;> exact ⟨rfl, rfl, rfl, rfl, rfl⟩

theorem JoinMove.sameControl {shared next : Shared} {fromThread : Bool} {pc after : JoinPc}
    (moved : JoinMove shared fromThread pc next after) : SameControl shared next := by
  cases moved with
  | free moved => exact moved.sameControl
  | _ => exact ⟨rfl, rfl, rfl, rfl, rfl⟩

theorem ShutdownMove.sameControl {self : ServiceId} {shared next : Shared} {pc : ShutdownPc}
    {after : Option ShutdownPc} (moved : ShutdownMove self shared pc next after) :
    SameControl shared next := by
  cases moved <;> exact ⟨rfl, rfl, rfl, rfl, rfl⟩

theorem Walk.part {state : State} {before after : ThreadPc} (walked : Walk state before after)
    (control : ControlAt state.shared before.part (state.stops StopPc.signals)) :
    PartStep state.shared before.part after.part := by
  cases walked with
  | loopFailed failed | inboxFailed failed | controlFailed failed | luaFailed failed =>
      simp only [ThreadPc.part, if_neg failed]
      exact .fail rfl
  | giveUp => exact .stay
  | loopExit => exact .exit
  | noControl unwanted => exact .ignore unwanted
  | notifyNobody _ place noLoop | stopDone place noLoop =>
      rcases place with rfl | rfl
      · exact .stay
      · refine .close ((Bool.not_eq_true _).mp fun ready => ?_)
        cases (noLoop rfl).symm.trans (control.ready ready).1
  | loopClosed inbox unready => exact .close unready
  | _ => exact .stay

/-! The steps of the thread that do touch the handle or the token. -/

section Handle

variable {shared : Shared} {held : Nat}

theorem ControlAt.openLoop (control : ControlAt shared .setup held) :
    ControlAt { shared with loopReady := true } .opened held := by
  have unready (ready : shared.controlAsyncReady = true) : False := by
    cases (control.ready ready).2
  refine ⟨fun ready => False.elim (unready ready), fun _ => rfl, ?_, fun _ => control.early rfl,
    control.single, Bool.noConfusion⟩
  rintro (impossible | impossible) <;> cases impossible

theorem ControlAt.arm (control : ControlAt shared .opened held) :
    ControlAt { shared with controlAsyncReady := true } .armed held where
  ready := fun _ => ⟨control.opened rfl, rfl⟩
  opened := Part.noConfusion
  armed := fun _ => Or.inl rfl
  early := fun _ => control.early rfl
  single := control.single
  kept := Bool.noConfusion

/-- The loop hands the token to the callback. -/
theorem ControlAt.wake (control : ControlAt shared .loop held)
    (pending : shared.controlPending = true) :
    ControlAt { shared with controlPending := false } .callback held := by
  have same : tokens { shared with controlPending := false } .callback held =
      tokens shared .loop held := by
    simp only [tokens, pending, Part.inLoop, reduceCtorEq, decide_false, decide_true,
      Bool.toNat_false, Bool.toNat_true]
  refine ⟨control.ready, Part.noConfusion, fun _ => control.armed (Or.inr rfl), Bool.noConfusion,
    ?_, ?_⟩
  · rw [same]
    exact control.single
  · rw [same]
    exact control.kept

theorem ControlAt.handleClosed {part : Part} (control : ControlAt shared part held)
    (closing : shared.controlClosing = true) :
    ControlAt { shared with controlAsyncReady := false } part held where
  ready := Bool.noConfusion
  opened := control.opened
  armed := fun _ => Or.inr closing
  early := control.early
  single := control.single
  kept := control.kept

/-- The callback turns the token into the closing of the handle. -/
theorem ControlAt.closeInLoop (control : ControlAt shared .callback held) :
    ControlAt (closeRuntimeHandles shared) .loop held := by
  have closing : (shared.controlClosing || shared.controlAsyncReady) = true := by
    rcases control.armed (Or.inr rfl) with ready | closing
    · rw [ready, Bool.or_true]
    · rw [closing, Bool.true_or]
  have single := control.single
  have bound := Bool.toNat_le shared.stopRequested
  have after : tokens (closeRuntimeHandles shared) .loop held =
      held + shared.controlPending.toNat + 0 + 1 := by
    simp only [tokens, closeRuntimeHandles, closing, Part.inLoop, reduceCtorEq, decide_false,
      Bool.and_self, Bool.toNat_false, Bool.toNat_true]
  refine ⟨fun ready => ⟨(control.ready ready).1, rfl⟩, Part.noConfusion, fun _ => Or.inr closing,
    Bool.noConfusion, ?_, fun _ _ => ?_⟩
  · rw [after]
    simp only [tokens, decide_true, Bool.toNat_true, closeRuntimeHandles] at single ⊢
    omega
  · rw [after]
    omega

theorem ControlAt.closeAtEnd (control : ControlAt shared .finish held) :
    ControlAt (closeRuntimeHandles shared) .finish held := by
  have single := control.single
  refine ⟨control.ready, Part.noConfusion, ?_, Bool.noConfusion, ?_, Bool.noConfusion⟩
  · rintro (impossible | impossible) <;> cases impossible
  · simp only [tokens, closeRuntimeHandles, Part.inLoop, Bool.and_false] at single ⊢
    exact single

theorem ControlAt.publishStopped (control : ControlAt shared .past held) :
    ControlAt (publishStopped shared) .past held := by
  refine ⟨Bool.noConfusion, Part.noConfusion, ?_, Bool.noConfusion, control.single, Bool.noConfusion⟩
  rintro (impossible | impossible) <;> cases impossible

end Handle

theorem Lifecycle.new_part {state : State} (life : Lifecycle state) (new : state.shared.state = .new) :
    state.thread.part.inLoop = false := by
  rcases Stage.Fits.fits_new life.stage new with ⟨_, _, uncreated, _⟩
  rw [life.unborn_of_threadless uncreated]
  rfl

/-- A step of the thread which is not one of its `service_stop`. -/
theorem Control.of_thread {state : State} {shared : Shared} {vm : Lua.Vm} {funcRef : Bool}
    {before after : ThreadPc} (located : state.thread = before)
    (unheld : after.stopsAt StopPc.signals = before.stopsAt StopPc.signals)
    (control : ControlAt shared after.part (state.stops StopPc.signals)) :
    Control { state with shared, thread := after, vm, funcRef } := by
  have same : State.stops StopPc.signals { state with shared, thread := after, vm, funcRef } =
      state.stops StopPc.signals := by
    simp only [State.stops, located, unheld]
  show ControlAt shared after.part _
  rw [same]
  exact control

theorem Control.of_part {state : State} (control : Control state) {shared : Shared} {vm : Lua.Vm}
    {funcRef : Bool} {before after : ThreadPc} (located : state.thread = before)
    (unheld : after.stopsAt StopPc.signals = before.stopsAt StopPc.signals)
    (same : SameControl state.shared shared) (part : PartStep state.shared before.part after.part) :
    Control { state with shared, thread := after, vm, funcRef } := by
  refine Control.of_thread located unheld (same.control (part.control ?_))
  rw [← located]
  exact control

/-- A step of the `service_stop` which the thread itself makes in its loop. -/
theorem Control.of_own_stop {state : State} (control : Control state) (life : Lifecycle state)
    {shared : Shared} {before after : ThreadPc} {pc later : StopPc} (located : state.thread = before)
    (moved : StopMove state.shared pc shared later)
    (beforeStops : before.stopsAt StopPc.signals = pc.signals.toNat)
    (afterStops : after.stopsAt StopPc.signals = later.signals.toNat)
    (part : after.part = before.part) : Control { state with shared, thread := after } := by
  show ControlAt shared after.part _
  rw [part, ← located]
  refine ControlAt.of_stop control life.new_part moved ?_
  simp only [State.stops, located, beforeStops, afterStops]
  omega

theorem ThreadMove.keeps_control {self : ServiceId} {state next : State}
    (moved : ThreadMove self state next) (life : Lifecycle state) (control : Control state) :
    Control next := by
  have before {place : ThreadPc} (located : state.thread = place) :
      ControlAt state.shared place.part (state.stops StopPc.signals) := by
    rw [← located]
    exact control
  cases moved with
  | quitStep located moved => exact control.of_own_stop life located moved rfl rfl rfl
  | failStep located moved => exact control.of_own_stop life located moved rfl rfl rfl
  | walk located walked =>
      have outside := walked.stopsAt inner_signals
      exact control.of_part located (outside.2.trans outside.1.symm) ⟨rfl, rfl, rfl, rfl, rfl⟩
        (walked.part (before located))
  | loopReady located => exact Control.of_thread located rfl (before located).openLoop
  | controlReady located => exact Control.of_thread located rfl (before located).arm
  | started located wanted =>
      exact control.of_part located rfl ⟨rfl, rfl, rfl, rfl, rfl⟩ (.start wanted)
  | notStarted located =>
      rename_i error code reason coded
      refine control.of_part located rfl ⟨rfl, rfl, rfl, rfl, rfl⟩ (.abort ?_)
      simp only [ThreadPc.part]
      split <;> rfl
  | wakeControl located pending isOpen =>
      exact Control.of_thread located rfl ((before located).wake pending)
  | controlClosed located closing ready =>
      exact Control.of_thread rfl rfl ((before rfl).handleClosed closing)
  | inboxClosed => exact control.of_part rfl rfl ⟨rfl, rfl, rfl, rfl, rfl⟩ .stay
  | lua located internal internal' moved =>
      refine control.of_part located rfl ⟨rfl, rfl, rfl, rfl, rfl⟩ ?_
      simp only [ThreadPc.part, moved.stops]
      exact .stay
  | quitDone located =>
      refine control.of_part located rfl ⟨rfl, rfl, rfl, rfl, rfl⟩ ?_
      simp only [ThreadPc.part, Lua.AfterQuit.pc_stopping]
      exact .stay
  | overloaded located place =>
      subst place
      refine control.of_part located ?_ ⟨rfl, rfl, rfl, rfl, rfl⟩ ?_
      · split
        · rfl
        · split <;> rfl
      · split
        · exact .stay
        · split <;> exact .stay
  | shutdownStep located moved =>
      rename_i caller pc shared later
      refine control.of_part located rfl moved.sameControl ?_
      cases caller <;> exact .stay
  | shutdownDone located moved =>
      rename_i caller pc shared
      refine control.of_part located ?_ moved.sameControl ?_
      · cases caller <;> rfl
      · cases caller <;> exact .stay
  | closeHandles located =>
      rename_i caller
      cases caller with
      | control => exact Control.of_thread located rfl (before located).closeInLoop
      | finish => exact Control.of_thread located rfl (before located).closeAtEnd
  | published located => exact Control.of_thread located rfl (before located).publishStopped
  | selfWake located =>
      rcases located with located | located <;>
        exact control.of_part located rfl ⟨rfl, rfl, rfl, rfl, rfl⟩ .stay
  | inboxReady located | luaReady located | wakeInbox located | popped located | poppedNone located
  | batchGoesOn located | batchEnds located | finishLock located | luaClosed located =>
      exact control.of_part located rfl ⟨rfl, rfl, rfl, rfl, rfl⟩ .stay

theorem CallMove.keeps_control {state : State} (life : Lifecycle state) (control : Control state)
    {index : Nat} {call after : Call} {shared : Shared} (present : state.calls[index]? = some call)
    (moved : CallMove state.shared index call shared after) :
    Control { state with shared, calls := state.calls.set index after } := by
  have exchange := @stops_advance StopPc.signals state index call shared after present
  have beside (same : SameControl state.shared shared) (idle : call.stopsAt StopPc.signals = 0)
      (idleAfter : after.stopsAt StopPc.signals = 0) :
      Control { state with shared, calls := state.calls.set index after } := by
    rw [idle, idleAfter] at exchange
    show ControlAt shared state.thread.part _
    rw [Nat.add_right_cancel exchange]
    exact same.control control
  cases moved with
  | stop moved => exact ControlAt.of_stop control life.new_part moved exchange
  | send moved => exact beside moved.sameControl rfl rfl
  | start moved => exact beside moved.sameControl rfl rfl
  | join moved => exact beside moved.sameControl rfl rfl
  | free moved => exact beside moved.sameControl rfl rfl

theorem fresh_control (state : State) (fresh : Fresh state) : Control state := by
  rcases fresh with ⟨capacity, cells, box, _sized, _created, rfl⟩
  refine ⟨Bool.noConfusion, Part.noConfusion, ?_, fun _ => rfl, Nat.le_refl 0, Bool.noConfusion⟩
  rintro (impossible | impossible) <;> cases impossible

theorem reachable_control {self : ServiceId} {state : State}
    (reachable : (machine self).Reachable state) : Control state := by
  apply reachable.induction fresh_control
  intro state action next reachable control moved
  have life := reachable_lifecycle reachable
  rcases reachable_step_cases reachable moved with
    ⟨request, rfl⟩ | ⟨index, call, shared, after, present, callMoved, rfl⟩ | threadMoved
  · show ControlAt state.shared state.thread.part _
    rw [stops_request inner_signals]
    exact control
  · exact callMoved.keeps_control life control present
  · exact threadMoved.keeps_control life control

/-! ## Signals to a closed handle -/

/-- Every `service_stop` that has decided to signal finds the control handle
initialised and not closed, in a loop that is open. -/
def SignalsOpenHandle (state : State) : Prop :=
  0 < state.stops StopPc.signals ->
    state.shared.controlAsyncReady = true ∧ state.thread.part ≠ .past

/-- `service_finish_thread` does not complete the closing of the control
handle while a `service_stop` has decided to signal and has not done so. -/
def ClosesUnsignalled (state : State) : Action -> Prop
  | .thread .controlClosed => state.thread = .finishRun -> state.stops StopPc.signals = 0
  | _ => True

instance (state : State) (action : Action) : Decidable (ClosesUnsignalled state action) :=
  match action with
  | .thread .controlClosed => inferInstanceAs (Decidable (state.thread = .finishRun -> _))
  | .thread .next | .thread (.fail _) | .thread .wakeInbox | .thread .wakeControl
  | .thread .callback | .thread .exit | .thread .inboxClosed | .thread (.lua _)
  | .thread (.visit _) | .call _ | .advance _ _ => inferInstanceAs (Decidable True)

theorem threadStep_handleClosed {self : ServiceId} {state next : State} {choice : ThreadChoice}
    (moved : threadStep self state choice = some next) (located : state.thread = .finishRun)
    (ready : state.shared.controlAsyncReady = true)
    (closed : next.shared.controlAsyncReady = false) : choice = .controlClosed := by
  have changed (same : next.shared.controlAsyncReady = state.shared.controlAsyncReady) :
      choice = .controlClosed := by
    cases closed.symm.trans (same.trans ready)
  unfold threadStep at moved
  rw [located] at moved
  cases choice with
  | controlClosed => rfl
  | next =>
      dsimp only at moved
      split at moved <;> cases moved <;> exact changed rfl
  | inboxClosed =>
      rcases Option.map_eq_some_iff.mp moved with ⟨shared, taken, rfl⟩
      unfold inboxHandleClosed at taken
      split at taken <;> cases taken
      exact changed rfl
  | fail | wakeInbox | wakeControl | callback | exit | lua | visit => cases moved

/-- The handle is lost only at the end of the thread: the callback which
closes it in the loop holds the token itself. -/
theorem ThreadMove.loses_handle {self : ServiceId} {state next : State}
    (moved : ThreadMove self state next) (control : Control state)
    (held : 0 < state.stops StopPc.signals) (ready : state.shared.controlAsyncReady = true) :
    next.shared.controlAsyncReady = true ∨
      (state.thread = .finishRun ∧ next.shared.controlAsyncReady = false) := by
  have handles := (control.ready ready).2
  cases moved with
  | controlClosed located closing =>
      rcases located with located | located
      · have single := control.single
        have bound := Bool.toNat_le state.shared.stopRequested
        simp only [tokens, located, ThreadPc.part, Part.inLoop, closing, Bool.and_self,
          Bool.toNat_true] at single
        omega
      · exact Or.inr ⟨located, rfl⟩
  | published located =>
      rw [located] at handles
      cases handles
  | quitStep located moved | failStep located moved => exact Or.inl (moved.control.ready.trans ready)
  | shutdownStep located moved | shutdownDone located moved =>
      exact Or.inl (moved.sameControl.ready.trans ready)
  | controlReady => exact Or.inl rfl
  | _ => exact Or.inl ready

theorem CallMove.ready {shared next : Shared} {index : Nat} {call after : Call}
    (moved : CallMove shared index call next after) :
    next.controlAsyncReady = shared.controlAsyncReady := by
  cases moved with
  | send moved => exact moved.sameControl.ready
  | stop moved => exact moved.control.ready
  | start moved => exact moved.sameControl.ready
  | join moved => exact moved.sameControl.ready
  | free moved => exact moved.sameControl.ready

/-- A stop takes on the signal only when the handle is ready. -/
theorem StopMove.takes_signal {shared next : Shared} {pc after : StopPc}
    (moved : StopMove shared pc next after) (idle : pc.signals = false)
    (signals : after.signals = true) : shared.controlAsyncReady = true := by
  rcases moved.control.token with ⟨_, _, _, _, taken⟩ | ⟨_, same, _⟩ | ⟨_, holds, _⟩
  · rcases taken with same | ⟨none, _⟩
    · exact same.symm.trans signals
    · cases none.symm.trans signals
  · cases idle.symm.trans (same.symm.trans signals)
  · cases idle.symm.trans holds

theorem step_signalsOpenHandle {self : ServiceId} {state next : State} {action : Action}
    (reachable : (machine self).Reachable state) (opens : SignalsOpenHandle state)
    (unsignalled : ClosesUnsignalled state action)
    (moved : (machine self).step state action = some next) : SignalsOpenHandle next := by
  intro held
  have control := reachable_control reachable
  have after := reachable_control (reachable.step moved)
  have ready : next.shared.controlAsyncReady = true := by
    by_cases before : 0 < state.stops StopPc.signals
    · have isReady := (opens before).1
      cases action with
      | call request =>
          cases moved
          exact isReady
      | advance index outcome =>
          rcases reachable_advance reachable moved with
            ⟨call, shared, later, present, callMoved, rfl⟩
          exact callMoved.ready.trans isReady
      | thread choice =>
          rcases (threadStep_move moved).loses_handle control before isReady with kept | ⟨located, lost⟩
          · exact kept
          · cases threadStep_handleClosed moved located isReady lost
            exact absurd (unsignalled located) (Nat.ne_of_gt before)
    · -- The signal has just been taken on.
      rcases step_stops inner_signals reachable moved with ⟨pc, later, stopMoved, exchange⟩ | same
      · rw [stopMoved.control.ready]
        apply stopMoved.takes_signal
        · cases holds : pc.signals with
          | false => rfl
          | true =>
              have one := Bool.toNat_le later.signals
              rw [holds, Bool.toNat_true] at exchange
              omega
        · cases takes : later.signals with
          | true => rfl
          | false =>
              rw [takes, Bool.toNat_false] at exchange
              omega
      · omega
  refine ⟨ready, fun past => ?_⟩
  have handles := (after.ready ready).2
  rw [past] at handles
  cases handles

/-- A run signals only an open control handle exactly when the end of the
thread never completes the closing of the handle under a `service_stop` that
has still to signal it.  The control callback needs no such care. -/
theorem signalsOpenHandle_iff_closesUnsignalled (self : ServiceId) {start : State}
    (fresh : Fresh start) (schedule : List Action) :
    (machine self).Throughout SignalsOpenHandle start schedule <->
      (machine self).Obeys ClosesUnsignalled start schedule := by
  have begins : (machine self).Reachable start ∧ SignalsOpenHandle start := by
    refine ⟨⟨start, [], fresh, rfl⟩, ?_⟩
    rcases fresh with ⟨capacity, cells, box, _sized, _created, rfl⟩
    intro held
    exact absurd held (Nat.lt_irrefl 0)
  apply (machine self).throughout_iff_obeys
    (fun state => (machine self).Reachable state ∧ SignalsOpenHandle state) _ _ _ begins
  · rintro state ⟨_, opens⟩
    exact opens
  · rintro state action next ⟨reachable, opens⟩ unsignalled moved
    exact ⟨reachable.step moved, step_signalsOpenHandle reachable opens unsignalled moved⟩
  · rintro state action next ⟨reachable, opens⟩ signalled moved broken
    unfold ClosesUnsignalled at signalled
    split at signalled
    · rename_i shape
      apply signalled
      intro located
      by_contra held
      have closed : threadStep self state .controlClosed = some next := moved
      unfold threadStep at closed
      rw [located] at closed
      rcases Option.map_eq_some_iff.mp closed with ⟨shared, taken, rfl⟩
      unfold controlHandleClosed at taken
      split at taken <;> cases taken
      have signalling : 0 < state.stops StopPc.signals := Nat.pos_of_ne_zero held
      unfold State.stops at signalling
      rw [located] at signalling
      cases (broken signalling).1
    · exact signalled trivial

/-- A service is told to stop when its control handle has just become ready. -/
def stopWhileStarting : List Action :=
  let free : Outcome := ⟨none, 0⟩
  List.flatten
    [[.call .start, .advance 0 free],
      List.replicate 7 (.thread .next),
      [.call .stop, .advance 1 free, .advance 1 free]]

/-- The thread sees the request itself and closes everything. -/
def closeDown : List Action :=
  List.flatten
    [List.replicate 7 (.thread .next),
      [.thread (.visit []), .thread .next, .thread .inboxClosed, .thread .controlClosed],
      List.replicate 3 (.thread .next)]

/-- The stop sends its signal before the thread goes on. -/
def signalInTime : List Action :=
  stopWhileStarting ++ List.replicate 2 (.advance 1 ⟨none, 0⟩) ++ closeDown

theorem signalsOpenHandle_in_time :
    ((machine 7).run .smallest signalInTime).any
        (fun final => final.shared.controlPending && final.shared.threadEnded) = true ∧
      (machine 7).Throughout SignalsOpenHandle .smallest signalInTime := by
  have obeys : (machine 7).Obeys ClosesUnsignalled .smallest signalInTime := by decide +kernel
  exact ⟨by decide +kernel, (signalsOpenHandle_iff_closesUnsignalled 7 fresh_smallest _).mpr obeys⟩

/-- Otherwise it finds a handle that is closed, in a loop that is closed. -/
theorem stop_signals_closed_handle :
    Exists fun state => (machine 7).Reachable state ∧ state.calls[1]? = some (.stop .signal) ∧
      state.shared.controlAsyncReady = false ∧ state.thread = .ended ∧ ¬ SignalsOpenHandle state := by
  have ends : ((machine 7).run .smallest
      (stopWhileStarting ++ closeDown ++ [.advance 1 ⟨none, 0⟩])).any (fun final => decide
        (final.calls[1]? = some (.stop .signal) ∧ final.shared.controlAsyncReady = false ∧
          final.thread = .ended ∧ final.stops StopPc.signals = 1)) = true := by
    decide +kernel
  rcases (machine 7).exists_reachable fresh_smallest ends with
    ⟨state, reachable, stop, unready, ended, one⟩
  refine ⟨state, reachable, stop, unready, ended, fun opens => ?_⟩
  cases unready.symm.trans (opens (by rw [one]; exact Nat.one_pos)).1

end Service
end ServiceRuntime
