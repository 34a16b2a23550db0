import ServiceRuntime.Service.Lifecycle

namespace ServiceRuntime
namespace Service

open Lua (Letter Co)
open Foundation

/-!
# No lost wake-up

`scheduled` says that somebody has taken on the duty to wake the consumer.
The duty is handed around: a producer takes it when it pushes first, gives it
to the loop with `uv_async_send`, the loop gives it to the callback, the
callback keeps it through the dispatch round and either pops the mailbox empty,
hands it back to itself at the end of a full batch, or stops the service.

`ThreadPc.duty` names the duty of the service thread at each program counter.
The invariant is that on a running service a schedule always has an owner.
-/

/-! ## The duty of the service thread -/

inductive Duty where
  /-- Nothing is owed. -/
  | nothing
  /-- The wake-up after the start is still to be sent. -/
  | start
  /-- The round will pop again. -/
  | pop
  /-- The round will call `mailbox_finish_batch` and send itself a wake-up. -/
  | batch
  /-- The thread is on its way to `service_stop`. -/
  | stop
  deriving DecidableEq, Repr

/-- Inside the dispatch loop with this many messages processed. -/
def loopDuty (processed : Nat) : Duty :=
  if processed < Lua.dispatchBatchSize then .pop
  else if processed = Lua.dispatchBatchSize then .batch
  else .nothing

/-- After the loop, with this many messages processed. -/
def endDuty (processed : Nat) : Duty :=
  if processed = Lua.dispatchBatchSize then .batch else .nothing

def returnDuty : Lua.Return -> Duty
  | .round processed => loopDuty processed
  | .hooks processed => endDuty processed
  | .callback => .nothing

def siteDuty : Lua.Site -> Duty
  | .coroutine _ ret => returnDuty ret
  | .hooks processed => endDuty processed
  | .callback => .nothing

def sendDuty : Lua.AfterSend -> Duty
  | .user site => siteDuty site
  | .call _ _ ret | .response _ ret | .failure _ ret => returnDuty ret
  | .pending _ _ => .nothing

def luaDuty : Lua.Pc -> Duty
  | .head processed => loopDuty processed
  | .receiving processed => if processed < Lua.dispatchBatchSize then .pop else .nothing
  | .got processed _ => loopDuty processed
  | .removing _ ret | .unpackRequest _ _ ret | .unpackReply _ _ ret | .unpackSystem _ ret =>
      returnDuty ret
  | .user site => siteDuty site
  | .sending _ next => sendDuty next
  | .quitting _ => .stop
  | .roundEnd processed => endDuty processed
  | .finished batchFull => if batchFull then .batch else .nothing
  | .raised => .stop
  | .callbackDone | .replyPending _ | .stopDone => .nothing

/-- `service_stop` has not yet taken the service out of RUNNING. -/
def StopPc.Early : StopPc -> Bool
  | .retire | .lock => true
  | .close _ | .signal | .returned => false

def ThreadPc.duty : ThreadPc -> Duty
  | .startupSend => .start
  | .asyncCheck => .pop
  | .lua pc => luaDuty pc
  | .popping processed => if processed < Lua.dispatchBatchSize then .pop else .nothing
  | .quitting _ pc | .failStop pc => if pc.Early then .stop else .nothing
  | .overload failed batchFull => if failed then .stop else if batchFull then .batch else .nothing
  | .finishBatch | .resend => .batch
  | _ => .nothing

/-- A producer that got `notify` and has still to call `uv_async_send`. -/
def Call.Notifies : Call -> Bool
  | .send _ .readReady | .send _ .notify => true
  | _ => false

/-- Somebody will still wake the consumer, or is the consumer. -/
def Owner (state : State) : Prop :=
  state.shared.inboxPending = true ∨
  (Exists fun index : Nat => Exists fun call =>
    state.calls[index]? = some call ∧ call.Notifies = true) ∨
  state.thread.duty ≠ .nothing

/-! Only the thread that has just published the start owes the first wake-up. -/

theorem loopDuty_ne_start (processed : Nat) : loopDuty processed ≠ .start := by
  unfold loopDuty
  split
  · exact Duty.noConfusion
  · split <;> exact Duty.noConfusion

theorem endDuty_ne_start (processed : Nat) : endDuty processed ≠ .start := by
  unfold endDuty
  split <;> exact Duty.noConfusion

theorem returnDuty_ne_start (ret : Lua.Return) : returnDuty ret ≠ .start := by
  cases ret with
  | round processed => exact loopDuty_ne_start processed
  | hooks processed => exact endDuty_ne_start processed
  | callback => exact Duty.noConfusion

theorem siteDuty_ne_start (site : Lua.Site) : siteDuty site ≠ .start := by
  cases site with
  | coroutine co ret => exact returnDuty_ne_start ret
  | hooks processed => exact endDuty_ne_start processed
  | callback => exact Duty.noConfusion

theorem luaDuty_ne_start (pc : Lua.Pc) : luaDuty pc ≠ .start := by
  cases pc with
  | head processed | got processed letter => exact loopDuty_ne_start processed
  | roundEnd processed => exact endDuty_ne_start processed
  | removing letter ret | unpackRequest co letter ret | unpackReply co letter ret
  | unpackSystem letter ret => exact returnDuty_ne_start ret
  | user site => exact siteDuty_ne_start site
  | sending message next =>
      cases next with
      | user site => exact siteDuty_ne_start site
      | call caller session ret | response co ret | failure co ret => exact returnDuty_ne_start ret
      | pending co rest => exact Duty.noConfusion
  | receiving processed | finished batchFull =>
      simp only [luaDuty]
      split <;> exact Duty.noConfusion
  | _ => exact Duty.noConfusion

theorem ThreadPc.startupSend_of_duty {pc : ThreadPc} (duty : pc.duty = .start) :
    pc = .startupSend := by
  cases pc with
  | startupSend => rfl
  | lua inner => exact False.elim (luaDuty_ne_start inner duty)
  | popping processed | quitting after inner | failStop inner =>
      simp only [ThreadPc.duty] at duty
      split at duty <;> cases duty
  | overload failed batchFull =>
      simp only [ThreadPc.duty] at duty
      split at duty
      · cases duty
      · split at duty <;> cases duty
  | _ => cases duty

@[simp] theorem luaDuty_return (ret : Lua.Return) : luaDuty ret.pc = returnDuty ret := by
  cases ret <;> rfl

/-- A coroutine that is resumed runs for whoever resumes it. -/
theorem siteDuty_resumes {site : Lua.Site} {ret : Lua.Return} (place : site.resumes = some ret) :
    siteDuty site = returnDuty ret := by
  cases site with
  | coroutine co back => cases place
  | hooks processed | callback =>
      cases place
      rfl

/-- A step of the Lua code keeps the duty, unless the service has quit. -/
theorem luaMove_duty {self : ServiceId} {vm next : Lua.Vm} {pc after : Lua.Pc} {choice : Lua.Choice}
    (moved : Lua.Move self vm pc choice next after)
    (internal : forall processed, pc ≠ .receiving processed)
    (internal' : forall after, pc ≠ .quitting after)
    (owed : luaDuty pc ≠ .nothing) : luaDuty after ≠ .nothing ∨ vm.quit = true := by
  cases moved with
  | headReceive running room =>
      left
      simp only [luaDuty, if_pos room]
      exact Duty.noConfusion
  | headEnd past =>
      rename_i processed
      cases quit : vm.quit with
      | true => exact Or.inr rfl
      | false =>
          left
          simp only [luaDuty, loopDuty, endDuty] at owed ⊢
          have full : ¬ processed < Lua.dispatchBatchSize := fun room => past ⟨quit, room⟩
          rw [if_neg full] at owed
          exact owed
  | received | receivedNone => exact False.elim (internal _ rfl)
  | stopped => exact False.elim (internal' _ rfl)
  | roundQuit quit => exact Or.inr quit
  | systemGarbled | hooksRaise | quit => exact Or.inl Duty.noConfusion
  | raise control raised inside =>
      rename_i co ret
      left
      have same : luaDuty pc = returnDuty ret := by
        cases pc with
        | unpackRequest | unpackReply =>
            cases control
            rfl
        | user site =>
            cases site with
            | coroutine =>
                cases control
                rfl
            | hooks | callback => cases control
        | _ => cases control
      rw [same] at owed
      cases raised with
      | bootQuits => exact Duty.noConfusion
      | bootEnds | unnoticed =>
          rw [luaDuty_return]
          exact owed
      | answered => exact owed
  | hooksDone =>
      rename_i processed
      cases quit : vm.quit with
      | true => exact Or.inr rfl
      | false =>
          left
          simp only [luaDuty, siteDuty, endDuty] at owed ⊢
          split at owed
          · rename_i full
            rw [full]
            exact Duty.noConfusion
          · exact False.elim (owed rfl)
  | removed | notBooted | yield | finishSilent | sentCall | sentResponse | sentFailure =>
      left
      rw [luaDuty_return]
      exact owed
  | resume place suspended =>
      left
      show returnDuty _ ≠ .nothing
      rw [← siteDuty_resumes place]
      exact owed
  | callbackDone | sentPending | pendingDone | pendingAnswer | pendingSkip =>
      exact False.elim (owed rfl)
  | _ => exact Or.inl owed

/-- `quit` is only ever set on the way to `service_stop`. -/
theorem luaMove_quit {self : ServiceId} {vm next : Lua.Vm} {pc after : Lua.Pc} {choice : Lua.Choice}
    (moved : Lua.Move self vm pc choice next after) (quit : next.quit = true) :
    vm.quit = true ∨ Exists fun later => after = .quitting later := by
  cases moved with
  | quit => exact Or.inr ⟨_, rfl⟩
  | raise control raised inside =>
      cases raised with
      | bootQuits => exact Or.inr ⟨_, rfl⟩
      | bootEnds | answered | unnoticed => exact Or.inl quit
  | _ => exact Or.inl quit

/-! ## Being ready for wake-ups -/

/-- Before the start is published no handle is closing and Lua has not run. -/
def Clean (state : State) : Prop :=
  state.shared.inboxClosing = false ∧ state.vm.quit = false

/-- What the thread has prepared at each point of the start, and what a stop
from inside has achieved. -/
def ThreadPc.Prepared (state : State) : ThreadPc -> Prop
  | .unborn | .loopInit | .loopReady | .inboxInit | .inboxReady => Clean state
  | .controlInit | .controlReady | .luaInit => Clean state ∧ state.shared.inboxAsyncReady = true
  | .readStop error => Clean state ∧ (error = 0 -> state.shared.inboxAsyncReady = true)
  | .publish error =>
      Clean state ∧ (error = 0 -> state.shared.inboxAsyncReady = true ∧
        (state.funcRef = true ∨ state.shared.stopRequested = true))
  | .quitting _ pc | .failStop pc => pc.Early = false -> state.shared.state ≠ .running
  | _ => True

/-- The thread is inside the `service_stop` of `service.quit`, before it
leaves RUNNING. -/
def ThreadPc.Quits : ThreadPc -> Prop
  | .lua (.quitting _) => True
  | .quitting _ pc => pc.Early = true
  | _ => False

structure WakeInvariant (state : State) : Prop where
  prepared : state.thread.Prepared state
  ready : state.shared.state = .running -> state.shared.inboxAsyncReady = true ∧
    state.funcRef = true ∧ state.shared.inboxClosing = false
  quits : state.vm.quit = true -> state.shared.state = .running -> state.thread.Quits
  owned : state.shared.state = .running -> state.shared.box.closed = false ->
    state.shared.box.scheduled = true -> Owner state

/-! ## The calls -/

/-- What no call of another thread takes away. -/
structure WakeFrame (shared next : Shared) : Prop where
  ready : next.inboxAsyncReady = shared.inboxAsyncReady
  closing : next.inboxClosing = shared.inboxClosing
  pending : shared.inboxPending = true -> next.inboxPending = true
  requested : shared.stopRequested = true -> next.stopRequested = true
  running : next.state = .running -> shared.state = .running

theorem SendMove.wakeFrame {shared next : Shared} {letter : Letter} {pc after : SendPc}
    (moved : SendMove shared letter pc next after) : WakeFrame shared next := by
  cases moved with
  | notified => exact ⟨rfl, rfl, fun _ => rfl, id, id⟩
  | _ => exact ⟨rfl, rfl, id, id, id⟩

theorem StopMove.wakeFrame {shared next : Shared} {pc after : StopPc}
    (moved : StopMove shared pc next after) : WakeFrame shared next := by
  cases moved with
  | stopNew | stop => exact ⟨rfl, rfl, id, fun _ => rfl, Phase.noConfusion⟩
  | _ => exact ⟨rfl, rfl, id, id, id⟩

theorem StartMove.wakeFrame {shared next : Shared} {pc after : StartPc}
    (moved : StartMove shared pc next after) : WakeFrame shared next := by
  cases moved with
  | start | fail => exact ⟨rfl, rfl, id, id, Phase.noConfusion⟩
  | _ => exact ⟨rfl, rfl, id, id, id⟩

theorem FreeMove.wakeFrame {shared next : Shared} {pc after : FreePc}
    (moved : FreeMove shared pc next after) : WakeFrame shared next := by
  cases moved with
  | free => exact ⟨rfl, rfl, id, id, Phase.noConfusion⟩
  | _ => exact ⟨rfl, rfl, id, id, id⟩

theorem JoinMove.wakeFrame {shared next : Shared} {fromThread : Bool} {pc after : JoinPc}
    (moved : JoinMove shared fromThread pc next after) : WakeFrame shared next := by
  cases moved with
  | publish => exact ⟨rfl, rfl, id, id, Phase.noConfusion⟩
  | free moved => exact moved.wakeFrame
  | _ => exact ⟨rfl, rfl, id, id, id⟩

theorem CallMove.wakeFrame {shared next : Shared} {index : Nat} {call after : Call}
    (moved : CallMove shared index call next after) : WakeFrame shared next := by
  cases moved with
  | send moved => exact moved.wakeFrame
  | stop moved => exact moved.wakeFrame
  | start moved => exact moved.wakeFrame
  | join moved => exact moved.wakeFrame
  | free moved => exact moved.wakeFrame

theorem WakeFrame.prepared {state : State} {shared : Shared} {calls : List Call}
    (frame : WakeFrame state.shared shared) {pc : ThreadPc} (before : pc.Prepared state) :
    pc.Prepared { state with shared, calls } := by
  have clean (holds : Clean state) : Clean { state with shared, calls } :=
    ⟨frame.closing.trans holds.1, holds.2⟩
  cases pc with
  | unborn | loopInit | loopReady | inboxInit | inboxReady => exact clean before
  | controlInit | controlReady | luaInit =>
      exact ⟨clean before.1, frame.ready.trans before.2⟩
  | readStop error =>
      exact ⟨clean before.1, fun success => frame.ready.trans (before.2 success)⟩
  | publish error =>
      refine ⟨clean before.1, fun success => ?_⟩
      rcases before.2 success with ⟨ready, handler | requested⟩
      · exact ⟨frame.ready.trans ready, Or.inl handler⟩
      · exact ⟨frame.ready.trans ready, Or.inr (frame.requested requested)⟩
  | quitting after inner | failStop inner =>
      exact fun late running => before late (frame.running running)
  | _ => trivial

/-- A step back from the queue: what is open and scheduled after a step was
so before, or a push has just scheduled it. -/
theorem QueueStep.scheduled_before {shared next : Shared} (effect : QueueStep shared next)
    (isOpen : next.box.closed = false) (scheduled : next.box.scheduled = true) :
    shared.box.closed = false ∧
      (next.accepted = shared.accepted -> shared.box.scheduled = true) := by
  cases effect with
  | same contents closed same accepted notices =>
      refine ⟨?_, fun _ => same.symm.trans scheduled⟩
      cases shut : shared.box.closed with
      | false => rfl
      | true => cases isOpen.symm.trans (closed shut)
  | stored letter contents wasOpen _ accepted notices =>
      refine ⟨wasOpen, fun unchanged => ?_⟩
      rw [unchanged] at accepted
      exact False.elim (List.cons_ne_nil letter [] (List.self_eq_append_right.mp accepted))
  | popped letter contents closed same accepted notices =>
      exact ⟨closed.symm.trans isOpen, fun _ => same.symm.trans scheduled⟩
  | released contents idle closed unscheduled accepted notices =>
      cases unscheduled.symm.trans scheduled

/-! Only a sender adds to what was accepted. -/

theorem StopMove.accepted {shared next : Shared} {pc after : StopPc}
    (moved : StopMove shared pc next after) : next.accepted = shared.accepted := by
  cases moved <;> rfl

theorem StartMove.accepted {shared next : Shared} {pc after : StartPc}
    (moved : StartMove shared pc next after) : next.accepted = shared.accepted := by
  cases moved <;> rfl

theorem FreeMove.accepted {shared next : Shared} {pc after : FreePc}
    (moved : FreeMove shared pc next after) : next.accepted = shared.accepted := by
  cases moved <;> rfl

theorem JoinMove.accepted {shared next : Shared} {fromThread : Bool} {pc after : JoinPc}
    (moved : JoinMove shared fromThread pc next after) : next.accepted = shared.accepted := by
  cases moved with
  | free moved => exact moved.accepted
  | _ => rfl

/-- A step of a call leaves the schedule with an owner. -/
theorem CallMove.owner {state : State} {index : Nat} {call after : Call} {shared : Shared}
    (moved : CallMove state.shared index call shared after) (invariant : WakeInvariant state)
    (valid : state.shared.box.WellFormed) (present : state.calls[index]? = some call)
    (running : shared.state = .running) (isOpen : shared.box.closed = false)
    (scheduled : shared.box.scheduled = true) :
    Owner { state with shared, calls := state.calls.set index after } := by
  have frame := moved.wakeFrame
  have wasRunning := frame.running running
  have inside := length_of_getElem? present
  have here (notifies : after.Notifies = true) :
      Owner { state with shared, calls := state.calls.set index after } :=
    Or.inr (Or.inl ⟨index, after, List.getElem?_set_self inside, notifies⟩)
  -- an owner from before is still one, unless it is the call that moved
  have kept (same : call.Notifies = true -> after.Notifies = true ∨ shared.inboxPending = true)
      (owner : Owner state) : Owner { state with shared, calls := state.calls.set index after } := by
    rcases owner with pending | ⟨position, other, found, notifies⟩ | duty
    · exact Or.inl (frame.pending pending)
    · by_cases equal : position = index
      · subst equal
        rw [present] at found
        cases found
        rcases same notifies with still | pending
        · exact here still
        · exact Or.inl pending
      · refine Or.inr (Or.inl ⟨position, other, ?_, notifies⟩)
        rw [List.getElem?_set_ne (Ne.symm equal)]
        exact found
    · exact Or.inr (Or.inr duty)
  rcases (moved.queue valid).2.1.scheduled_before isOpen scheduled with ⟨wasOpen, before⟩
  cases moved with
  | send moved =>
      cases moved with
      | stored entering boxValid wasOpen stays contents nowScheduled first =>
          rename_i message pc box notify
          cases notify with
          | true => exact here rfl
          | false =>
              have wasScheduled : state.shared.box.scheduled = true := by
                cases already : state.shared.box.scheduled with
                | true => rfl
                | false =>
                    rw [already] at first
                    cases first
              apply kept _ (invariant.owned wasRunning wasOpen wasScheduled)
              intro notifies
              rcases entering with rfl | ⟨capacity, grown, rfl⟩ <;> cases notifies
      | notReady unready =>
          cases (invariant.ready wasRunning).1.symm.trans unready
      | ready => exact here rfl
      | notified => exact Or.inl rfl
      | shut entering | full entering =>
          apply kept _ (invariant.owned wasRunning wasOpen scheduled)
          intro notifies
          rcases entering with rfl | ⟨capacity, grown, rfl⟩ <;> cases notifies
      | _ =>
          apply kept _ (invariant.owned wasRunning wasOpen scheduled)
          intro notifies
          cases notifies
  | stop moved | start moved | join moved | free moved =>
      apply kept _ (invariant.owned wasRunning wasOpen (before moved.accepted))
      intro notifies
      cases notifies

/-! ## The service thread -/

theorem ShutdownMove.accepted {self : ServiceId} {shared next : Shared} {pc : ShutdownPc}
    {after : Option ShutdownPc} (moved : ShutdownMove self shared pc next after) :
    next.accepted = shared.accepted := by
  cases moved <;> rfl

theorem ThreadMove.accepted {self : ServiceId} {state next : State}
    (moved : ThreadMove self state next) : next.shared.accepted = state.shared.accepted := by
  cases moved with
  | quitStep located moved | failStep located moved => exact moved.accepted
  | shutdownStep located moved | shutdownDone located moved => exact moved.accepted
  | _ => rfl

/-- Once `service_stop` is past its section the service is not RUNNING. -/
theorem StopMove.late_inactive {shared next : Shared} {pc after : StopPc}
    (moved : StopMove shared pc next after)
    (before : pc.Early = false -> shared.state ≠ .running) (late : after.Early = false) :
    next.state ≠ .running := by
  cases moved with
  | retire => cases late
  | stopNew | stop => exact Phase.noConfusion
  | late inactive => exact Phase.ne_running inactive
  | close | signal => exact before rfl

theorem Walk.prepared {state : State} {before after : ThreadPc} (walked : Walk state before after)
    (prepared : before.Prepared state) : after.Prepared { state with thread := after } := by
  cases walked with
  | loopFailed failed | inboxFailed failed =>
      exact ⟨prepared, fun success => False.elim (failed success)⟩
  | controlFailed failed => exact ⟨prepared.1, fun success => False.elim (failed success)⟩
  | goOn => exact ⟨prepared.1, prepared.2 rfl⟩
  | giveUp reason =>
      exact ⟨prepared.1, fun success => ⟨prepared.2 success, Or.inr (reason success)⟩⟩
  | luaFailed failed => exact ⟨prepared.1, fun success => False.elim (failed success)⟩
  | quit => exact fun late => by cases late
  | notifyNobody _ place | stopDone place => rcases place with rfl | rfl <;> trivial
  | born | loopMade | inboxMade | controlMade => exact prepared
  | _ => trivial

theorem threadMove_prepared {self : ServiceId} {state next : State}
    (moved : ThreadMove self state next) (prepared : state.thread.Prepared state) :
    next.thread.Prepared next := by
  cases moved with
  | walk located walked =>
      rw [located] at prepared
      exact walked.prepared prepared
  | loopReady located =>
      rw [located] at prepared
      exact prepared
  | inboxReady located =>
      rw [located] at prepared
      exact ⟨prepared, rfl⟩
  | controlReady located =>
      rw [located] at prepared
      exact ⟨prepared.1, fun _ => prepared.2⟩
  | luaReady located =>
      rw [located] at prepared
      exact ⟨prepared.1, fun _ => ⟨prepared.2, Or.inl rfl⟩⟩
  | quitStep located moved | failStep located moved =>
      rw [located] at prepared
      exact moved.late_inactive prepared
  | overloaded located place =>
      rw [place]
      split
      · exact fun late => by cases late
      · split <;> trivial
  | shutdownDone located moved =>
      rename_i caller pc shared
      cases caller <;> trivial
  | closeHandles located =>
      rename_i caller
      cases caller <;> trivial
  | inboxClosed located | controlClosed located =>
      rcases located with located | located <;> rw [located] <;> trivial
  | _ => trivial

/-- A RUNNING service stays ready for wake-ups. -/
theorem threadMove_ready {self : ServiceId} {state next : State} (moved : ThreadMove self state next)
    (invariant : WakeInvariant state) (life : state.thread.stage.Fits state.shared)
    (running : next.shared.state = .running) :
    next.shared.inboxAsyncReady = true ∧ next.funcRef = true ∧ next.shared.inboxClosing = false := by
  have ready := invariant.ready
  have closing (located : state.thread.stage = .closing) : state.shared.state = .stopping := by
    rw [located] at life
    exact life.2.2
  cases moved with
  | started located wanted =>
      have prepared := invariant.prepared
      rw [located] at prepared
      rcases prepared.2 rfl with ⟨inboxReady, handler | requested⟩
      · exact ⟨inboxReady, handler, prepared.1.1⟩
      · cases wanted.symm.trans requested
  | inboxReady => exact ⟨rfl, (ready running).2⟩
  | luaReady => exact ⟨(ready running).1, rfl, (ready running).2.2⟩
  | inboxClosed located isClosing =>
      cases (ready running).2.2.symm.trans isClosing
  | quitStep located moved | failStep located moved =>
      have frame := moved.wakeFrame
      have before := ready (frame.running running)
      exact ⟨frame.ready.trans before.1, before.2.1, frame.closing.trans before.2.2⟩
  | shutdownStep located moved =>
      have stopping := closing (by rw [located]; rfl)
      cases (moved.phase.1.state.trans stopping).symm.trans running
  | shutdownDone located moved =>
      have stopping := closing (by rw [located]; rfl)
      cases (moved.phase.1.state.trans stopping).symm.trans running
  | closeHandles located =>
      have stopping := closing (by rw [located]; rfl)
      cases stopping.symm.trans running
  | finishLock located =>
      simp only at running
      split at running
      · cases running
      · exact ready running
  | luaClosed located =>
      have stopping := closing (by rw [located]; rfl)
      cases stopping.symm.trans running
  | notStarted | published => cases running
  | _ => exact ready running

theorem threadMove_quits {self : ServiceId} {state next : State} (moved : ThreadMove self state next)
    (invariant : WakeInvariant state) (quit : next.vm.quit = true)
    (running : next.shared.state = .running) : next.thread.Quits := by
  have before (located : ¬ state.thread.Quits) (quits : state.vm.quit = true)
      (wasRunning : state.shared.state = .running) : next.thread.Quits :=
    False.elim (located (invariant.quits quits wasRunning))
  cases moved with
  | walk located walked =>
      cases walked with
      | quit => trivial
      | _ => exact before (by rw [located]; exact id) quit running
  | lua located internal internal' moved =>
      rcases luaMove_quit moved quit with already | ⟨later, rfl⟩
      · rename_i pc choice vm after
        refine before ?_ already running
        rw [located]
        intro quits
        cases pc with
        | quitting after => exact internal' after rfl
        | _ => exact quits
      · trivial
  | started located wanted =>
      have prepared := invariant.prepared
      rw [located] at prepared
      cases prepared.1.2.symm.trans quit
  | quitStep located moved =>
      cases moved with
      | retire => rfl
      | stopNew | stop => cases running
      | late inactive => exact False.elim (Phase.ne_running inactive running)
      | close | signal =>
          have prepared := invariant.prepared
          rw [located] at prepared
          exact False.elim (prepared rfl running)
  | quitDone located =>
      have prepared := invariant.prepared
      rw [located] at prepared
      exact False.elim (prepared rfl running)
  | failStep located moved =>
      exact before (by rw [located]; exact id) quit (moved.wakeFrame.running running)
  | selfWake located | inboxClosed located | controlClosed located =>
      refine before ?_ quit running
      rcases located with located | located <;> rw [located] <;> exact id
  | shutdownStep located moved =>
      exact before (by rw [located]; exact id) quit (moved.phase.1.state.symm.trans running)
  | shutdownDone located moved =>
      exact before (by rw [located]; exact id) quit (moved.phase.1.state.symm.trans running)
  | finishLock located =>
      simp only at running
      split at running
      · cases running
      · exact before (by rw [located]; exact id) quit running
  | notStarted | published => cases running
  | loopReady located | inboxReady located | controlReady located | luaReady located
  | batchGoesOn located | batchEnds located | luaClosed located | wakeInbox located
  | wakeControl located | popped located | poppedNone located | overloaded located
  | closeHandles located =>
      exact before (by rw [located]; exact id) quit running

theorem Walk.duty {state : State} {before after : ThreadPc} (walked : Walk state before after)
    (running : state.shared.state = .running) (handler : state.funcRef = true)
    (owed : before.duty ≠ .nothing) : after.duty ≠ .nothing := by
  cases walked with
  | round => exact Duty.noConfusion
  | noRound idle => cases handler.symm.trans (idle running)
  | receive => exact owed
  | refuse inactive => exact False.elim (inactive running)
  | quit | raised => exact Duty.noConfusion
  | finished =>
      rename_i batchFull
      cases batchFull with
      | true => exact Duty.noConfusion
      | false => exact owed
  | _ => exact False.elim (owed rfl)

/-- A step of the service thread leaves the schedule with an owner. -/
theorem threadMove_owner {self : ServiceId} {state next : State} (moved : ThreadMove self state next)
    (invariant : WakeInvariant state) (life : state.thread.stage.Fits state.shared)
    (valid : state.shared.box.WellFormed) (running : next.shared.state = .running)
    (isOpen : next.shared.box.closed = false) (scheduled : next.shared.box.scheduled = true) :
    Owner next := by
  have stage := threadMove_stage moved life
  have calls := moved.calls
  rcases (threadMove_queue moved valid).2.scheduled_before isOpen scheduled with ⟨wasOpen, before⟩
  have wasScheduled := before moved.accepted
  have keep (wasRunning : state.shared.state = .running)
      (pending : state.shared.inboxPending = true -> next.shared.inboxPending = true)
      (duty : state.thread.duty ≠ .nothing -> next.thread.duty ≠ .nothing) : Owner next := by
    rcases invariant.owned wasRunning wasOpen wasScheduled with
      waiting | ⟨index, call, present, notifies⟩ | owed
    · exact Or.inl (pending waiting)
    · refine Or.inr (Or.inl ⟨index, call, ?_, notifies⟩)
      rw [calls]
      exact present
    · exact Or.inr (Or.inr (duty owed))
  have idle {pc : ThreadPc} (located : state.thread = pc) (nothing : pc.duty = .nothing)
      (owed : state.thread.duty ≠ .nothing) : next.thread.duty ≠ .nothing := by
    rw [located] at owed
    exact False.elim (owed nothing)
  cases moved with
  | walk located walked =>
      apply keep running id
      rw [located]
      exact walked.duty running (invariant.ready running).2.1
  | started => exact Or.inr (Or.inr Duty.noConfusion)
  | selfWake => exact Or.inl rfl
  | wakeInbox => exact Or.inr (Or.inr Duty.noConfusion)
  | inboxClosed located closing => cases (invariant.ready running).2.2.symm.trans closing
  | controlClosed => exact keep running id id
  | lua located internal internal' moved =>
      rename_i pc choice vm after
      apply keep running id
      rw [located]
      intro owed
      rcases luaMove_duty moved internal internal' owed with still | quit
      · exact still
      · have quits := invariant.quits quit running
        rw [located] at quits
        cases pc with
        | quitting after => exact False.elim (internal' after rfl)
        | _ => exact False.elim quits
  | popped located found =>
      apply keep running id
      rw [located]
      intro owed
      simp only [ThreadPc.duty, luaDuty, loopDuty] at owed ⊢
      split at owed
      · split
        · exact Duty.noConfusion
        · rw [if_pos (by omega)]
          exact Duty.noConfusion
      · exact False.elim (owed rfl)
  | poppedNone located empty =>
      rcases (popInbox_spec valid).2.2 with ⟨letter, found, _⟩ | ⟨_, _, _, released, _⟩
      · cases empty.symm.trans found
      · cases released.symm.trans scheduled
  | quitStep located moved | failStep located moved =>
      have prepared := invariant.prepared
      rw [located] at prepared
      cases moved with
      | retire => exact Or.inr (Or.inr Duty.noConfusion)
      | stopNew | stop => cases running
      | late inactive => exact False.elim (Phase.ne_running inactive running)
      | close | signal => exact False.elim (prepared rfl running)
  | quitDone located =>
      have prepared := invariant.prepared
      rw [located] at prepared
      exact False.elim (prepared rfl running)
  | overloaded located place =>
      apply keep running id
      rw [located, place]
      intro owed
      simp only [ThreadPc.duty] at owed
      split
      · exact Duty.noConfusion
      · rename_i fine
        rw [if_neg fine] at owed
        split
        · exact Duty.noConfusion
        · rename_i partialBatch
          rw [if_neg partialBatch] at owed
          exact owed
  | batchGoesOn => exact Or.inr (Or.inr Duty.noConfusion)
  | batchEnds located done =>
      rcases taken : state.shared.box.finishBatch with ⟨box, again⟩
      simp only [taken] at done scheduled
      rcases (Mailbox.finishBatch_spec valid taken).2.2.2.2.2 with ⟨more, _⟩ | ⟨_, _, released⟩
      · cases more.symm.trans done
      · cases released.symm.trans scheduled
  | shutdownStep => cases stage.2.2.symm.trans running
  | shutdownDone =>
      rename_i caller pc shared located moved
      cases caller <;> cases stage.2.2.symm.trans running
  | closeHandles located =>
      rw [located] at life
      cases life.2.2.symm.trans running
  | finishLock | luaClosed => cases stage.2.2.symm.trans running
  | notStarted | published => cases running
  | loopReady located | inboxReady located | controlReady located | luaReady located
  | wakeControl located =>
      exact keep running id (idle located rfl)

/-! ## The invariant -/

theorem step_wakeInvariant (self : ServiceId) (state : State) (action : Action) (next : State)
    (reachable : (machine self).Reachable state) (invariant : WakeInvariant state)
    (moved : (machine self).step state action = some next) : WakeInvariant next := by
  have valid := (reachable_inbox reachable).valid
  have life := (reachable_lifecycle reachable).stage
  rcases reachable_step_cases reachable moved with
    ⟨request, rfl⟩ | ⟨index, call, shared, after, present, callMoved, rfl⟩ | threadMoved
  · refine ⟨?_, invariant.ready, invariant.quits, ?_⟩
    · have frame : WakeFrame state.shared state.shared := ⟨rfl, rfl, id, id, id⟩
      exact frame.prepared invariant.prepared
    · intro running isOpen scheduled
      rcases invariant.owned running isOpen scheduled with
        pending | ⟨index, call, present, notifies⟩ | duty
      · exact Or.inl pending
      · refine Or.inr (Or.inl ⟨index, call, ?_, notifies⟩)
        rw [List.getElem?_append_left (length_of_getElem? present)]
        exact present
      · exact Or.inr (Or.inr duty)
  · have frame := callMoved.wakeFrame
    refine ⟨frame.prepared invariant.prepared, ?_, ?_, ?_⟩
    · intro running
      have ready := invariant.ready (frame.running running)
      exact ⟨frame.ready.trans ready.1, ready.2.1, frame.closing.trans ready.2.2⟩
    · exact fun quit running => invariant.quits quit (frame.running running)
    · exact callMoved.owner invariant valid present
  · exact ⟨threadMove_prepared threadMoved invariant.prepared,
      threadMove_ready threadMoved invariant life, threadMove_quits threadMoved invariant,
      threadMove_owner threadMoved invariant life valid⟩

theorem fresh_wakeInvariant (state : State) (fresh : Fresh state) : WakeInvariant state := by
  rcases fresh with ⟨capacity, cells, box, _sized, _created, rfl⟩
  exact ⟨⟨rfl, rfl⟩, Phase.noConfusion, Bool.noConfusion, Phase.noConfusion⟩

theorem reachable_wakeInvariant {self : ServiceId} {state : State}
    (reachable : (machine self).Reachable state) : WakeInvariant state :=
  reachable.induction fresh_wakeInvariant (step_wakeInvariant self)

/-- Whenever the service is RUNNING with a dispatcher and its mailbox is open
and not empty, the mailbox is scheduled and somebody owes the consumer a
wake-up: it is pending in the loop, a producer has still to send it, or the
service thread is at a point with a duty.  A thread that owes another pop or
the end of a batch has not quit, and a producer that has still to look finds
the handle ready.  Since `scheduled` was last cleared at most one push has
asked for a wake-up, and exactly one while it is set. -/
theorem no_lost_wakeup {self : ServiceId} {state : State}
    (reachable : (machine self).Reachable state) :
    (state.shared.state = .running -> state.funcRef = true ->
      state.shared.box.closed = false -> state.shared.box.contents ≠ [] ->
      state.shared.box.scheduled = true ∧
      ((state.shared.inboxPending = true ∧ state.shared.inboxClosing = false) ∨
        (Exists fun index : Nat => Exists fun message =>
          (state.calls[index]? = some (.send message .readReady) ∧
            state.shared.inboxAsyncReady = true) ∨
          state.calls[index]? = some (.send message .notify)) ∨
        state.thread = .startupSend ∨
        ((state.thread.duty = .pop ∨ state.thread.duty = .batch) ∧ state.vm.quit = false) ∨
        state.thread.duty = .stop)) ∧
    state.shared.notices ≤ 1 ∧
    (state.shared.notices = 1 <-> state.shared.box.scheduled = true) := by
  have inbox := reachable_inbox reachable
  have invariant := reachable_wakeInvariant reachable
  refine ⟨?_, ?_, ?_⟩
  · intro running _ isOpen nonempty
    have scheduled := inbox.scheduled isOpen nonempty
    have ready := invariant.ready running
    refine ⟨scheduled, ?_⟩
    rcases invariant.owned running isOpen scheduled with
      pending | ⟨index, call, present, notifies⟩ | owed
    · exact Or.inl ⟨pending, ready.2.2⟩
    · refine Or.inr (Or.inl ⟨index, ?_⟩)
      cases call with
      | send message pc =>
          cases pc with
          | readReady => exact ⟨message, Or.inl ⟨present, ready.1⟩⟩
          | notify => exact ⟨message, Or.inr present⟩
          | _ => cases notifies
      | _ => cases notifies
    · have unquit (late : ¬ state.thread.Quits) : state.vm.quit = false := by
        cases quit : state.vm.quit with
        | false => rfl
        | true => exact False.elim (late (invariant.quits quit running))
      have lingering (quits : state.thread.Quits) : state.thread.duty = .stop := by
        cases pc : state.thread with
        | lua inner =>
            rw [pc] at quits
            cases inner with
            | quitting after => rfl
            | _ => exact False.elim quits
        | quitting after inner =>
            rw [pc] at quits
            have early : inner.Early = true := quits
            simp only [ThreadPc.duty, early, if_true]
        | _ =>
            rw [pc] at quits
            exact False.elim quits
      cases duty : state.thread.duty with
      | nothing => exact False.elim (owed duty)
      | start =>
          exact Or.inr (Or.inr (Or.inl (ThreadPc.startupSend_of_duty duty)))
      | pop =>
          refine Or.inr (Or.inr (Or.inr (Or.inl ⟨Or.inl rfl, unquit fun quits => ?_⟩)))
          cases duty.symm.trans (lingering quits)
      | batch =>
          refine Or.inr (Or.inr (Or.inr (Or.inl ⟨Or.inr rfl, unquit fun quits => ?_⟩)))
          cases duty.symm.trans (lingering quits)
      | stop => exact Or.inr (Or.inr (Or.inr (Or.inr rfl)))
  · rw [inbox.notices]
    exact Bool.toNat_le _
  · rw [inbox.notices]
    exact Bool.toNat_eq_one

/-- The start-up wake-up has been consumed, the round has popped one letter of
two, and its handler is running. -/
def busyRun : List Action :=
  let blank : Letter := ⟨⟨0, 0, 0, .system, none⟩, 0⟩
  let free : Outcome := ⟨some [blank, blank], 0⟩
  let request : Message := ⟨1, 7, 5, .request, some 0⟩
  List.flatten
    [[.call .start, .advance 0 free],
      List.replicate 11 (.thread .next),
      [.call (.send request), .call (.send request), .advance 1 free, .advance 2 free,
        .advance 1 free, .advance 2 free, .advance 2 free, .advance 2 free],
      [.thread .wakeInbox, .thread .next, .thread (.lua .next), .thread .next, .thread .next,
        .thread (.lua .next), .thread (.lua .decoded)]]

theorem no_lost_wakeup_busy :
    Exists fun state => (machine 7).Reachable state ∧ state.shared.state = .running ∧
      state.shared.box.contents.length = 1 ∧ state.shared.box.scheduled = true ∧
      state.thread.duty = .pop ∧ state.shared.notices ≤ 1 := by
  let box : Mailbox Letter :=
    { items := [⟨⟨0, 0, 0, .system, none⟩, 0⟩], capacity := 1, head := 0, tail := 0, count := 0,
      initialCapacity := 1, overload := 0, overloadThreshold := 1, closed := false,
      scheduled := false }
  have fresh : (machine 7).initial (.start box) := ⟨1, box.items, box, rfl, by decide, rfl⟩
  have ends : ((machine 7).run (.start box) busyRun).any (fun final => decide
      (final.shared.state = .running ∧ final.funcRef = true ∧ final.shared.box.closed = false ∧
        final.shared.box.contents.length = 1 ∧ final.thread.duty = .pop)) = true := by
    decide +kernel
  rcases (machine 7).exists_reachable fresh ends with
    ⟨state, reachable, running, handler, isOpen, length, duty⟩
  have nonempty : state.shared.box.contents ≠ [] := by
    intro empty
    rw [empty] at length
    cases length
  have result := no_lost_wakeup reachable
  exact ⟨state, reachable, running, length, (result.1 running handler isOpen nonempty).1, duty,
    result.2.1⟩

end Service
end ServiceRuntime
