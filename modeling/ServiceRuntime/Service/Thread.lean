import ServiceRuntime.Foundation.Pool
import ServiceRuntime.Foundation.Transition
import ServiceRuntime.Lua.Moves
import ServiceRuntime.Service.CallMoves

namespace ServiceRuntime
namespace Service

open Lua (Letter Co)
open Foundation

/-!
# The service thread

`service_thread_main` from `service_init_loop` to the end of
`service_finish_thread`, with everything it runs on the way: the callbacks of
the two async handles, the Lua dispatcher, luv callbacks of user code, and the
shutdown.  Together with an arbitrary pool of calls by other threads this is
the machine of one service.

The rest of the world is open.  Any thread may call into the service at any
moment; what the service sends elsewhere may be accepted or refused.  A
message the service sends to itself is one more `service_send` in the pool.
-/

/-- Where `service_prepare_shutdown` stands. -/
inductive ShutdownPc where
  | retire
  | close
  | waitPins
  | drain
  | drained (letter : Letter)
  deriving DecidableEq, Repr

/-- `service_prepare_shutdown` runs in the control callback and again at the
end of the thread; closing the handles follows both times. -/
inductive Caller where
  | control
  | finish
  deriving DecidableEq, Repr

inductive ThreadPc where
  | unborn
  | loopInit
  | loopReady
  | inboxInit
  | inboxReady
  | controlInit
  | controlReady
  | readStop (error : Errno)
  | luaInit
  | publish (error : Errno)
  | startupSend
  | looping
  | asyncCheck
  | lua (pc : Lua.Pc)
  | popping (processed : Nat)
  | quitting (next : Lua.AfterQuit) (pc : StopPc)
  | overload (failed batchFull : Bool)
  | failStop (pc : StopPc)
  | finishBatch
  | resend
  | controlRead
  | shutdown (caller : Caller) (pc : ShutdownPc)
  | closeHandles (caller : Caller)
  | finishLock
  | notifyStop
  | finishRun
  | luaClose
  | finishPublish
  | ended
  deriving DecidableEq, Repr

/-- What the environment decides for the thread: whether an initialisation
fails, what the event loop runs next, what user code does, and the order in
which `pairs` visits a table. -/
inductive ThreadChoice where
  | next
  | fail (error : Errno)
  | wakeInbox
  | wakeControl
  | callback
  | exit
  | inboxClosed
  | controlClosed
  | lua (choice : Lua.Choice)
  | visit (order : List Co)
  deriving DecidableEq, Repr

/-- One service and everybody who is inside a call on it.  `funcRef` says
whether `service_init_lua` has stored a dispatcher. -/
structure State where
  shared : Shared
  thread : ThreadPc
  vm : Lua.Vm
  funcRef : Bool
  calls : List Call

def State.start (box : Mailbox Letter) : State where
  shared := .new box
  thread := .unborn
  vm := .fresh
  funcRef := false
  calls := []

/-! ## Parts of the thread -/

/-- `service_prepare_shutdown`; `none` in the second component means that it
returns.  The drain answers awaited requests before it disposes of them. -/
def shutdownStep (self : ServiceId) (shared : Shared) :
    ShutdownPc -> Option (Shared × Option ShutdownPc)
  | .retire => some ({ shared with routable := false }, some .close)
  | .close => some ({ shared with box := shared.box.close }, some .waitPins)
  | .waitPins => if shared.sendPins = 0 then some (shared, some .drain) else none
  | .drain =>
      some ((popInbox shared).1.noteDrained (popInbox shared).2, (popInbox shared).2.map .drained)
  | .drained letter =>
      if letter.message.Awaited then
        some ({ shared with
            replies := shared.replies ++ [⟨letter.tag, stopReply self letter.message⟩] },
          some .drain)
      else some (shared, some .drain)

/-- What follows `service_prepare_shutdown`. -/
def Caller.afterShutdown : Caller -> ThreadPc
  | .control => .closeHandles .control
  | .finish => .notifyStop

/-- What follows `service_close_runtime_handles`. -/
def Caller.afterClose : Caller -> ThreadPc
  | .control => .looping
  | .finish => .finishRun

/-- `service_close_runtime_handles`. -/
def closeRuntimeHandles (shared : Shared) : Shared :=
  { shared with
    inboxClosing := shared.inboxClosing || shared.inboxAsyncReady
    controlClosing := shared.controlClosing || shared.controlAsyncReady }

/-- The callback of `uv_close` on the inbox handle. -/
def inboxHandleClosed (shared : Shared) : Option Shared :=
  if shared.inboxClosing ∧ shared.inboxAsyncReady then
    some { shared with inboxAsyncReady := false }
  else none

/-- The callback of `uv_close` on the control handle. -/
def controlHandleClosed (shared : Shared) : Option Shared :=
  if shared.controlClosing ∧ shared.controlAsyncReady then
    some { shared with controlAsyncReady := false }
  else none

/-- The section of `service_thread_main` that ends the start. -/
def publishStart (shared : Shared) (error : Errno) : Shared × ThreadPc :=
  if error = 0 ∧ shared.stopRequested = false then
    ({ shared with state := .running, startError := 0, startDone := true }, .startupSend)
  else
    ({ shared with
        state := .stopping
        startError := if error = 0 then ECANCELED else error
        startDone := true },
      .finishLock)

/-- The last section of `service_finish_thread`; the thread returns after it. -/
def publishStopped (shared : Shared) : Shared :=
  { shared with
    loopReady := false
    inboxAsyncReady := false
    controlAsyncReady := false
    state := .stopped
    threadEnded := true }

/-- The reply a return from `service._send_message` completes, if the message
was one. -/
def replyOf : Lua.Pc -> Option Reply
  | .sending message (.response co _) => some ⟨co, message⟩
  | .sending message (.failure co _) => some ⟨co, message⟩
  | .sending message (.pending co _) => some ⟨co, message⟩
  | _ => none

/-- A step of the Lua code that does not call back into `service_recv` or
`service_stop`. -/
def luaStep (self : ServiceId) (state : State) (pc : Lua.Pc) (choice : Lua.Choice) :
    Option State :=
  match pc with
  | .receiving _ | .quitting _ => none
  | pc =>
      (Lua.step self state.vm pc choice).map fun (vm, after) =>
        { state with
          vm
          thread := .lua after
          shared := { state.shared with replies := state.shared.replies ++ (replyOf pc).toList } }

/-- Where control goes when the Lua code calls or returns to C. -/
def leaveLua (state : State) : Lua.Pc -> Option State
  | .receiving processed =>
      if state.shared.state = .running then some { state with thread := .popping processed }
      else some { state with thread := .lua (.roundEnd processed) }
  | .quitting next => some { state with thread := .quitting next .retire }
  | .finished batchFull => some { state with thread := .overload false batchFull }
  | .raised => some { state with thread := .overload true false }
  | .callbackDone => some { state with thread := .looping }
  | .stopDone =>
      some { state with thread := if state.shared.loopReady then .closeHandles .finish else .luaClose }
  | _ => none

/-! ## The machine -/

def threadStep (self : ServiceId) (state : State) (choice : ThreadChoice) : Option State :=
  match state.thread, choice with
  | .unborn, .next =>
      if state.shared.threadCreated then some { state with thread := .loopInit } else none
  | .loopInit, .next => some { state with thread := .loopReady }
  | .loopInit, .fail error =>
      if error = 0 then none else some { state with thread := .readStop error }
  | .loopReady, .next =>
      some { state with thread := .inboxInit, shared := { state.shared with loopReady := true } }
  | .inboxInit, .next => some { state with thread := .inboxReady }
  | .inboxInit, .fail error =>
      if error = 0 then none else some { state with thread := .readStop error }
  | .inboxReady, .next =>
      some { state with
        thread := .controlInit
        shared := { state.shared with inboxAsyncReady := true } }
  | .controlInit, .next => some { state with thread := .controlReady }
  | .controlInit, .fail error =>
      if error = 0 then none else some { state with thread := .readStop error }
  | .controlReady, .next =>
      some { state with
        thread := .readStop 0
        shared := { state.shared with controlAsyncReady := true } }
  | .readStop error, .next =>
      if error = 0 ∧ state.shared.stopRequested = false then some { state with thread := .luaInit }
      else some { state with thread := .publish error }
  | .luaInit, .next => some { state with thread := .publish 0, funcRef := true }
  | .luaInit, .fail error =>
      if error = 0 then none else some { state with thread := .publish error }
  | .publish error, .next =>
      some { state with
        shared := (publishStart state.shared error).1
        thread := (publishStart state.shared error).2 }
  | .startupSend, .next =>
      some { state with thread := .looping, shared := { state.shared with inboxPending := true } }
  | .looping, .wakeInbox =>
      if state.shared.inboxPending ∧ state.shared.inboxClosing = false then
        some { state with
          thread := .asyncCheck
          shared := { state.shared with inboxPending := false } }
      else none
  | .looping, .wakeControl =>
      if state.shared.controlPending ∧ state.shared.controlClosing = false then
        some { state with
          thread := .controlRead
          shared := { state.shared with controlPending := false } }
      else none
  | .looping, .callback => some { state with thread := .lua (.user .callback) }
  | .looping, .inboxClosed =>
      (inboxHandleClosed state.shared).map fun shared => { state with shared }
  | .looping, .controlClosed =>
      (controlHandleClosed state.shared).map fun shared => { state with shared }
  | .looping, .exit => some { state with thread := .finishLock }
  | .asyncCheck, .next =>
      if state.shared.state = .running ∧ state.funcRef then
        some { state with thread := .lua (.head 0) }
      else some { state with thread := .looping }
  | .lua pc, .lua choice => luaStep self state pc choice
  | .lua pc, .next => leaveLua state pc
  | .popping processed, .next =>
      (Lua.step self state.vm (.receiving processed) (.received (popInbox state.shared).2)).map
        fun (vm, after) =>
          { state with
            vm
            thread := .lua after
            shared := (popInbox state.shared).1.notePopped (popInbox state.shared).2 }
  | .quitting after .returned, .next =>
      (Lua.step self state.vm (.quitting after) .stopped).map
        fun (vm, pc) => { state with vm, thread := .lua pc }
  | .quitting after pc, .next =>
      (stopStep state.shared pc).map
        fun (shared, pc) => { state with shared, thread := .quitting after pc }
  | .overload failed batchFull, .next =>
      some { state with
        shared := { state.shared with box := state.shared.box.takeOverload.1 }
        thread :=
          if failed then .failStop .retire
          else if batchFull then .finishBatch
          else .looping }
  | .failStop .returned, .next => some { state with thread := .looping }
  | .failStop pc, .next =>
      (stopStep state.shared pc).map fun (shared, pc) => { state with shared, thread := .failStop pc }
  | .finishBatch, .next =>
      some { state with
        shared := { state.shared with
          box := state.shared.box.finishBatch.1
          notices := if state.shared.box.finishBatch.2 then state.shared.notices else 0 }
        thread := if state.shared.box.finishBatch.2 then .resend else .looping }
  | .resend, .next =>
      some { state with thread := .looping, shared := { state.shared with inboxPending := true } }
  | .controlRead, .next =>
      if state.shared.stopRequested then some { state with thread := .shutdown .control .retire }
      else some { state with thread := .looping }
  | .shutdown caller pc, .next =>
      (shutdownStep self state.shared pc).map fun (shared, after) =>
        { state with
          shared
          thread := match after with
            | some pc => .shutdown caller pc
            | none => caller.afterShutdown }
  | .closeHandles caller, .next =>
      some { state with
        shared := closeRuntimeHandles state.shared
        thread := caller.afterClose }
  | .finishLock, .next =>
      some { state with
        shared := { state.shared with
          state := if state.shared.state.rank < Phase.stopping.rank then .stopping
            else state.shared.state }
        thread := .shutdown .finish .retire }
  | .notifyStop, .visit order =>
      if state.funcRef then
        if order.isPerm state.vm.response.keys then
          some { state with thread := .lua (.replyPending order) }
        else none
      else
        some { state with
          thread := if state.shared.loopReady then .closeHandles .finish else .luaClose }
  | .finishRun, .inboxClosed =>
      (inboxHandleClosed state.shared).map fun shared => { state with shared }
  | .finishRun, .controlClosed =>
      (controlHandleClosed state.shared).map fun shared => { state with shared }
  | .finishRun, .next =>
      -- `uv_loop_close` reports `UV_EBUSY` while a handle is still open.
      if state.shared.inboxAsyncReady = false ∧ state.shared.controlAsyncReady = false then
        some { state with thread := .luaClose }
      else some { state with thread := .closeHandles .finish }
  | .luaClose, .next => some { state with thread := .finishPublish, funcRef := false }
  | .finishPublish, .next =>
      some { state with thread := .ended, shared := publishStopped state.shared }
  | _, _ => none

/-- Who moves: a thread enters a call, a call takes a step, or the service
thread takes one. -/
inductive Action where
  | call (request : Request)
  | advance (index : Nat) (outcome : Outcome)
  | thread (choice : ThreadChoice)
  deriving DecidableEq, Repr

def advance (state : State) (index : Nat) (outcome : Outcome) : Option State :=
  match state.calls[index]? with
  | none => none
  | some call =>
      (callStep state.shared index outcome call).map fun (shared, after) =>
        { state with shared, calls := state.calls.set index after }

def step (self : ServiceId) (state : State) : Action -> Option State
  | .call request => some { state with calls := state.calls ++ [request.call] }
  | .advance index outcome => advance state index outcome
  | .thread choice => threadStep self state choice

/-- A service just registered by `service_new`, with a mailbox of any size. -/
def Fresh (state : State) : Prop :=
  Exists fun capacity => Exists fun cells => Exists fun box =>
    cells.length = capacity ∧ Mailbox.new capacity (some cells) = some box ∧ state = .start box

def machine (self : ServiceId) : Machine State Action where
  initial := Fresh
  step := step self

/-! ## Everything the thread can do -/

/-- The steps of `service_prepare_shutdown`. -/
inductive ShutdownMove (self : ServiceId) (shared : Shared) :
    ShutdownPc -> Shared -> Option ShutdownPc -> Prop where
  | retire : ShutdownMove self shared .retire { shared with routable := false } (some .close)
  | close : ShutdownMove self shared .close { shared with box := shared.box.close } (some .waitPins)
  | waited (settled : shared.sendPins = 0) :
      ShutdownMove self shared .waitPins shared (some .drain)
  | popped {letter : Letter} (found : (popInbox shared).2 = some letter) :
      ShutdownMove self shared .drain
        { (popInbox shared).1 with drained := shared.drained ++ [letter] } (some (.drained letter))
  | done (empty : (popInbox shared).2 = none) :
      ShutdownMove self shared .drain (popInbox shared).1 none
  | answered {letter : Letter} (awaited : letter.message.Awaited) :
      ShutdownMove self shared (.drained letter)
        { shared with
          replies := shared.replies ++ [⟨letter.tag, stopReply self letter.message⟩] }
        (some .drain)
  | skipped {letter : Letter} (unasked : ¬ letter.message.Awaited) :
      ShutdownMove self shared (.drained letter) shared (some .drain)

theorem shutdownStep_move {self : ServiceId} {shared next : Shared} {pc : ShutdownPc}
    {after : Option ShutdownPc} (moved : shutdownStep self shared pc = some (next, after)) :
    ShutdownMove self shared pc next after := by
  cases pc with
  | retire =>
      cases moved
      exact .retire
  | close =>
      cases moved
      exact .close
  | waitPins =>
      simp only [shutdownStep] at moved
      split at moved <;> rename_i settled <;> cases moved
      exact .waited settled
  | drain =>
      simp only [shutdownStep, Option.some.injEq, Prod.mk.injEq] at moved
      rcases moved with ⟨rfl, rfl⟩
      cases found : (popInbox shared).2 with
      | none => exact .done found
      | some letter => exact .popped found
  | drained letter =>
      simp only [shutdownStep] at moved
      split at moved <;> rename_i awaited <;> cases moved
      · exact .answered awaited
      · exact .skipped awaited

/-- A change of the program counter alone. -/
inductive Walk (state : State) : ThreadPc -> ThreadPc -> Prop where
  | born (created : state.shared.threadCreated = true) : Walk state .unborn .loopInit
  | loopMade : Walk state .loopInit .loopReady
  | loopFailed {error} (failed : error ≠ 0) : Walk state .loopInit (.readStop error)
  | inboxMade : Walk state .inboxInit .inboxReady
  | inboxFailed {error} (failed : error ≠ 0) : Walk state .inboxInit (.readStop error)
  | controlMade : Walk state .controlInit .controlReady
  | controlFailed {error} (failed : error ≠ 0) : Walk state .controlInit (.readStop error)
  | goOn (wanted : state.shared.stopRequested = false) : Walk state (.readStop 0) .luaInit
  | giveUp {error} (reason : error = 0 -> state.shared.stopRequested = true) :
      Walk state (.readStop error) (.publish error)
  | luaFailed {error} (failed : error ≠ 0) : Walk state .luaInit (.publish error)
  | callback : Walk state .looping (.lua (.user .callback))
  | loopExit : Walk state .looping .finishLock
  | round (running : state.shared.state = .running) (handler : state.funcRef = true) :
      Walk state .asyncCheck (.lua (.head 0))
  | noRound (idle : state.shared.state = .running -> state.funcRef = false) :
      Walk state .asyncCheck .looping
  | receive {processed} (running : state.shared.state = .running) :
      Walk state (.lua (.receiving processed)) (.popping processed)
  | refuse {processed} (inactive : state.shared.state ≠ .running) :
      Walk state (.lua (.receiving processed)) (.lua (.roundEnd processed))
  | quit {after} : Walk state (.lua (.quitting after)) (.quitting after .retire)
  | finished {batchFull} : Walk state (.lua (.finished batchFull)) (.overload false batchFull)
  | raised : Walk state (.lua .raised) (.overload true false)
  | callbackDone : Walk state (.lua .callbackDone) .looping
  | failStopped : Walk state (.failStop .returned) .looping
  | control (wanted : state.shared.stopRequested = true) :
      Walk state .controlRead (.shutdown .control .retire)
  | noControl (unwanted : state.shared.stopRequested = false) : Walk state .controlRead .looping
  | notify {order} (handler : state.funcRef = true) (visits : order.Perm state.vm.response.keys) :
      Walk state .notifyStop (.lua (.replyPending order))
  | notifyNobody (noHandler : state.funcRef = false) {after : ThreadPc}
      (place : after = .closeHandles .finish ∨ after = .luaClose)
      (noLoop : after = .luaClose -> state.shared.loopReady = false) : Walk state .notifyStop after
  | stopDone {after : ThreadPc} (place : after = .closeHandles .finish ∨ after = .luaClose)
      (noLoop : after = .luaClose -> state.shared.loopReady = false) :
      Walk state (.lua .stopDone) after
  | loopClosed (inbox : state.shared.inboxAsyncReady = false)
      (control : state.shared.controlAsyncReady = false) : Walk state .finishRun .luaClose
  | loopBusy : Walk state .finishRun (.closeHandles .finish)

/-- One step of the service thread. -/
inductive ThreadMove (self : ServiceId) (state : State) : State -> Prop where
  | walk {before after} (located : state.thread = before) (walked : Walk state before after) :
      ThreadMove self state { state with thread := after }
  | loopReady (located : state.thread = .loopReady) :
      ThreadMove self state
        { state with thread := .inboxInit, shared := { state.shared with loopReady := true } }
  | inboxReady (located : state.thread = .inboxReady) :
      ThreadMove self state
        { state with
          thread := .controlInit
          shared := { state.shared with inboxAsyncReady := true } }
  | controlReady (located : state.thread = .controlReady) :
      ThreadMove self state
        { state with
          thread := .readStop 0
          shared := { state.shared with controlAsyncReady := true } }
  | luaReady (located : state.thread = .luaInit) :
      ThreadMove self state { state with thread := .publish 0, funcRef := true }
  | started (located : state.thread = .publish 0) (wanted : state.shared.stopRequested = false) :
      ThreadMove self state
        { state with
          thread := .startupSend
          shared := { state.shared with state := .running, startError := 0, startDone := true } }
  | notStarted {error code} (located : state.thread = .publish error)
      (reason : error = 0 -> state.shared.stopRequested = true)
      (coded : code = if error = 0 then ECANCELED else error) :
      ThreadMove self state
        { state with
          thread := .finishLock
          shared := { state.shared with state := .stopping, startError := code, startDone := true } }
  | selfWake (located : state.thread = .startupSend ∨ state.thread = .resend) :
      ThreadMove self state
        { state with thread := .looping, shared := { state.shared with inboxPending := true } }
  | wakeInbox (located : state.thread = .looping) (pending : state.shared.inboxPending = true)
      (isOpen : state.shared.inboxClosing = false) :
      ThreadMove self state
        { state with thread := .asyncCheck, shared := { state.shared with inboxPending := false } }
  | wakeControl (located : state.thread = .looping) (pending : state.shared.controlPending = true)
      (isOpen : state.shared.controlClosing = false) :
      ThreadMove self state
        { state with
          thread := .controlRead
          shared := { state.shared with controlPending := false } }
  | inboxClosed (located : state.thread = .looping ∨ state.thread = .finishRun)
      (closing : state.shared.inboxClosing = true) (ready : state.shared.inboxAsyncReady = true) :
      ThreadMove self state { state with shared := { state.shared with inboxAsyncReady := false } }
  | controlClosed (located : state.thread = .looping ∨ state.thread = .finishRun)
      (closing : state.shared.controlClosing = true)
      (ready : state.shared.controlAsyncReady = true) :
      ThreadMove self state
        { state with shared := { state.shared with controlAsyncReady := false } }
  | lua {pc choice vm after} (located : state.thread = .lua pc)
      (internal : forall processed, pc ≠ .receiving processed)
      (internal' : forall next, pc ≠ .quitting next)
      (moved : Lua.Move self state.vm pc choice vm after) :
      ThreadMove self state
        { state with
          vm
          thread := .lua after
          shared := { state.shared with
            replies := state.shared.replies ++ (replyOf pc).toList } }
  | popped {processed letter} (located : state.thread = .popping processed)
      (found : (popInbox state.shared).2 = some letter) :
      ThreadMove self state
        { state with
          thread := .lua (.got (processed + 1) letter)
          shared := { (popInbox state.shared).1 with popped := state.shared.popped ++ [letter] } }
  | poppedNone {processed} (located : state.thread = .popping processed)
      (empty : (popInbox state.shared).2 = none) :
      ThreadMove self state
        { state with
          thread := .lua (.roundEnd processed)
          shared := (popInbox state.shared).1 }
  | quitStep {after pc shared later} (located : state.thread = .quitting after pc)
      (moved : StopMove state.shared pc shared later) :
      ThreadMove self state { state with shared, thread := .quitting after later }
  | quitDone {after} (located : state.thread = .quitting after .returned) :
      ThreadMove self state { state with thread := .lua after.pc }
  | overloaded {failed batchFull after} (located : state.thread = .overload failed batchFull)
      (place : after = if failed then ThreadPc.failStop .retire
        else if batchFull then .finishBatch else .looping) :
      ThreadMove self state
        { state with
          shared := { state.shared with box := state.shared.box.takeOverload.1 }
          thread := after }
  | failStep {pc shared later} (located : state.thread = .failStop pc)
      (moved : StopMove state.shared pc shared later) :
      ThreadMove self state { state with shared, thread := .failStop later }
  | batchGoesOn (located : state.thread = .finishBatch)
      (more : state.shared.box.finishBatch.2 = true) :
      ThreadMove self state
        { state with
          shared := { state.shared with box := state.shared.box.finishBatch.1 }
          thread := .resend }
  | batchEnds (located : state.thread = .finishBatch)
      (done : state.shared.box.finishBatch.2 = false) :
      ThreadMove self state
        { state with
          shared := { state.shared with box := state.shared.box.finishBatch.1, notices := 0 }
          thread := .looping }
  | shutdownStep {caller pc shared later} (located : state.thread = .shutdown caller pc)
      (moved : ShutdownMove self state.shared pc shared (some later)) :
      ThreadMove self state { state with shared, thread := .shutdown caller later }
  | shutdownDone {caller pc shared} (located : state.thread = .shutdown caller pc)
      (moved : ShutdownMove self state.shared pc shared none) :
      ThreadMove self state { state with shared, thread := caller.afterShutdown }
  | closeHandles {caller} (located : state.thread = .closeHandles caller) :
      ThreadMove self state
        { state with shared := closeRuntimeHandles state.shared, thread := caller.afterClose }
  | finishLock (located : state.thread = .finishLock) :
      ThreadMove self state
        { state with
          shared := { state.shared with
            state := if state.shared.state.rank < Phase.stopping.rank then .stopping
              else state.shared.state }
          thread := .shutdown .finish .retire }
  | luaClosed (located : state.thread = .luaClose) :
      ThreadMove self state { state with thread := .finishPublish, funcRef := false }
  | published (located : state.thread = .finishPublish) :
      ThreadMove self state
        { state with thread := .ended, shared := publishStopped state.shared }

/-- Where `service_notify_lua_stop` returns to. -/
theorem afterStop_place (loopReady : Bool) :
    ((if loopReady then ThreadPc.closeHandles .finish else .luaClose) = .closeHandles .finish ∨
      (if loopReady then ThreadPc.closeHandles .finish else .luaClose) = .luaClose) ∧
    ((if loopReady then ThreadPc.closeHandles .finish else .luaClose) = .luaClose ->
      loopReady = false) := by
  cases loopReady with
  | true => exact ⟨Or.inl rfl, ThreadPc.noConfusion⟩
  | false => exact ⟨Or.inr rfl, fun _ => rfl⟩

theorem leaveLua_walk {state next : State} {pc : Lua.Pc} (moved : leaveLua state pc = some next) :
    Exists fun after => next = { state with thread := after } ∧ Walk state (.lua pc) after := by
  cases pc with
  | receiving processed =>
      simp only [leaveLua] at moved
      split at moved <;> rename_i guard <;> cases moved
      · exact ⟨_, rfl, .receive guard⟩
      · exact ⟨_, rfl, .refuse guard⟩
  | quitting after =>
      cases moved
      exact ⟨_, rfl, .quit⟩
  | finished batchFull =>
      cases moved
      exact ⟨_, rfl, .finished⟩
  | raised =>
      cases moved
      exact ⟨_, rfl, .raised⟩
  | callbackDone =>
      cases moved
      exact ⟨_, rfl, .callbackDone⟩
  | stopDone =>
      cases moved
      have leaves := afterStop_place state.shared.loopReady
      exact ⟨_, rfl, .stopDone leaves.1 leaves.2⟩
  | _ => cases moved

theorem luaStep_move {self : ServiceId} {state next : State} {pc : Lua.Pc} {choice : Lua.Choice}
    (located : state.thread = .lua pc) (moved : luaStep self state pc choice = some next) :
    ThreadMove self state next := by
  unfold luaStep at moved
  split at moved
  · cases moved
  · cases moved
  · rename_i notReceiving notQuitting
    rcases Option.map_eq_some_iff.mp moved with ⟨⟨vm, after⟩, taken, rfl⟩
    exact .lua located notReceiving notQuitting (Lua.step_move taken)

theorem inboxHandleClosed_move {self : ServiceId} {state next : State}
    (located : state.thread = .looping ∨ state.thread = .finishRun)
    (moved : (inboxHandleClosed state.shared).map (fun shared => { state with shared }) = some next) :
    ThreadMove self state next := by
  rcases Option.map_eq_some_iff.mp moved with ⟨shared, closed, rfl⟩
  unfold inboxHandleClosed at closed
  split at closed <;> rename_i guard <;> cases closed
  exact .inboxClosed located guard.1 guard.2

theorem controlHandleClosed_move {self : ServiceId} {state next : State}
    (located : state.thread = .looping ∨ state.thread = .finishRun)
    (moved : (controlHandleClosed state.shared).map (fun shared => { state with shared }) = some next) :
    ThreadMove self state next := by
  rcases Option.map_eq_some_iff.mp moved with ⟨shared, closed, rfl⟩
  unfold controlHandleClosed at closed
  split at closed <;> rename_i guard <;> cases closed
  exact .controlClosed located guard.1 guard.2

theorem publishStart_move {self : ServiceId} {state : State} {error : Errno}
    (located : state.thread = .publish error) :
    ThreadMove self state
      { state with
        shared := (publishStart state.shared error).1
        thread := (publishStart state.shared error).2 } := by
  unfold publishStart
  split
  · rename_i guard
    rw [guard.1] at located
    exact .started located guard.2
  · rename_i guard
    refine ThreadMove.notStarted located ?_ rfl
    intro zero
    exact (Bool.not_eq_false _).mp fun wanted => guard ⟨zero, wanted⟩

/-- The relation covers the step function. -/
theorem threadStep_move {self : ServiceId} {state next : State} {choice : ThreadChoice}
    (moved : threadStep self state choice = some next) : ThreadMove self state next := by
  unfold threadStep at moved
  split at moved
  · rename_i located
    split at moved <;> rename_i guard <;> cases moved
    exact .walk located (.born guard)
  · rename_i located
    cases moved
    exact .walk located .loopMade
  · rename_i located
    split at moved <;> rename_i failed <;> cases moved
    exact .walk located (.loopFailed failed)
  · rename_i located
    cases moved
    exact .loopReady located
  · rename_i located
    cases moved
    exact .walk located .inboxMade
  · rename_i located
    split at moved <;> rename_i failed <;> cases moved
    exact .walk located (.inboxFailed failed)
  · rename_i located
    cases moved
    exact .inboxReady located
  · rename_i located
    cases moved
    exact .walk located .controlMade
  · rename_i located
    split at moved <;> rename_i failed <;> cases moved
    exact .walk located (.controlFailed failed)
  · rename_i located
    cases moved
    exact .controlReady located
  · rename_i error located
    split at moved <;> rename_i guard <;> cases moved
    · rw [guard.1] at located
      exact .walk located (.goOn guard.2)
    · apply ThreadMove.walk located
      apply Walk.giveUp
      intro zero
      exact (Bool.not_eq_false _).mp fun wanted => guard ⟨zero, wanted⟩
  · rename_i located
    cases moved
    exact .luaReady located
  · rename_i located
    split at moved <;> rename_i failed <;> cases moved
    exact .walk located (.luaFailed failed)
  · rename_i located
    cases moved
    exact publishStart_move located
  · rename_i located
    cases moved
    exact .selfWake (Or.inl located)
  · rename_i located
    split at moved <;> rename_i guard <;> cases moved
    exact .wakeInbox located guard.1 guard.2
  · rename_i located
    split at moved <;> rename_i guard <;> cases moved
    exact .wakeControl located guard.1 guard.2
  · rename_i located
    cases moved
    exact .walk located .callback
  · rename_i located
    exact inboxHandleClosed_move (Or.inl located) moved
  · rename_i located
    exact controlHandleClosed_move (Or.inl located) moved
  · rename_i located
    cases moved
    exact .walk located .loopExit
  · rename_i located
    split at moved <;> rename_i guard <;> cases moved
    · exact .walk located (.round guard.1 guard.2)
    · apply ThreadMove.walk located
      apply Walk.noRound
      intro running
      exact (Bool.not_eq_true _).mp fun handler => guard ⟨running, handler⟩
  · rename_i located
    exact luaStep_move located moved
  · rename_i located
    rcases leaveLua_walk moved with ⟨after, rfl, walked⟩
    exact .walk located walked
  · rename_i located
    rcases Option.map_eq_some_iff.mp moved with ⟨⟨vm, after⟩, taken, rfl⟩
    cases found : (popInbox state.shared).2 with
    | none =>
        rw [found] at taken
        cases taken
        exact .poppedNone located found
    | some letter =>
        rw [found] at taken
        cases taken
        exact .popped located found
  · rename_i located
    cases moved
    exact .quitDone located
  · rename_i located
    rcases Option.map_eq_some_iff.mp moved with ⟨⟨shared, later⟩, taken, rfl⟩
    exact .quitStep located (stopStep_move taken)
  · rename_i located
    cases moved
    exact .overloaded located rfl
  · rename_i located
    cases moved
    exact .walk located .failStopped
  · rename_i located
    rcases Option.map_eq_some_iff.mp moved with ⟨⟨shared, later⟩, taken, rfl⟩
    exact .failStep located (stopStep_move taken)
  · rename_i located
    cases moved
    cases more : state.shared.box.finishBatch.2 with
    | true => exact .batchGoesOn located more
    | false => exact .batchEnds located more
  · rename_i located
    cases moved
    exact .selfWake (Or.inr located)
  · rename_i located
    split at moved <;> rename_i guard <;> cases moved
    · exact .walk located (.control guard)
    · exact .walk located (.noControl ((Bool.not_eq_true _).mp guard))
  · rename_i located
    rcases Option.map_eq_some_iff.mp moved with ⟨⟨shared, later⟩, taken, rfl⟩
    cases later with
    | none => exact .shutdownDone located (shutdownStep_move taken)
    | some later => exact .shutdownStep located (shutdownStep_move taken)
  · rename_i located
    cases moved
    exact .closeHandles located
  · rename_i located
    cases moved
    exact .finishLock located
  · rename_i order located
    split at moved
    · rename_i handler
      split at moved <;> rename_i visits <;> cases moved
      exact .walk located (.notify handler (List.isPerm_iff.mp visits))
    · rename_i noHandler
      cases moved
      have leaves := afterStop_place state.shared.loopReady
      exact .walk located (.notifyNobody ((Bool.not_eq_true _).mp noHandler) leaves.1 leaves.2)
  · rename_i located
    exact inboxHandleClosed_move (Or.inr located) moved
  · rename_i located
    exact controlHandleClosed_move (Or.inr located) moved
  · rename_i located
    split at moved <;> rename_i guard <;> cases moved
    · exact .walk located (.loopClosed guard.1 guard.2)
    · exact .walk located .loopBusy
  · rename_i located
    cases moved
    exact .luaClosed located
  · rename_i located
    cases moved
    exact .published located
  · cases moved

/-- The service thread leaves the calls of the others alone. -/
theorem ThreadMove.calls {self : ServiceId} {state next : State}
    (moved : ThreadMove self state next) : next.calls = state.calls := by
  cases moved <;> rfl

theorem advance_cases {state next : State} {index : Nat} {outcome : Outcome}
    (moved : advance state index outcome = some next) :
    Exists fun call => Exists fun shared => Exists fun after => state.calls[index]? = some call ∧
      callStep state.shared index outcome call = some (shared, after) ∧
      next = { state with shared, calls := state.calls.set index after } := by
  unfold advance at moved
  split at moved
  · cases moved
  · rename_i call present
    rcases Option.map_eq_some_iff.mp moved with ⟨⟨shared, after⟩, taken, result⟩
    exact ⟨call, shared, after, present, taken, result.symm⟩

/-- Everything a step can be. -/
theorem step_cases {self : ServiceId} {state next : State} {action : Action}
    (moved : step self state action = some next) :
    (Exists fun request : Request => next = { state with calls := state.calls ++ [request.call] }) ∨
    (Exists fun index => Exists fun outcome => Exists fun call => Exists fun shared =>
      Exists fun after => state.calls[index]? = some call ∧
        callStep state.shared index outcome call = some (shared, after) ∧
        next = { state with shared, calls := state.calls.set index after }) ∨
    ThreadMove self state next := by
  cases action with
  | call request =>
      simp only [step, Option.some.injEq] at moved
      exact Or.inl ⟨request, moved.symm⟩
  | advance index outcome =>
      rcases advance_cases moved with ⟨call, shared, after, present, taken, equal⟩
      exact Or.inr (Or.inl ⟨index, outcome, call, shared, after, present, taken, equal⟩)
  | thread choice => exact Or.inr (Or.inr (threadStep_move moved))

end Service
end ServiceRuntime
