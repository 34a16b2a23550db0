import ServiceRuntime.Lua.Dispatcher
import ServiceRuntime.Mailbox.Ring

namespace ServiceRuntime
namespace Service

open Lua (Letter)

/-!
# The calls other threads make on a service

`service_send`, `service_stop`, `service_start`, `service_join` and
`service_free` as small programs.  Each step is one critical section of
`pool->lock`, of `state_lock` or of the mailbox spinlock, one `uv_async_send`,
or one blocking wait; a wait that cannot proceed is a step that is not
enabled.  The steps of a call act on the part of the service which all threads
share.

`uv_async_send` succeeds on an initialised handle, and `pthread_join` on a
thread that has ended.  Errors the kernel or the allocator may report are
choices of the environment.
-/

/-- `service_state_t`. -/
inductive Phase where
  | new
  | starting
  | running
  | stopping
  | stopped
  | joined
  | freed
  deriving DecidableEq, Repr

/-- The order of the enumeration. -/
def Phase.rank : Phase -> Nat
  | .new => 0
  | .starting => 1
  | .running => 2
  | .stopping => 3
  | .stopped => 4
  | .joined => 5
  | .freed => 6

/-- Error numbers of `errno.h`; zero is success. -/
abbrev Errno := Nat

def EBUSY : Errno := 16
def EINVAL : Errno := 22
def EDEADLK : Errno := 35
def EALREADY : Errno := 114
def ECANCELED : Errno := 125

/-- `service_send_result_t`. -/
inductive SendResult where
  | ok
  | full
  | notFound
  | stopping
  | stopped
  deriving DecidableEq, Repr

/-- A RESPONSE or ERROR handed to `service_send`, with the request it answers. -/
structure Reply where
  origin : Nat
  message : Message
  deriving DecidableEq, Repr

/-- What all threads see of one service: the fields of `service_t`, its inbox,
and the wake-ups and closings of its two async handles.  The last six fields
are ghost: the letters the mailbox accepted, those popped by Lua, those popped
by the drain, those `mailbox_delete` disposed of, the replies handed out, and
the pushes that asked for a wake-up since `scheduled` was last cleared. -/
structure Shared where
  routable : Bool
  sendPins : Nat
  state : Phase
  stopRequested : Bool
  startDone : Bool
  threadCreated : Bool
  joining : Bool
  threadJoined : Bool
  startError : Errno
  joinError : Errno
  inboxPresent : Bool
  loopReady : Bool
  inboxAsyncReady : Bool
  controlAsyncReady : Bool
  box : Mailbox Letter
  deleting : Bool
  inboxPending : Bool
  controlPending : Bool
  inboxClosing : Bool
  controlClosing : Bool
  threadEnded : Bool
  accepted : List Letter
  popped : List Letter
  drained : List Letter
  disposed : List Letter
  replies : List Reply
  notices : Nat
  deriving DecidableEq, Repr

/-- What `service_new` registers around a new mailbox. -/
def Shared.new (box : Mailbox Letter) : Shared where
  routable := true
  sendPins := 0
  state := .new
  stopRequested := false
  startDone := false
  threadCreated := false
  joining := false
  threadJoined := false
  startError := 0
  joinError := 0
  inboxPresent := true
  loopReady := false
  inboxAsyncReady := false
  controlAsyncReady := false
  box
  deleting := false
  inboxPending := false
  controlPending := false
  inboxClosing := false
  controlClosing := false
  threadEnded := false
  accepted := []
  popped := []
  drained := []
  disposed := []
  replies := []
  notices := 0

/-- `inactive_send_result`. -/
def inactiveSendResult (state : Phase) : SendResult :=
  if state.rank < Phase.stopped.rank then .stopping else .stopped

/-- `mailbox_try_pop` on the inbox; an empty pop clears `scheduled`. -/
def popInbox (shared : Shared) : Shared × Option Letter :=
  ({ shared with
      box := shared.box.tryPop.1
      notices := if shared.box.tryPop.2.isSome then shared.notices else 0 },
    shared.box.tryPop.2)

/-- Note what the Lua code has popped. -/
def Shared.notePopped (shared : Shared) : Option Letter -> Shared
  | some letter => { shared with popped := shared.popped ++ [letter] }
  | none => shared

/-- Note what the drain has popped. -/
def Shared.noteDrained (shared : Shared) : Option Letter -> Shared
  | some letter => { shared with drained := shared.drained ++ [letter] }
  | none => shared

/-! ## `service_send` -/

inductive SendPc where
  | pin
  | refused
  | push
  | allocate (capacity : Nat)
  | relock (capacity : Nat) (grown : List Letter)
  | readReady
  | notify
  | closedResult
  | unpin (result : SendResult)
  | returned (result : SendResult)
  deriving DecidableEq, Repr

/-- The sender after a locked region of `mailbox_try_push`. -/
def afterPush (shared : Shared) (letter : Letter) :
    Mailbox Letter × Mailbox.PushRegion -> Shared × SendPc
  | (box, .allocate capacity) => ({ shared with box }, .allocate capacity)
  | (box, .finished .ok notify) =>
      ({ shared with
          box
          accepted := shared.accepted ++ [letter]
          notices := if notify then shared.notices + 1 else shared.notices },
        if notify then .readReady else .unpin .ok)
  | (box, .finished .full _) => ({ shared with box }, .unpin .full)
  | (box, .finished .closed _) => ({ shared with box }, .closedResult)

def sendStep (shared : Shared) (letter : Letter) (malloc : Option (List Letter)) :
    SendPc -> Option (Shared × SendPc)
  | .pin =>
      if shared.routable then some ({ shared with sendPins := shared.sendPins + 1 }, .push)
      else some (shared, .refused)
  | .refused => some (shared, .returned (inactiveSendResult shared.state))
  | .push => some (afterPush shared letter (shared.box.tryPush none letter))
  | .allocate capacity =>
      if forall grown, malloc = some grown -> grown.length = capacity * 2 then
        match Mailbox.allocateSpare capacity malloc with
        | some grown => some (shared, .relock capacity grown)
        | none => some (shared, .unpin .full)
      else none
  | .relock capacity grown =>
      some (afterPush shared letter (shared.box.retryPush capacity grown letter))
  | .readReady =>
      some (shared, if shared.inboxAsyncReady then .notify else .unpin .ok)
  | .notify => some ({ shared with inboxPending := true }, .unpin .ok)
  | .closedResult => some (shared, .unpin (inactiveSendResult shared.state))
  | .unpin result => some ({ shared with sendPins := shared.sendPins - 1 }, .returned result)
  | .returned _ => none

/-! ## `service_stop` -/

inductive StopPc where
  | retire
  | lock
  | close (signal : Bool)
  | signal
  | returned
  deriving DecidableEq, Repr

/-- The `state_lock` section of `service_stop`. -/
def stopLocked (shared : Shared) : Shared × StopPc :=
  match shared.state with
  | .new =>
      ({ shared with
          stopRequested := true
          startDone := true
          startError := ECANCELED
          state := .stopped },
        .close false)
  | .starting | .running =>
      ({ shared with stopRequested := true, state := .stopping },
        .close (!shared.stopRequested && shared.controlAsyncReady))
  | .stopping | .stopped | .joined | .freed => (shared, .returned)

def stopStep (shared : Shared) : StopPc -> Option (Shared × StopPc)
  | .retire => some ({ shared with routable := false }, .lock)
  | .lock => some (stopLocked shared)
  | .close signal =>
      some ({ shared with box := shared.box.close }, if signal then .signal else .returned)
  | .signal => some ({ shared with controlPending := true }, .returned)
  | .returned => none

/-! ## `service_start` -/

inductive StartPc where
  | lock
  | failRetire (error : Errno)
  | failClose (error : Errno)
  | waiting
  | returned (error : Errno)
  deriving DecidableEq, Repr

/-- `error` is what `pthread_create` returned.  The section ends where
`service_start` begins to wait for `start_done`. -/
def startLocked (shared : Shared) (error : Errno) : Shared × StartPc :=
  if shared.state = .new then
    if error = 0 then
      ({ shared with state := .starting, threadCreated := true }, .waiting)
    else
      ({ shared with state := .stopped, startDone := true, startError := error }, .failRetire error)
  else (shared, .returned EALREADY)

def startStep (shared : Shared) (error : Errno) : StartPc -> Option (Shared × StartPc)
  | .lock => some (startLocked shared error)
  | .failRetire code => some ({ shared with routable := false }, .failClose code)
  | .failClose code => some ({ shared with box := shared.box.close }, .returned code)
  | .waiting => if shared.startDone then some (shared, .returned shared.startError) else none
  | .returned _ => none

/-! ## `service_free` and `service_join` -/

inductive FreePc where
  | retire
  | wait
  | lock
  | delete
  | dispose
  | returned (error : Errno)
  deriving DecidableEq, Repr

/-- `mailbox_delete` closes the box and pops it empty; what it pops is
disposed of without looking at it. -/
def freeStep (shared : Shared) : FreePc -> Option (Shared × FreePc)
  | .retire => some ({ shared with routable := false }, .wait)
  | .wait => if shared.sendPins = 0 then some (shared, .lock) else none
  | .lock =>
      if shared.state = .joined then
        some ({ shared with inboxPresent := false, state := .freed }, .delete)
      else some (shared, .returned EBUSY)
  | .delete => some ({ shared with deleting := true, box := shared.box.close }, .dispose)
  | .dispose =>
      match (popInbox shared).2 with
      | some letter =>
          some ({ (popInbox shared).1 with disposed := shared.disposed ++ [letter] }, .dispose)
      | none => some ((popInbox shared).1, .returned 0)
  | .returned _ => none

inductive JoinPc where
  | enter
  | waiting (hasThread : Bool)
  | pthreadJoin (hasThread : Bool)
  | publish
  | free (pc : FreePc)
  | finish (error : Errno)
  | returned (error : Errno)
  deriving DecidableEq, Repr

/-- The first section of `service_join` once no other join is in progress. -/
def joinLocked (shared : Shared) (hasThread : Bool) : Shared × JoinPc :=
  if shared.threadJoined ∨ shared.state = .freed then (shared, .returned shared.joinError)
  else if hasThread = false ∧ shared.state ≠ .stopped then (shared, .returned EINVAL)
  else ({ shared with joining := true }, .pthreadJoin hasThread)

/-- `fromThread` says that the service's own thread is the caller. -/
def joinStep (shared : Shared) (fromThread : Bool) : JoinPc -> Option (Shared × JoinPc)
  | .enter =>
      if shared.threadCreated && fromThread then some (shared, .returned EDEADLK)
      else if shared.joining then some (shared, .waiting shared.threadCreated)
      else some (joinLocked shared shared.threadCreated)
  | .waiting hasThread =>
      if shared.joining then none else some (joinLocked shared hasThread)
  | .pthreadJoin hasThread =>
      if hasThread = false ∨ shared.threadEnded = true then some (shared, .publish) else none
  | .publish =>
      some ({ shared with joinError := 0, threadJoined := true, state := .joined }, .free .retire)
  | .free (.returned error) => some (shared, .finish error)
  | .free pc => (freeStep shared pc).map fun (next, after) => (next, .free after)
  | .finish error => some ({ shared with joining := false }, .returned error)
  | .returned _ => none

/-! ## All calls -/

inductive Call where
  | send (message : Message) (pc : SendPc)
  | stop (pc : StopPc)
  | start (pc : StartPc)
  | join (fromThread : Bool) (pc : JoinPc)
  | free (pc : FreePc)
  deriving DecidableEq, Repr

/-- A call that some thread is about to make. -/
inductive Request where
  | send (message : Message)
  | stop
  | start
  | join (fromThread : Bool)
  | free
  deriving DecidableEq, Repr

def Request.call : Request -> Call
  | .send message => .send message .pin
  | .stop => .stop .retire
  | .start => .start .lock
  | .join fromThread => .join fromThread .enter
  | .free => .free .retire

/-- What the environment decides for the next step of a call. -/
structure Outcome where
  malloc : Option (List Letter)
  error : Errno
  deriving DecidableEq, Repr

/-- One step of the call at the given position; the position tags its letter. -/
def callStep (shared : Shared) (index : Nat) (outcome : Outcome) : Call -> Option (Shared × Call)
  | .send message pc =>
      (sendStep shared ⟨message, index⟩ outcome.malloc pc).map fun (next, after) =>
        (next, .send message after)
  | .stop pc => (stopStep shared pc).map fun (next, after) => (next, .stop after)
  | .start pc => (startStep shared outcome.error pc).map fun (next, after) => (next, .start after)
  | .join fromThread pc =>
      (joinStep shared fromThread pc).map fun (next, after) => (next, .join fromThread after)
  | .free pc => (freeStep shared pc).map fun (next, after) => (next, .free after)

end Service
end ServiceRuntime
