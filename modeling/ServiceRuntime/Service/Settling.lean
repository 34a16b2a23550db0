import ServiceRuntime.Lua.Returning
import ServiceRuntime.Service.Waiting
import ServiceRuntime.Service.Waits

namespace ServiceRuntime
namespace Service

open Lua (Letter Co)
open Foundation

/-!
# How far it is to the end

A measure of what the calls in progress and the service thread still have to
do once the service is told to stop.  A call that does not wait can take a
step that brings it down, and so can the thread when nobody holds a pin or a
signal.
-/

/-! ## How much is left -/

def SendPc.left : SendPc -> Nat
  | .returned _ => 0
  | .refused | .unpin _ => 1
  | .notify | .closedResult => 2
  | .readReady => 3
  | .allocate _ => 4
  | .relock _ _ => 7
  | .push => 7
  | .pin => 8

def StopPc.left : StopPc -> Nat
  | .returned => 0
  | .signal => 1
  | .close _ => 2
  | .lock => 3
  | .retire => 4

def StartPc.left : StartPc -> Nat
  | .returned _ => 0
  | .failClose _ => 1
  | .failRetire _ => 2
  | .waiting => 3
  | .lock => 4

def FreePc.left : FreePc -> Nat
  | .returned _ => 0
  | .dispose => 1
  | .delete => 2
  | .lock => 3
  | .wait => 4
  | .retire => 5

def JoinPc.left : JoinPc -> Nat
  | .returned _ => 0
  | .finish _ => 1
  | .free pc => 2 + pc.left
  | .publish => 8
  | .pthreadJoin _ => 9
  | .waiting _ => 10
  | .enter => 11

def Call.left : Call -> Nat
  | .send _ pc => pc.left
  | .stop pc => pc.left
  | .start pc => pc.left
  | .join _ pc => pc.left
  | .free pc => pc.left

/-- Each letter that is still queued takes two steps of the drain. -/
def Shared.letters (shared : Shared) : Nat := 3 * shared.box.contents.length

def ShutdownPc.left : ShutdownPc -> Nat
  | .drain => 1
  | .drained _ => 2
  | .waitPins => 3
  | .close => 4
  | .retire => 5

def ThreadPc.left (shared : Shared) (responses : Nat) : ThreadPc -> Nat
  | .ended => 0
  | .finishPublish => 1
  | .luaClose => 2
  | .finishRun => 3 + (shared.inboxAsyncReady.toNat + shared.controlAsyncReady.toNat)
  | .closeHandles .finish => 6
  | .lua pc => pc.left responses
  | .notifyStop => 10 + 3 * responses
  | .shutdown .finish pc => 10 + pc.left + 3 * responses
  | .finishLock => 16 + 3 * responses
  | .looping =>
      if shared.controlClosing then
        20 + (shared.inboxAsyncReady.toNat + shared.controlAsyncReady.toNat) + 3 * responses
      else 40 + 3 * responses
  | .closeHandles .control => 25 + 3 * responses
  | .shutdown .control pc => 25 + pc.left + 3 * responses
  | .controlRead => 31 + 3 * responses
  | .startupSend | .asyncCheck | .resend => 41 + 3 * responses
  | .finishBatch => 42 + 3 * responses
  | .failStop pc => 42 + pc.left + 3 * responses
  | .quitting next pc => 41 + next.steps + pc.left + 3 * responses
  | .overload _ _ => 50 + 3 * responses
  | .popping _ => 80 + 3 * responses
  | .publish _ => 85 + 3 * responses
  | .luaInit => 86 + 3 * responses
  | .readStop _ => 87 + 3 * responses
  | .controlReady => 88 + 3 * responses
  | .controlInit => 89 + 3 * responses
  | .inboxReady => 90 + 3 * responses
  | .inboxInit => 91 + 3 * responses
  | .loopReady => 92 + 3 * responses
  | .loopInit => 93 + 3 * responses
  | .unborn => 94 + 3 * responses

/-- What the thread has to do, with the letters it has to drain. -/
def State.threadLeft (state : State) : Nat :=
  state.shared.letters + state.thread.left state.shared state.vm.unanswered

def State.left (state : State) : Nat :=
  weight Call.left state.calls + state.threadLeft

/-! ## Which steps are taken -/

/-- Both handles of the runtime are closed. -/
def HandlesClosed (shared : Shared) : Prop :=
  shared.inboxAsyncReady = false ∧ shared.controlAsyncReady = false

/-- Nobody enters a call, user code returns when it has control, and `uv_run`
returns when the handles of the runtime are closed. -/
def Settling (state : State) : Action -> Prop
  | .call _ => False
  | .advance _ _ => True
  | .thread .exit => HandlesClosed state.shared
  | .thread .next => state.thread = .finishRun -> HandlesClosed state.shared
  | .thread (.fail _) | .thread .callback => False
  | .thread (.lua choice) => choice.returns = true
  | .thread .wakeInbox | .thread .wakeControl | .thread .inboxClosed | .thread .controlClosed
  | .thread (.visit _) => True

/-! ## The calls -/

section Calls

variable {shared next : Shared}

theorem popInbox_letters (valid : shared.box.WellFormed) :
    ((popInbox shared).2.isSome = true ->
      (popInbox shared).1.letters + 3 = shared.letters) ∧
    (popInbox shared).1.letters ≤ shared.letters := by
  unfold Shared.letters
  rcases (popInbox_spec valid).2.2 with ⟨letter, found, contents, _, _⟩ | ⟨none, before, after, _⟩
  · rw [contents, List.length_cons]
    exact ⟨fun _ => by omega, by omega⟩
  · rw [none, before, after]
    exact ⟨Bool.noConfusion, Nat.le_refl _⟩

theorem SendMove.left {letter : Letter} {pc after : SendPc}
    (moved : SendMove shared letter pc next after)
    (elsewhere : forall capacity, pc ≠ .allocate capacity) :
    next.letters + after.left < shared.letters + pc.left := by
  have entered {pc : SendPc} (entering : pc = .push ∨
      Exists fun capacity => Exists fun grown => pc = .relock capacity grown) : pc.left = 7 := by
    rcases entering with rfl | ⟨capacity, grown, rfl⟩ <;> rfl
  cases moved with
  | stored entering valid isOpen stays contents =>
      rename_i box notify _ _
      rw [entered entering]
      simp only [Shared.letters, contents, List.length_append, List.length_singleton]
      cases notify
      · show _ + 1 < _
        omega
      · show _ + 3 < _
        omega
  | shut entering =>
      rw [entered entering]
      exact Nat.add_lt_add_left (by decide : 2 < 7) _
  | full entering =>
      rw [entered entering]
      exact Nat.add_lt_add_left (by decide : 4 < 7) _
  | allocated | exhausted => exact absurd rfl (elsewhere _)
  | reported | unpinned => exact Nat.add_lt_add_left (by decide : 0 < 1) _
  | tooLate => exact Nat.add_lt_add_left (by decide : 1 < 2) _
  | _ => exact Nat.add_lt_add_left (by decide) _

theorem StopMove.left {pc after : StopPc} (moved : StopMove shared pc next after) :
    next.letters + after.left < shared.letters + pc.left := by
  cases moved with
  | close place =>
      rw [place]
      split
      · exact Nat.add_lt_add_left (by decide : 1 < 2) _
      · exact Nat.add_lt_add_left (by decide : 0 < 2) _
  | stop | stopNew => exact Nat.add_lt_add_left (by decide : 2 < 3) _
  | late => exact Nat.add_lt_add_left (by decide : 0 < 3) _
  | retire | signal => exact Nat.add_lt_add_left (by decide) _

theorem StartMove.left {pc after : StartPc} (moved : StartMove shared pc next after) :
    next.letters + after.left < shared.letters + pc.left := by
  cases moved with
  | done => exact Nat.add_lt_add_left (by decide : 0 < 3) _
  | failRetire => exact Nat.add_lt_add_left (by decide : 1 < 2) _
  | failClose => exact Nat.add_lt_add_left (by decide : 0 < 1) _
  | fail => exact Nat.add_lt_add_left (by decide : 2 < 4) _
  | start | already => exact Nat.add_lt_add_left (by decide) _

theorem FreeMove.left {pc after : FreePc} (moved : FreeMove shared pc next after)
    (valid : shared.box.WellFormed) : next.letters + after.left < shared.letters + pc.left := by
  cases moved with
  | dispose found =>
      have popped := (popInbox_letters valid).1 (by rw [found]; rfl)
      show (popInbox shared).1.letters + 1 < shared.letters + 1
      omega
  | done empty =>
      have popped := (popInbox_letters valid).2
      exact Nat.lt_succ_of_le popped
  | _ => exact Nat.add_lt_add_left (by decide) _

theorem JoinMove.left {fromThread : Bool} {pc after : JoinPc}
    (moved : JoinMove shared fromThread pc next after) (valid : shared.box.WellFormed) :
    next.letters + after.left < shared.letters + pc.left := by
  have early {hasThread : Bool} (arrives : Arrives shared hasThread pc) : 10 ≤ pc.left := by
    rcases arrives.2 with ⟨rfl, _⟩ | rfl
    · decide
    · exact Nat.le_refl 10
  cases moved with
  | past arrives | refuse arrives =>
      exact Nat.add_lt_add_left (Nat.lt_of_lt_of_le (by decide : 0 < 10) (early arrives)) _
  | claim arrives =>
      exact Nat.add_lt_add_left (Nat.lt_of_lt_of_le (by decide : 9 < 10) (early arrives)) _
  | free moved =>
      have less := moved.left valid
      show next.letters + (2 + _) < shared.letters + (2 + _)
      omega
  | deadlock => exact Nat.add_lt_add_left (by decide : 0 < 11) _
  | wait => exact Nat.add_lt_add_left (by decide : 10 < 11) _
  | reap => exact Nat.add_lt_add_left (by decide : 8 < 9) _
  | publish => exact Nat.add_lt_add_left (by decide : 7 < 8) _
  | freed => exact Nat.add_lt_add_left (by decide : 1 < 2) _
  | finish => exact Nat.add_lt_add_left (by decide : 0 < 1) _

/-- A step of a call leaves less to do, unless it gets memory for a push. -/
theorem CallMove.left {index : Nat} {call after : Call}
    (moved : CallMove shared index call next after) (valid : shared.box.WellFormed)
    (elsewhere : forall message capacity, call ≠ .send message (.allocate capacity)) :
    next.letters + after.left < shared.letters + call.left := by
  cases moved with
  | send moved =>
      refine moved.left fun capacity place => ?_
      rw [place] at elsewhere
      exact elsewhere _ capacity rfl
  | stop moved => exact moved.left
  | start moved => exact moved.left
  | join moved => exact moved.left valid
  | free moved => exact moved.left valid

end Calls

/-- What the environment decides: memory is refused, a thread is created. -/
def plainOutcome : Outcome := ⟨none, 0⟩

/-- A call stops only where it has returned or waits. -/
theorem callStep_enabled {shared : Shared} {index : Nat} {call : Call} (unfinished : call.left ≠ 0)
    (awake : call.waits shared = none)
    (reaped : forall fromThread, call = .join fromThread (.pthreadJoin true) ->
      shared.threadEnded = true) :
    (callStep shared index plainOutcome call).isSome = true := by
  have free (pc : FreePc) (unfinished : pc.left ≠ 0) (awake : pc.waits shared = none) :
      (freeStep shared pc).isSome = true := by
    cases pc with
    | wait =>
        simp only [FreePc.waits, waitPins] at awake
        split at awake <;> rename_i settled
        · simp only [freeStep, settled, if_true, Option.isSome_some]
        · cases awake
    | lock =>
        simp only [freeStep]
        split <;> rfl
    | dispose =>
        simp only [freeStep]
        split <;> rfl
    | returned => exact absurd rfl unfinished
    | _ => rfl
  cases call with
  | send message pc =>
      simp only [callStep, Option.isSome_map]
      cases pc with
      | pin =>
          simp only [sendStep]
          split <;> rfl
      | allocate capacity =>
          simp [sendStep, plainOutcome, Mailbox.allocateSpare]
      | returned => exact absurd rfl unfinished
      | _ => rfl
  | stop pc =>
      cases pc with
      | returned => exact absurd rfl unfinished
      | _ => rfl
  | start pc =>
      cases pc with
      | waiting =>
          simp only [Call.waits, StartPc.waits] at awake
          split at awake <;> rename_i done
          · simp only [callStep, startStep, done, if_true, Option.map_some, Option.isSome_some]
          · cases awake
      | returned => exact absurd rfl unfinished
      | _ => rfl
  | join fromThread pc =>
      cases pc with
      | enter =>
          simp only [callStep, joinStep, Option.isSome_map]
          split
          · rfl
          · split <;> rfl
      | waiting hasThread =>
          simp only [Call.waits, JoinPc.waits] at awake
          split at awake <;> rename_i joining
          · cases awake
          · simp only [callStep, joinStep, joining, if_false, Option.map_some, Option.isSome_some,
              Bool.false_eq_true]
      | pthreadJoin hasThread =>
          have gone : hasThread = false ∨ shared.threadEnded = true := by
            cases hasThread with
            | false => exact Or.inl rfl
            | true => exact Or.inr (reaped fromThread rfl)
          simp only [callStep, joinStep, if_pos gone, Option.map_some, Option.isSome_some]
      | free pc =>
          by_cases returned : pc.left = 0
          · cases pc <;> first | rfl | cases returned
          · have moves := free pc returned awake
            cases pc with
            | returned => exact absurd rfl returned
            | _ => simpa only [callStep, joinStep, Option.isSome_map] using moves
      | returned => exact absurd rfl unfinished
      | publish | finish => rfl
  | free pc =>
      simpa only [callStep, Option.isSome_map] using free pc unfinished awake

/-- Any call that does not wait can go on. -/
theorem call_progress {self : ServiceId} {state : State} (reachable : (machine self).Reachable state)
    {index : Nat} {call : Call} (present : state.calls[index]? = some call)
    (unfinished : call.left ≠ 0) (awake : call.waits state.shared = none)
    (reaped : forall fromThread, call = .join fromThread (.pthreadJoin true) ->
      state.shared.threadEnded = true) :
    Exists fun next => (machine self).step state (.advance index plainOutcome) = some next ∧
      next.left < state.left := by
  have inbox := reachable_inbox reachable
  have enabled : (callStep state.shared index plainOutcome call).isSome = true :=
    callStep_enabled unfinished awake reaped
  rcases Option.isSome_iff_exists.mp enabled with ⟨⟨shared, after⟩, taken⟩
  refine ⟨{ state with shared, calls := state.calls.set index after }, ?_, ?_⟩
  · show advance state index plainOutcome = _
    simp only [advance, present, taken, Option.map_some]
  · have moved := callStep_move inbox.valid (inbox.spares index call present) taken
    have life := reachable_lifecycle reachable
    have handles := (moved.waits (life.calls index call present)).handles
    have exchange := weight_set Call.left present after
    have same (pc : ThreadPc) : pc.left shared state.vm.unanswered =
        pc.left state.shared state.vm.unanswered := by
      cases pc <;> simp only [ThreadPc.left, handles.inboxReady, handles.controlReady,
        handles.controlClosing]
    have less : shared.letters + after.left < state.shared.letters + call.left := by
      by_cases allocates : Exists fun message => Exists fun capacity =>
          call = .send message (.allocate capacity)
      · rcases allocates with ⟨message, capacity, rfl⟩
        simp [callStep, sendStep, plainOutcome, Mailbox.allocateSpare] at taken
        rcases taken with ⟨rfl, rfl⟩
        exact Nat.add_lt_add_left (by decide : 1 < 4) _
      · exact moved.left inbox.valid fun message capacity place =>
          allocates ⟨message, capacity, place⟩
    have thread := same state.thread
    simp only [State.left, State.threadLeft]
    omega

/-! ## The thread -/

/-- The thread can take a step that leaves it less to do. -/
def Goes (self : ServiceId) (state : State) : Prop :=
  Exists fun choice => Exists fun next => Settling state (.thread choice) ∧
    threadStep self state choice = some next ∧ next.threadLeft < state.threadLeft

section Going

variable {self : ServiceId} {state : State} {place : ThreadPc}

/-- The thread goes on to another point, and the letters stay. -/
theorem goes_next (shared : Shared) (after : ThreadPc) (funcRef : Bool) {near far : Nat}
    (located : state.thread = place) (elsewhere : place ≠ .finishRun)
    (taken : threadStep self state .next = some { state with shared, thread := after, funcRef })
    (letters : shared.letters ≤ state.shared.letters)
    (there : after.left shared state.vm.unanswered = near + 3 * state.vm.unanswered)
    (here : place.left state.shared state.vm.unanswered = far + 3 * state.vm.unanswered)
    (less : near < far) : Goes self state := by
  refine ⟨.next, _, ?_, taken, ?_⟩
  · intro finish
    exact absurd (located.symm.trans finish) elsewhere
  · simp only [State.threadLeft, located]
    omega

theorem looping_left (shared : Shared) (responses : Nat) :
    ThreadPc.looping.left shared responses ≤ 40 + 3 * responses := by
  have inbox := Bool.toNat_le shared.inboxAsyncReady
  have control := Bool.toNat_le shared.controlAsyncReady
  simp only [ThreadPc.left]
  split <;> omega

/-- The thread goes back to the loop. -/
theorem goes_looping (shared : Shared) {far : Nat} (located : state.thread = place)
    (elsewhere : place ≠ .finishRun)
    (taken : threadStep self state .next = some { state with shared, thread := .looping })
    (letters : shared.letters ≤ state.shared.letters)
    (here : place.left state.shared state.vm.unanswered = far + 3 * state.vm.unanswered)
    (beyond : 40 < far) : Goes self state := by
  have loop := looping_left shared state.vm.unanswered
  refine ⟨.next, _, ?_, taken, ?_⟩
  · intro finish
    exact absurd (located.symm.trans finish) elsewhere
  · simp only [State.threadLeft, located]
    omega

/-- `service_prepare_shutdown` comes closer to its end once the pins are gone. -/
theorem shutdownStep_left (self : ServiceId) {shared : Shared} (valid : shared.box.WellFormed)
    (pins : shared.sendPins = 0) (pc : ShutdownPc) :
    Exists fun next => Exists fun after => shutdownStep self shared pc = some (next, after) ∧
      next.letters + after.elim 0 ShutdownPc.left < shared.letters + pc.left := by
  cases pc with
  | retire => exact ⟨_, _, rfl, Nat.add_lt_add_left (by decide : 4 < 5) _⟩
  | close => exact ⟨_, _, rfl, Nat.add_lt_add_left (by decide : 3 < 4) _⟩
  | waitPins => exact ⟨shared, some .drain, if_pos pins, Nat.add_lt_add_left (by decide : 1 < 3) _⟩
  | drain =>
      have popped := popInbox_letters valid
      refine ⟨_, _, rfl, ?_⟩
      cases found : (popInbox shared).2 with
      | none =>
          show (popInbox shared).1.letters + 0 < shared.letters + 1
          omega
      | some letter =>
          have fewer := popped.1 (by rw [found]; rfl)
          show (popInbox shared).1.letters + 2 < shared.letters + 1
          omega
  | drained letter =>
      by_cases awaited : letter.message.Awaited
      · exact ⟨_, _, if_pos awaited, Nat.add_lt_add_left (by decide : 1 < 2) _⟩
      · exact ⟨_, _, if_neg awaited, Nat.add_lt_add_left (by decide : 1 < 2) _⟩

theorem goes_shutdown {caller : Caller} {pc : ShutdownPc} (valid : state.shared.box.WellFormed)
    (located : state.thread = .shutdown caller pc) (pins : state.shared.sendPins = 0) :
    Goes self state := by
  rcases shutdownStep_left self valid pins pc with ⟨shared, after, taken, less⟩
  refine ⟨.next, { state with
      shared
      thread := match after with
        | some pc => .shutdown caller pc
        | none => caller.afterShutdown }, ?_, ?_, ?_⟩
  · intro finish
    cases located.symm.trans finish
  · simp only [threadStep, located, taken, Option.map_some]
    cases after <;> rfl
  · simp only [State.threadLeft, located]
    cases after <;> cases caller <;>
      simp only [Caller.afterShutdown, ThreadPc.left, Option.elim] at less ⊢ <;> omega

/-- A call of `service_stop` by the thread itself. -/
theorem stopStep_left (shared : Shared) {pc : StopPc} (unfinished : pc ≠ .returned) :
    Exists fun next => Exists fun after => stopStep shared pc = some (next, after) ∧
      next.letters + after.left < shared.letters + pc.left := by
  have taken : (stopStep shared pc).isSome = true := by
    cases pc with
    | returned => exact absurd rfl unfinished
    | _ => rfl
  rcases Option.isSome_iff_exists.mp taken with ⟨⟨next, after⟩, taken⟩
  exact ⟨next, after, taken, (stopStep_move taken).left⟩

theorem goes_quitting {after : Lua.AfterQuit} {pc : StopPc}
    (located : state.thread = .quitting after pc) : Goes self state := by
  by_cases returned : pc = .returned
  · subst returned
    refine goes_next state.shared (.lua after.pc) state.funcRef located nofun ?_ (Nat.le_refl _)
      (after.pc_left _) rfl (by show 40 + after.steps < 41 + after.steps + 0; omega)
    simp only [threadStep, located, Lua.step, Option.map_some]
  · rcases stopStep_left state.shared returned with ⟨shared, later, taken, less⟩
    refine ⟨.next, { state with shared, thread := .quitting after later }, ?_, ?_, ?_⟩
    · intro finish
      cases located.symm.trans finish
    · cases pc <;> first
        | exact absurd rfl returned
        | simp only [threadStep, located, taken, Option.map_some]
    · simp only [State.threadLeft, located, ThreadPc.left]
      omega

theorem goes_failStop {pc : StopPc} (located : state.thread = .failStop pc) : Goes self state := by
  by_cases returned : pc = .returned
  · subst returned
    exact goes_looping state.shared located nofun (by simp only [threadStep, located])
      (Nat.le_refl _) rfl (by decide : 40 < 42)
  · rcases stopStep_left state.shared returned with ⟨shared, later, taken, less⟩
    refine ⟨.next, { state with shared, thread := .failStop later }, ?_, ?_, ?_⟩
    · intro finish
      cases located.symm.trans finish
    · cases pc <;> first
        | exact absurd rfl returned
        | simp only [threadStep, located, taken, Option.map_some]
    · simp only [State.threadLeft, located, ThreadPc.left]
      omega

/-- The Lua code comes back to C. -/
theorem goes_lua {pc : Lua.Pc} (located : state.thread = .lua pc)
    (stopping : 3 ≤ state.shared.state.rank) : Goes self state := by
  have leaves (inside : pc.leaves = false) : Goes self state := by
    rcases Lua.step_returns self state.vm pc inside with ⟨choice, ⟨vm, after⟩, returns, taken, closer⟩
    refine ⟨.lua choice, { state with
        vm
        thread := .lua after
        shared := { state.shared with
          replies := state.shared.replies ++ (replyOf pc).toList } }, returns, ?_, ?_⟩
    · cases pc with
      | receiving | quitting | finished | raised | callbackDone | stopDone => cases inside
      | _ => simp only [threadStep, located, luaStep, taken, Option.map_some]
    · simp only [State.threadLeft, located, ThreadPc.left]
      exact Nat.add_lt_add_left closer _
  cases pc with
  | receiving processed =>
      have inactive : state.shared.state ≠ .running := Phase.ne_running stopping
      refine goes_next state.shared (.lua (.roundEnd processed)) state.funcRef located
        ThreadPc.noConfusion ?_
        (Nat.le_refl _) rfl rfl (by decide : 53 < 54)
      simp only [threadStep, located, leaveLua, if_neg inactive]
  | quitting after =>
      refine goes_next state.shared (.quitting after .retire) state.funcRef located ThreadPc.noConfusion
        (by simp only [threadStep, located, leaveLua]) (Nat.le_refl _) rfl rfl ?_
      show 41 + after.steps + 4 < 47 + after.steps
      omega
  | finished batchFull =>
      exact goes_next state.shared (.overload false batchFull) state.funcRef located
        ThreadPc.noConfusion
        (by simp only [threadStep, located, leaveLua]) (Nat.le_refl _) rfl rfl (by decide : 50 < 51)
  | raised =>
      exact goes_next state.shared (.overload true false) state.funcRef located ThreadPc.noConfusion
        (by simp only [threadStep, located, leaveLua]) (Nat.le_refl _) rfl rfl (by decide : 50 < 51)
  | callbackDone =>
      exact goes_looping state.shared located ThreadPc.noConfusion
        (by simp only [threadStep, located, leaveLua])
        (Nat.le_refl _) rfl (by decide : 40 < 41)
  | stopDone =>
      refine ⟨.next, { state with
          thread := if state.shared.loopReady then .closeHandles .finish else .luaClose },
        ?_, by simp only [threadStep, located, leaveLua], ?_⟩
      · intro finish
        cases located.symm.trans finish
      · simp only [State.threadLeft, located]
        apply Nat.add_lt_add_left
        split
        · exact (by decide : 6 < 7)
        · exact (by decide : 2 < 7)
  | head | got | removing | unpackRequest | unpackReply | unpackSystem | user | sending | roundEnd
  | replyPending => exact leaves rfl

theorem goes_popping {processed : Nat} (valid : state.shared.box.WellFormed)
    (located : state.thread = .popping processed) : Goes self state := by
  have popped := (popInbox_letters valid).2
  have elsewhere : state.thread = .finishRun -> HandlesClosed state.shared := by
    intro finish
    cases located.symm.trans finish
  cases found : (popInbox state.shared).2 with
  | none =>
      refine ⟨.next, { state with
          thread := .lua (.roundEnd processed)
          shared := (popInbox state.shared).1 }, elsewhere, ?_, ?_⟩
      · simp only [threadStep, located, found, Lua.step, Option.map_some, Shared.notePopped]
      · simp only [State.threadLeft, located, ThreadPc.left, Lua.Pc.left]
        omega
  | some letter =>
      refine ⟨.next, { state with
          thread := .lua (.got (processed + 1) letter)
          shared := (popInbox state.shared).1.notePopped (some letter) }, elsewhere, ?_, ?_⟩
      · simp only [threadStep, located, found, Lua.step, Option.map_some]
      · simp only [State.threadLeft, located, ThreadPc.left, Lua.Pc.left]
        show (popInbox state.shared).1.letters + _ < _
        omega

theorem goes_finishBatch (valid : state.shared.box.WellFormed)
    (located : state.thread = .finishBatch) : Goes self state := by
  have letters (notices : Nat) : ({ state.shared with
      box := state.shared.box.finishBatch.1
      notices } : Shared).letters ≤ state.shared.letters := by
    simp only [Shared.letters, finishBatch_contents valid, Nat.le_refl]
  cases more : state.shared.box.finishBatch.2 with
  | true =>
      exact goes_next { state.shared with box := state.shared.box.finishBatch.1 } .resend
        state.funcRef located nofun (by simp only [threadStep, located, more, if_true]) (letters _)
        rfl rfl (by decide : 41 < 42)
  | false =>
      exact goes_looping { state.shared with box := state.shared.box.finishBatch.1, notices := 0 }
        located nofun (by simp only [threadStep, located, more, Bool.false_eq_true, if_false])
        (letters _) rfl (by decide : 40 < 42)

theorem goes_overload {failed batchFull : Bool} (located : state.thread = .overload failed batchFull) :
    Goes self state := by
  let shared : Shared := { state.shared with box := state.shared.box.takeOverload.1 }
  have letters : shared.letters ≤ state.shared.letters := Nat.le_refl _
  cases failed with
  | true =>
      exact goes_next shared (.failStop .retire) state.funcRef located ThreadPc.noConfusion
        (by simp only [threadStep, located, if_true, shared]) letters rfl rfl (by decide : 46 < 50)
  | false =>
      cases batchFull with
      | true =>
          exact goes_next shared .finishBatch state.funcRef located ThreadPc.noConfusion
            (by simp only [threadStep, located, if_true, Bool.false_eq_true, if_false, shared]) letters
            rfl rfl (by decide : 42 < 50)
      | false =>
          exact goes_looping shared located ThreadPc.noConfusion
            (by simp only [threadStep, located, Bool.false_eq_true, if_false, shared]) letters rfl
            (by decide : 40 < 50)

theorem inboxHandleClosed_of_falling {shared : Shared} (falls : Falling shared)
    (ready : shared.inboxAsyncReady = true) :
    inboxHandleClosed shared = some { shared with inboxAsyncReady := false } :=
  if_pos ⟨falls.1 ready, ready⟩

theorem controlHandleClosed_of_falling {shared : Shared} (falls : Falling shared)
    (ready : shared.controlAsyncReady = true) :
    controlHandleClosed shared = some { shared with controlAsyncReady := false } :=
  if_pos ⟨falls.2 ready, ready⟩

/-- `uv_run` closes what is still open. -/
theorem goes_falling (located : state.thread = .finishRun ∨
      (state.thread = .looping ∧ state.shared.controlClosing = true))
    (falls : Falling state.shared) (unclosed : ¬ HandlesClosed state.shared) : Goes self state := by
  cases inbox : state.shared.inboxAsyncReady with
  | true =>
      have closes := inboxHandleClosed_of_falling falls inbox
      refine ⟨.inboxClosed, { state with shared := { state.shared with inboxAsyncReady := false } },
        trivial, ?_, ?_⟩
      · rcases located with located | ⟨located, _⟩ <;>
          simp only [threadStep, located, closes, Option.map_some]
      · apply Nat.add_lt_add_left
        rcases located with located | ⟨located, closing⟩
        · simp only [located, ThreadPc.left, inbox, Bool.toNat_true, Bool.toNat_false]
          omega
        · simp only [located, ThreadPc.left, closing, if_true, inbox, Bool.toNat_true,
            Bool.toNat_false]
          omega
  | false =>
      cases control : state.shared.controlAsyncReady with
      | true =>
          have closes := controlHandleClosed_of_falling falls control
          refine ⟨.controlClosed,
            { state with shared := { state.shared with controlAsyncReady := false } }, trivial, ?_, ?_⟩
          · rcases located with located | ⟨located, _⟩ <;>
              simp only [threadStep, located, closes, Option.map_some]
          · apply Nat.add_lt_add_left
            rcases located with located | ⟨located, closing⟩
            · simp only [located, ThreadPc.left, control, Bool.toNat_true, Bool.toNat_false]
              omega
            · simp only [located, ThreadPc.left, closing, if_true, control, Bool.toNat_true,
                Bool.toNat_false]
              omega
      | false => exact absurd ⟨inbox, control⟩ unclosed

theorem goes_finishRun (located : state.thread = .finishRun) (falls : Falling state.shared) :
    Goes self state := by
  by_cases closed : HandlesClosed state.shared
  · refine ⟨.next, { state with thread := .luaClose }, fun _ => closed, ?_, ?_⟩
    · rw [HandlesClosed] at closed
      simp only [threadStep, located, if_pos closed]
    · apply Nat.add_lt_add_left
      simp only [located, ThreadPc.left]
      omega
  · exact goes_falling (Or.inl located) falls closed

/-- In the loop a stop that has been asked for is on its way: its signal is
pending, or the handles are closing. -/
theorem goes_loop (located : state.thread = .looping)
    (control : ControlAt state.shared .loop 0) (asked : state.shared.stopRequested = true)
    (falls : state.shared.controlClosing = true -> Falling state.shared) : Goes self state := by
  cases closing : state.shared.controlClosing with
  | true =>
      by_cases closed : HandlesClosed state.shared
      · refine ⟨.exit, { state with thread := .finishLock }, closed, ?_, ?_⟩
        · simp only [threadStep, located]
        · apply Nat.add_lt_add_left
          simp only [located, ThreadPc.left, closing, if_true]
          omega
      · exact goes_falling (Or.inr ⟨located, closing⟩) (falls closing) closed
  | false =>
      have pending : state.shared.controlPending = true := by
        have token := control.kept rfl asked
        simp only [tokens, closing, Bool.false_and, Bool.toNat_false, reduceCtorEq, decide_false,
          Nat.add_zero, Nat.zero_add] at token
        cases pending : state.shared.controlPending with
        | true => rfl
        | false =>
            rw [pending] at token
            exact absurd token (by decide)
      refine ⟨.wakeControl, { state with
          thread := .controlRead
          shared := { state.shared with controlPending := false } }, trivial, ?_, ?_⟩
      · simp only [threadStep, located, pending, closing, and_self, if_true]
      · apply Nat.add_lt_add_left
        simp only [located, ThreadPc.left, closing, Bool.false_eq_true, if_false]
        omega

/-- A start that has not been published is given up. -/
theorem goes_early (fits : state.thread.stage.Fits state.shared)
    (stopping : 3 ≤ state.shared.state.rank) (early : state.thread.part.early = true)
    (born : state.thread = .unborn -> state.shared.threadCreated = true) : Goes self state := by
  have requested (starting : state.thread.stage = .starting) : state.shared.stopRequested = true := by
    rw [starting] at fits
    rcases fits.2.2 with running | told
    · rw [running.1] at stopping
      exact absurd stopping (by decide)
    · exact told.2
  cases located : state.thread with
  | unborn =>
      exact goes_next state.shared .loopInit state.funcRef located ThreadPc.noConfusion
        (by simp only [threadStep, located, born located, if_true]) (Nat.le_refl _) rfl rfl
        (by decide : 93 < 94)
  | loopInit =>
      exact goes_next state.shared .loopReady state.funcRef located ThreadPc.noConfusion
        (by simp only [threadStep, located]) (Nat.le_refl _) rfl rfl (by decide : 92 < 93)
  | loopReady =>
      exact goes_next { state.shared with loopReady := true } .inboxInit state.funcRef located
        ThreadPc.noConfusion
        (by simp only [threadStep, located]) (Nat.le_refl _) rfl rfl (by decide : 91 < 92)
  | inboxInit =>
      exact goes_next state.shared .inboxReady state.funcRef located ThreadPc.noConfusion
        (by simp only [threadStep, located]) (Nat.le_refl _) rfl rfl (by decide : 90 < 91)
  | inboxReady =>
      exact goes_next { state.shared with inboxAsyncReady := true } .controlInit state.funcRef located
        ThreadPc.noConfusion (by simp only [threadStep, located]) (Nat.le_refl _) rfl rfl (by decide : 89 < 90)
  | controlInit =>
      exact goes_next state.shared .controlReady state.funcRef located ThreadPc.noConfusion
        (by simp only [threadStep, located]) (Nat.le_refl _) rfl rfl (by decide : 88 < 89)
  | controlReady =>
      exact goes_next { state.shared with controlAsyncReady := true } (.readStop 0) state.funcRef
        located ThreadPc.noConfusion (by simp only [threadStep, located]) (Nat.le_refl _) rfl rfl
        (by decide : 87 < 88)
  | readStop error =>
      have told := requested (by rw [located]; rfl)
      exact goes_next state.shared (.publish error) state.funcRef located ThreadPc.noConfusion
        (by simp only [threadStep, located, told, Bool.true_eq_false, and_false, if_false])
        (Nat.le_refl _) rfl rfl (by decide : 85 < 87)
  | luaInit =>
      exact goes_next state.shared (.publish 0) true located ThreadPc.noConfusion
        (by simp only [threadStep, located]) (Nat.le_refl _) rfl rfl (by decide : 85 < 86)
  | publish error =>
      have told := requested (by rw [located]; rfl)
      exact goes_next { state.shared with
          state := .stopping
          startError := if error = 0 then ECANCELED else error
          startDone := true } .finishLock state.funcRef located ThreadPc.noConfusion
        (by simp only [threadStep, located, publishStart, told, Bool.true_eq_false, and_false,
          if_false])
        (Nat.le_refl _) rfl rfl (by decide : 16 < 85)
  | lua pc =>
      rw [located] at early
      simp only [ThreadPc.part] at early
      split at early <;> cases early
  | shutdown caller pc =>
      rw [located] at early
      cases caller <;> cases early
  | closeHandles caller =>
      rw [located] at early
      cases caller <;> cases early
  | _ =>
      rw [located] at early
      cases early

theorem goes_closeHandles {caller : Caller} (located : state.thread = .closeHandles caller)
    (armed : caller = .control ->
      state.shared.controlAsyncReady = true ∨ state.shared.controlClosing = true) :
    Goes self state := by
  have inbox := Bool.toNat_le state.shared.inboxAsyncReady
  have control := Bool.toNat_le state.shared.controlAsyncReady
  refine ⟨.next, { state with
      shared := closeRuntimeHandles state.shared
      thread := caller.afterClose }, ?_, ?_, ?_⟩
  · intro finish
    cases located.symm.trans finish
  · simp only [threadStep, located]
  · apply Nat.add_lt_add_left
    cases caller with
    | finish =>
        simp only [located, Caller.afterClose, ThreadPc.left, closeRuntimeHandles]
        omega
    | control =>
        have closing : (closeRuntimeHandles state.shared).controlClosing = true := by
          rcases armed rfl with ready | closing
          · simp only [closeRuntimeHandles, ready, Bool.or_true]
          · simp only [closeRuntimeHandles, closing, Bool.true_or]
        simp only [located, Caller.afterClose, ThreadPc.left, closing, if_true]
        simp only [closeRuntimeHandles]
        omega

/-- The final call visits the requests that are not answered. -/
theorem goes_notifyStop (located : state.thread = .notifyStop) : Goes self state := by
  cases handler : state.funcRef with
  | true =>
      have visits : state.vm.response.keys.isPerm state.vm.response.keys = true :=
        List.isPerm_iff.mpr (.refl _)
      refine ⟨.visit state.vm.response.keys,
        { state with thread := .lua (.replyPending state.vm.response.keys) }, trivial, ?_, ?_⟩
      · simp only [threadStep, located, handler, visits, if_true]
      · apply Nat.add_lt_add_left
        simp only [located, ThreadPc.left, Lua.Pc.left, Lua.Vm.unanswered]
        omega
  | false =>
      refine ⟨.visit [], { state with
          thread := if state.shared.loopReady then .closeHandles .finish else .luaClose },
        trivial, ?_, ?_⟩
      · simp only [threadStep, located, handler, Bool.false_eq_true, if_false]
      · apply Nat.add_lt_add_left
        simp only [located]
        split <;> simp only [ThreadPc.left] <;> omega

end Going

/-- There is nothing left for the thread, or there is no thread. -/
def ThreadDone (state : State) : Prop :=
  state.thread = .ended ∨ (state.thread = .unborn ∧ state.shared.threadCreated = false)

/-- While nobody holds a pin or a signal, the thread can always go on. -/
theorem thread_progress {self : ServiceId} {state : State}
    (reachable : (machine self).Reachable state) (stopping : 3 ≤ state.shared.state.rank)
    (pins : state.shared.sendPins = 0) (signals : weight (Call.stopsAt StopPc.signals) state.calls = 0)
    (alive : ¬ ThreadDone state) : Goes self state := by
  have inbox := reachable_inbox reachable
  have life := reachable_lifecycle reachable
  have control := reachable_control reachable
  have invariant := reachable_waitInvariant reachable
  have born (unborn : state.thread = .unborn) : state.shared.threadCreated = true := by
    cases created : state.shared.threadCreated with
    | true => rfl
    | false => exact absurd (Or.inr ⟨unborn, created⟩) alive
  have asked (inside : state.thread.part.inLoop = true) := invariant.asked inside stopping
  by_cases early : state.thread.part.early = true
  · exact goes_early life.stage stopping early born
  · cases located : state.thread with
    | looping =>
        have tokens : state.stops StopPc.signals = 0 := by
          simp only [State.stops, signals, located, ThreadPc.stopsAt]
        rw [Control, located, tokens] at control
        exact goes_loop located control (asked (by rw [located]; rfl))
          fun closing => invariant.falling (Or.inl closing)
    | startupSend | resend =>
        exact goes_looping { state.shared with inboxPending := true } located ThreadPc.noConfusion
          (by simp only [threadStep, located]) (Nat.le_refl _) rfl (by decide : 40 < 41)
    | asyncCheck =>
        have inactive : ¬ (state.shared.state = .running ∧ state.funcRef = true) := by
          intro running
          exact Phase.ne_running stopping running.1
        exact goes_looping state.shared located ThreadPc.noConfusion
          (by simp only [threadStep, located, if_neg inactive]) (Nat.le_refl _) rfl
          (by decide : 40 < 41)
    | lua pc => exact goes_lua located stopping
    | popping processed => exact goes_popping inbox.valid located
    | quitting after pc => exact goes_quitting located
    | overload failed batchFull => exact goes_overload located
    | failStop pc => exact goes_failStop located
    | finishBatch => exact goes_finishBatch inbox.valid located
    | controlRead =>
        have told := asked (by rw [located]; rfl)
        exact goes_next state.shared (.shutdown .control .retire) state.funcRef located
          ThreadPc.noConfusion
          (by simp only [threadStep, located, told, if_true]) (Nat.le_refl _) rfl rfl
          (by decide : 30 < 31)
    | shutdown caller pc => exact goes_shutdown inbox.valid located pins
    | closeHandles caller =>
        apply goes_closeHandles located
        rintro rfl
        apply control.armed
        rw [located]
        exact Or.inr rfl
    | finishLock =>
        exact goes_next { state.shared with
            state := if state.shared.state.rank < Phase.stopping.rank then .stopping
              else state.shared.state } (.shutdown .finish .retire) state.funcRef
          located ThreadPc.noConfusion
          (by simp only [threadStep, located]) (Nat.le_refl _) rfl rfl (by decide : 15 < 16)
    | notifyStop => exact goes_notifyStop located
    | finishRun => exact goes_finishRun located (invariant.falling (Or.inr located))
    | luaClose =>
        refine ⟨.next, { state with thread := .finishPublish, funcRef := false }, ?_, ?_, ?_⟩
        · intro finish
          cases located.symm.trans finish
        · simp only [threadStep, located]
        · apply Nat.add_lt_add_left
          simp only [located, ThreadPc.left]
          omega
    | finishPublish =>
        refine ⟨.next, { state with thread := .ended, shared := publishStopped state.shared }, ?_, ?_, ?_⟩
        · intro finish
          cases located.symm.trans finish
        · simp only [threadStep, located]
        · apply Nat.add_lt_add_left
          simp only [located, ThreadPc.left]
          omega
    | ended => exact absurd (Or.inl located) alive
    | readStop error | publish error =>
        rw [located] at early
        simp only [ThreadPc.part] at early
        split at early <;> exact absurd rfl early
    | unborn | loopInit | loopReady | inboxInit | inboxReady | controlInit | controlReady
    | luaInit =>
        rw [located] at early
        exact absurd rfl early


end Service
end ServiceRuntime
