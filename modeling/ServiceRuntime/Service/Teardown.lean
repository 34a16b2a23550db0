import ServiceRuntime.Foundation.EventLoop
import ServiceRuntime.Service.Thread

namespace ServiceRuntime
namespace Service
namespace Teardown

open Foundation

/-!
# The loop of one service and its handles

`service_init_loop` puts two native handles on the loop; everything else there
belongs to luv.  Lua code creates and closes luv handles whenever it runs: in
the source, in callbacks, in close callbacks, in the final call.  The shutdown
closes the native handles first, because `uv.walk` must not see them, then the
handles of luv, and disposes of the loop when nothing is left on it.

`Service.Thread` keeps the native handles only, as flags.  Here is the loop
they are on.
-/

/-- Where the service thread is with respect to its loop. -/
inductive Pc where
  | loopInit
  | inboxInit
  | controlInit
  | readStop (failed : Bool)
  | luaInit
  | running
  | finish
  | closeAll
  | draining
  | loopClose
  | luaClose
  | ended
  deriving DecidableEq, Repr

/-- `service_t` as far as its loop is concerned.  The handles are known by
their position on it.  `disturbed` is ghost: since the handles were last
closed, Lua code has created one or has called `uv.stop`, or luv has refused
to close one. -/
structure State where
  loop : EventLoop
  inbox : Option Nat
  control : Option Nat
  loopReady : Bool
  inboxReady : Bool
  controlReady : Bool
  hasLua : Bool
  pc : Pc
  disturbed : Bool
  deriving DecidableEq, Repr

/-- What Lua code does to the loop. -/
inductive LuaCall where
  | create (active : Bool)
  | setActive (index : Nat) (active : Bool)
  | close (index : Nat)
  | request
  | stop
  deriving DecidableEq, Repr

/-- What the environment decides: whether an initialisation fails, what the
loop runs next, what Lua code does, which handles luv refuses to close. -/
inductive Choice where
  | next
  | fail
  | stopRequested
  | lua (call : LuaCall)
  | closed (index : Nat) (failing : List Nat)
  | requestDone
  | controlCallback
  | closeAll (failing : List Nat)
  | returns
  deriving DecidableEq, Repr

def State.start : State where
  loop := .fresh
  inbox := none
  control := none
  loopReady := false
  inboxReady := false
  controlReady := false
  hasLua := false
  pc := .loopInit
  disturbed := false

/-! ## Parts of the source -/

/-- luv hands out its own handles only, and raises for one that is closing. -/
def luaCall (state : State) : LuaCall -> State
  | .create active => { state with loop := state.loop.init false active, disturbed := true }
  | .setActive index active =>
      if (state.loop.handles[index]?).any fun handle => !handle.native then
        { state with loop := state.loop.setActive index active }
      else state
  | .close index =>
      if (state.loop.handles[index]?).any fun handle => !handle.native && handle.status.isOpen then
        { state with loop := state.loop.close index }
      else state
  | .request => { state with loop := { state.loop with requests := state.loop.requests + 1 } }
  | .stop => { state with loop := { state.loop with stopFlag := true }, disturbed := true }

/-- `service_close_luv_handles`; there is nothing to do without a Lua state. -/
def closeLuvHandles (state : State) (failing : List Nat) : State :=
  if state.hasLua then
    { state with
      loop := state.loop.walk failing
      disturbed := state.disturbed || decide (failing ≠ []) }
  else state

/-- `service_runtime_handles_closed`. -/
def runtimeHandlesClosed (state : State) : Bool := !state.inboxReady && !state.controlReady

/-- The section of `service_runtime_handle_closed`. -/
def clearReady (state : State) (index : Nat) : State :=
  if state.inbox = some index then { state with inboxReady := false }
  else if state.control = some index then { state with controlReady := false }
  else state

/-- `service_runtime_handle_closed`, the callback of `uv_close`. -/
def runtimeHandleClosed (state : State) (index : Nat) (failing : List Nat) : State :=
  if runtimeHandlesClosed (clearReady state index) then
    closeLuvHandles (clearReady state index) failing
  else clearReady state index

/-- One of the two halves of `service_close_runtime_handles`. -/
def closeRuntimeHandle (loop : EventLoop) (ready : Bool) (handle : Option Nat) : EventLoop :=
  match handle with
  | some index => if ready && loop.isOpen index then loop.close index else loop
  | none => loop

/-- `service_close_runtime_handles`. -/
def closeRuntimeHandles (state : State) : State :=
  { state with
    loop := closeRuntimeHandle (closeRuntimeHandle state.loop state.inboxReady state.inbox)
      state.controlReady state.control }

/-- What `uv_run` does before it returns: callbacks run Lua code, requests
come back, handles are closed.  The control callback only runs while its
handle is open. -/
def loopStep (state : State) : Choice -> Option State
  | .lua call => if state.hasLua then some (luaCall state call) else none
  | .requestDone =>
      if 0 < state.loop.requests then
        some { state with loop := { state.loop with requests := state.loop.requests - 1 } }
      else none
  | .closed index failing =>
      (state.loop.finishClose index).map fun loop =>
        if (state.loop.handles[index]?).any Handle.native then
          runtimeHandleClosed { state with loop } index failing
        else { state with loop }
  | .controlCallback =>
      if state.control.any state.loop.isOpen then some (closeRuntimeHandles state) else none
  | _ => none

/-- `uv_run` returns, and lowers the flag of `uv_stop`. -/
def uvReturn (state : State) (after : Pc) : Option State :=
  if state.loop.Returns then
    some { state with loop := { state.loop with stopFlag := false }, pc := after }
  else none

/-! ## The machine -/

def step (state : State) (choice : Choice) : Option State :=
  match state.pc, choice with
  | .loopInit, .next => some { state with loopReady := true, pc := .inboxInit }
  | .loopInit, .fail => some { state with pc := .readStop true }
  | .inboxInit, .next =>
      some { state with
        loop := state.loop.init true true
        inbox := some state.loop.handles.length
        inboxReady := true
        pc := .controlInit }
  | .inboxInit, .fail | .controlInit, .fail => some { state with pc := .readStop true }
  | .controlInit, .next =>
      some { state with
        loop := state.loop.init true true
        control := some state.loop.handles.length
        controlReady := true
        pc := .readStop false }
  | .readStop false, .next => some { state with hasLua := true, pc := .luaInit }
  | .readStop _, .stopRequested | .readStop _, .fail => some { state with pc := .finish }
  | .luaInit, .lua call => if state.hasLua then some (luaCall state call) else none
  | .luaInit, .next => some { state with pc := .running }
  | .luaInit, .fail | .luaInit, .stopRequested => some { state with pc := .finish }
  | .running, .returns => uvReturn state .finish
  | .running, choice => loopStep state choice
  | .finish, .lua call => if state.hasLua then some (luaCall state call) else none
  | .finish, .next => some { state with pc := if state.loopReady then .closeAll else .luaClose }
  | .closeAll, .closeAll failing =>
      let closing := closeRuntimeHandles { state with disturbed := state.loop.stopFlag, pc := .draining }
      some (if runtimeHandlesClosed closing then closeLuvHandles closing failing else closing)
  | .draining, .returns => uvReturn state .loopClose
  | .draining, choice => loopStep state choice
  | .loopClose, .next =>
      -- `uv_loop_close` reports `UV_EBUSY` while anything is left on the loop.
      some { state with pc := if state.loop.Closable then .luaClose else .closeAll }
  | .luaClose, .next =>
      some { state with
        hasLua := false
        loopReady := false
        inboxReady := false
        controlReady := false
        pc := .ended }
  | _, _ => none

def machine : Machine State Choice where
  initial state := state = .start
  step := step

/-! ## What holds all along -/

/-- A native handle is one of the two, and its flag says whether it is closed. -/
def Owned (state : State) (index : Nat) (handle : Handle) : Prop :=
  handle.native = true ->
    (state.inbox = some index ∧ (state.inboxReady = true <-> handle.status ≠ .closed)) ∨
    (state.control = some index ∧ (state.controlReady = true <-> handle.status ≠ .closed))

structure Core (state : State) : Prop where
  unused : state.loop.misused = false
  owned : state.loop.Each (Owned state)
  /-- Without Lua code there is nothing of luv on the loop. -/
  native : state.hasLua = false -> state.pc ≠ .ended ->
    state.loop.Each (fun _ handle => handle.native = true) ∧ state.loop.requests = 0

/-- A flag that is up stands for a handle of its own. -/
structure Flags (state : State) : Prop where
  inbox : state.inboxReady = true ->
    Exists fun index => state.inbox = some index ∧ state.loop.Pending index
  control : state.controlReady = true ->
    Exists fun index => state.control = some index ∧ state.loop.Pending index
  apart : forall index, state.inbox = some index -> state.control ≠ some index

/-- The native handles are closing, and when they are closed so are the others. -/
structure Draining (state : State) : Prop where
  unstopped : state.loop.stopFlag = false
  natives : state.loop.Each fun _ handle => handle.native = true -> handle.status.isOpen = false
  others : runtimeHandlesClosed state = true -> state.loop.Sealed

/-- Where the thread can be without a loop. -/
def Pc.offLoop : Pc -> Bool
  | .loopInit | .readStop true | .finish | .luaClose | .ended => true
  | _ => false

structure Invariant (state : State) : Prop where
  core : Core state
  flags : Flags state
  before : state.pc = .loopInit ∨ state.pc = .inboxInit ∨ state.pc = .controlInit ->
    state.control = none ∧ state.hasLua = false
  first : state.pc = .loopInit ∨ state.pc = .inboxInit ->
    state.loop.handles = [] ∧ state.inbox = none
  second : state.pc = .controlInit -> state.inboxReady = true
  noLoop : state.loopReady = false ->
    state.loop.Closable ∧ state.pc.offLoop = true ∧ state.hasLua = false
  draining : state.pc = .draining -> state.disturbed = false -> Draining state
  drained : state.pc = .loopClose -> state.disturbed = false -> state.loop.Closable
  done : state.pc = .luaClose ∨ state.pc = .ended -> state.loop.Closable

variable {state : State}

theorem Owned.congr {next : State} {index : Nat} {handle : Handle}
    (owned : Owned state index handle) (inbox : next.inbox = state.inbox)
    (control : next.control = state.control) (inboxReady : next.inboxReady = state.inboxReady)
    (controlReady : next.controlReady = state.controlReady) : Owned next index handle := by
  unfold Owned
  rw [inbox, control, inboxReady, controlReady]
  exact owned

/-- An open handle may start to close. -/
theorem Owned.status {index : Nat} {handle : Handle} (owned : Owned state index handle)
    (isOpen : handle.status.isOpen = true) (status : Status) (unclosed : status ≠ .closed) :
    Owned state index { handle with status } := by
  have before : handle.status ≠ .closed := by
    intro closed
    rw [closed] at isOpen
    cases isOpen
  intro native
  exact (owned native).imp
    (fun own => ⟨own.1, own.2.trans (iff_of_true before unclosed)⟩)
    (fun own => ⟨own.1, own.2.trans (iff_of_true before unclosed)⟩)

theorem Core.natives_closed (core : Core state) (closed : runtimeHandlesClosed state = true) :
    state.loop.Each fun _ handle => handle.native = true -> handle.status = .closed := by
  simp only [runtimeHandlesClosed, Bool.and_eq_true, Bool.not_eq_true'] at closed
  intro index handle found native
  by_contra unclosed
  rcases core.owned index handle found native with ⟨_, ready⟩ | ⟨_, ready⟩
  · cases closed.1.symm.trans (ready.mpr unclosed)
  · cases closed.2.symm.trans (ready.mpr unclosed)

/-- What leaves the native handles and their flags alone. -/
structure Aside (state next : State) : Prop where
  inbox : next.inbox = state.inbox
  control : next.control = state.control
  inboxReady : next.inboxReady = state.inboxReady
  controlReady : next.controlReady = state.controlReady
  untouched : state.loop.Untouched next.loop

theorem Aside.refl (state : State) : Aside state state :=
  ⟨rfl, rfl, rfl, rfl, fun _ _ found _ => found⟩

theorem Flags.of_pending {next : State} (flags : Flags state) (inbox : next.inbox = state.inbox)
    (control : next.control = state.control) (inboxReady : next.inboxReady = state.inboxReady)
    (controlReady : next.controlReady = state.controlReady)
    (kept : forall index, state.loop.Pending index -> next.loop.Pending index) : Flags next := by
  refine ⟨?_, ?_, ?_⟩
  · rw [inbox, inboxReady]
    intro ready
    rcases flags.inbox ready with ⟨index, own, pending⟩
    exact ⟨index, own, kept index pending⟩
  · rw [control, controlReady]
    intro ready
    rcases flags.control ready with ⟨index, own, pending⟩
    exact ⟨index, own, kept index pending⟩
  · rw [inbox, control]
    exact flags.apart

theorem Flags.aside {next : State} (flags : Flags state) (aside : Aside state next) : Flags next :=
  flags.of_pending aside.inbox aside.control aside.inboxReady aside.controlReady
    fun _ pending => aside.untouched.pending pending

/-- With the native handles closed, both flags are down. -/
theorem Flags.closed (flags : Flags state)
    (natives : state.loop.Each fun _ handle => handle.native = true -> handle.status = .closed) :
    runtimeHandlesClosed state = true := by
  have none (index : Nat) : ¬ state.loop.Pending index := by
    rintro ⟨handle, found, native, unclosed⟩
    exact unclosed (natives index handle found native)
  have inbox : state.inboxReady = false := by
    cases ready : state.inboxReady with
    | false => rfl
    | true =>
        rcases flags.inbox ready with ⟨index, _, pending⟩
        exact absurd pending (none index)
  have control : state.controlReady = false := by
    cases ready : state.controlReady with
    | false => rfl
    | true =>
        rcases flags.control ready with ⟨index, _, pending⟩
        exact absurd pending (none index)
  rw [runtimeHandlesClosed, inbox, control]
  rfl

/-! ## Lua code -/

theorem active_ne_closed (active : Bool) : (if active then Status.active else .idle) ≠ .closed := by
  cases active <;> nofun

theorem luaCall_core (core : Core state) (alive : state.hasLua = true) (call : LuaCall) :
    Core (luaCall state call) := by
  have hasLua : (luaCall state call).hasLua = true := by
    cases call <;> simp only [luaCall] <;> first | exact alive | (split <;> exact alive)
  refine ⟨?_, ?_, fun absent => Bool.noConfusion (absent.symm.trans hasLua)⟩
  · cases call with
    | create | request | stop => exact core.unused
    | setActive =>
        simp only [luaCall]
        split <;> exact core.unused
    | close index =>
        simp only [luaCall]
        split
        · rename_i luv
          rcases (Option.any_eq_true _ _).mp luv with ⟨handle, found, own⟩
          exact (EventLoop.close_misused found (Bool.and_eq_true_iff.mp own).2).trans core.unused
        · exact core.unused
  · cases call with
    | create active => exact EventLoop.Each.init core.owned Bool.noConfusion
    | request | stop => exact core.owned
    | setActive index active =>
        simp only [luaCall]
        split
        · exact core.owned.setActive index active fun handle owned isOpen =>
            owned.status isOpen _ (active_ne_closed active)
        · exact core.owned
    | close index =>
        simp only [luaCall]
        split
        · exact core.owned.close index fun handle owned isOpen => owned.status isOpen _ nofun
        · exact core.owned

theorem luaCall_aside (state : State) (call : LuaCall) : Aside state (luaCall state call) := by
  have foreign {index : Nat} (condition : Handle -> Bool)
      (own : (state.loop.handles[index]?).any (fun handle => !handle.native && condition handle) =
        true) : (state.loop.handles[index]?).any Handle.native = false := by
    rcases (Option.any_eq_true _ _).mp own with ⟨handle, found, luv⟩
    rw [found, Option.any_some]
    exact (Bool.not_eq_true' _).mp (Bool.and_eq_true_iff.mp luv).1
  cases call with
  | create active => exact ⟨rfl, rfl, rfl, rfl, .init state.loop false active⟩
  | request | stop => exact ⟨rfl, rfl, rfl, rfl, fun _ _ found _ => found⟩
  | setActive index active =>
      simp only [luaCall]
      split
      · rename_i own
        exact ⟨rfl, rfl, rfl, rfl,
          .modify rfl (foreign (fun _ => true) (by simpa using own))⟩
      · exact .refl state
  | close index =>
      simp only [luaCall]
      split
      · rename_i own
        exact ⟨rfl, rfl, rfl, rfl, .modify rfl (foreign _ own)⟩
      · exact .refl state

/-- Lua code that leaves a drain undisturbed opens nothing. -/
theorem luaCall_draining (draining : state.disturbed = false -> Draining state) (call : LuaCall)
    (undisturbed : (luaCall state call).disturbed = false) : Draining (luaCall state call) := by
  cases call with
  | create | stop => cases undisturbed
  | request =>
      have before := draining undisturbed
      exact ⟨before.unstopped, before.natives, before.others⟩
  | setActive index active =>
      simp only [luaCall] at undisturbed ⊢
      split at undisturbed <;> rename_i luv
      · rw [if_pos luv]
        have before := draining undisturbed
        refine ⟨before.unstopped, ?_, ?_⟩
        · exact before.natives.setActive index active fun handle shut isOpen native =>
            Bool.noConfusion ((shut native).symm.trans isOpen)
        · intro closed
          exact (before.others closed).setActive index active fun handle shut isOpen =>
            Bool.noConfusion (shut.symm.trans isOpen)
      · rw [if_neg luv]
        exact draining undisturbed
  | close index =>
      simp only [luaCall] at undisturbed ⊢
      split at undisturbed <;> rename_i luv
      · rw [if_pos luv]
        have before := draining undisturbed
        refine ⟨before.unstopped, ?_, ?_⟩
        · exact before.natives.close index fun _ _ _ _ => rfl
        · intro closed
          exact (before.others closed).close index fun _ _ _ => rfl
      · rw [if_neg luv]
        exact draining undisturbed

/-! ## Closing -/

theorem closeLuvHandles_core (core : Core state) (closed : runtimeHandlesClosed state = true)
    (failing : List Nat) : Core (closeLuvHandles state failing) := by
  unfold closeLuvHandles
  split
  · rename_i alive
    refine ⟨?_, ?_, fun absent => Bool.noConfusion (absent.symm.trans alive)⟩
    · exact (EventLoop.walk_misused failing (core.natives_closed closed)).trans core.unused
    · exact core.owned.walk failing fun index handle owned _ isOpen => owned.status isOpen _ nofun
  · exact core

theorem closeLuvHandles_aside (state : State) (failing : List Nat) :
    Aside state (closeLuvHandles state failing) := by
  unfold closeLuvHandles
  split
  · exact ⟨rfl, rfl, rfl, rfl, .walk state.loop failing⟩
  · exact .refl state

/-- The walk closes what is left, or somebody notices that it does not. -/
theorem closeLuvHandles_sealed (core : Core state) (running : state.pc ≠ .ended)
    (closed : runtimeHandlesClosed state = true) (failing : List Nat)
    (undisturbed : (closeLuvHandles state failing).disturbed = false) :
    (closeLuvHandles state failing).loop.Sealed ∧ state.disturbed = false := by
  have shut : state.loop.Each fun _ handle => handle.native = true -> handle.status.isOpen = false := by
    intro index handle found native
    rw [core.natives_closed closed index handle found native]
    rfl
  unfold closeLuvHandles at undisturbed ⊢
  split
  · rename_i alive
    rw [if_pos alive] at undisturbed
    simp only [Bool.or_eq_false_iff, decide_eq_false_iff_not, ne_eq, not_not] at undisturbed
    rw [undisturbed.2]
    exact ⟨EventLoop.walk_sealed shut, undisturbed.1⟩
  · rename_i absent
    rw [if_neg absent] at undisturbed
    have natives := (core.native ((Bool.not_eq_true _).mp absent) running).1
    exact ⟨fun index handle found => shut index handle found (natives index handle found), undisturbed⟩

theorem closeRuntimeHandle_each {loop : EventLoop} {property : Nat -> Handle -> Prop}
    (each : loop.Each property) (ready : Bool) (place : Option Nat)
    (kept : forall index handle, property index handle -> handle.status.isOpen = true ->
      property index { handle with status := .closing }) :
    (closeRuntimeHandle loop ready place).Each property := by
  unfold closeRuntimeHandle
  split
  · split
    · exact each.close _ (kept _)
    · exact each
  · exact each

theorem closeRuntimeHandle_misused {loop : EventLoop} (ready : Bool) (place : Option Nat) :
    (closeRuntimeHandle loop ready place).misused = loop.misused := by
  unfold closeRuntimeHandle
  split
  · split
    · rename_i index asked
      rcases (Option.any_eq_true _ _).mp (Bool.and_eq_true_iff.mp asked).2 with ⟨handle, found, isOpen⟩
      exact EventLoop.close_misused found isOpen
    · rfl
  · rfl

theorem closeRuntimeHandle_requests {loop : EventLoop} (ready : Bool) (place : Option Nat) :
    (closeRuntimeHandle loop ready place).requests = loop.requests ∧
      (closeRuntimeHandle loop ready place).stopFlag = loop.stopFlag := by
  unfold closeRuntimeHandle
  split
  · split <;> exact ⟨rfl, rfl⟩
  · exact ⟨rfl, rfl⟩

theorem closeRuntimeHandle_shuts {loop : EventLoop} {index : Nat} {handle : Handle}
    (found : (closeRuntimeHandle loop true (some index)).handles[index]? = some handle) :
    handle.status.isOpen = false := by
  simp only [closeRuntimeHandle, Bool.true_and] at found
  split at found
  · exact EventLoop.close_shuts found
  · rename_i shut
    simpa only [EventLoop.isOpen, found, Option.any_some, Bool.not_eq_true] using shut

theorem closeRuntimeHandle_pending {loop : EventLoop} {index : Nat} (pending : loop.Pending index)
    (ready : Bool) (place : Option Nat) : (closeRuntimeHandle loop ready place).Pending index := by
  unfold closeRuntimeHandle
  split
  · split
    · exact pending.close _
    · exact pending
  · exact pending

theorem closeRuntimeHandles_flags (flags : Flags state) : Flags (closeRuntimeHandles state) :=
  flags.of_pending rfl rfl rfl rfl fun _ pending =>
    closeRuntimeHandle_pending (closeRuntimeHandle_pending pending _ _) _ _

theorem closeRuntimeHandles_core (core : Core state) : Core (closeRuntimeHandles state) := by
  have native (property : Nat -> Handle -> Prop) (each : state.loop.Each property)
      (kept : forall index handle, property index handle -> handle.status.isOpen = true ->
        property index { handle with status := .closing }) :
      (closeRuntimeHandles state).loop.Each property :=
    closeRuntimeHandle_each (closeRuntimeHandle_each each _ _ kept) _ _ kept
  refine ⟨?_, ?_, fun absent running => ⟨?_, ?_⟩⟩
  · show (closeRuntimeHandle (closeRuntimeHandle _ _ _) _ _).misused = false
    rw [closeRuntimeHandle_misused, closeRuntimeHandle_misused]
    exact core.unused
  · exact native _ core.owned fun index handle owned isOpen => owned.status isOpen _ nofun
  · exact native _ (core.native absent running).1 fun _ _ native _ => native
  · show (closeRuntimeHandle (closeRuntimeHandle _ _ _) _ _).requests = 0
    rw [(closeRuntimeHandle_requests _ _).1, (closeRuntimeHandle_requests _ _).1]
    exact (core.native absent running).2

/-- Afterwards neither of the two is open. -/
theorem closeRuntimeHandles_shuts (core : Core state) :
    (closeRuntimeHandles state).loop.Each fun _ handle =>
      handle.native = true -> handle.status.isOpen = false := by
  have first : (closeRuntimeHandle state.loop state.inboxReady state.inbox).Each fun index handle =>
      state.inbox = some index -> state.inboxReady = true -> handle.status.isOpen = false := by
    intro index handle found own ready
    rw [own, ready] at found
    exact closeRuntimeHandle_shuts found
  have both := closeRuntimeHandle_each first state.controlReady state.control fun _ _ _ _ _ _ => rfl
  intro index handle found native
  cases isOpen : handle.status.isOpen with
  | false => rfl
  | true =>
      have unclosed : handle.status ≠ .closed := by
        intro closed
        rw [closed] at isOpen
        cases isOpen
      rcases (closeRuntimeHandles_core core).owned index handle found native with
        ⟨own, ready⟩ | ⟨own, ready⟩
      · exact isOpen.symm.trans (both index handle found own (ready.mpr unclosed))
      · have own : state.control = some index := own
        have ready : state.controlReady = true := ready.mpr unclosed
        simp only [closeRuntimeHandles, own, ready] at found
        exact isOpen.symm.trans (closeRuntimeHandle_shuts found)

@[simp] theorem clearReady_loop (state : State) (index : Nat) :
    (clearReady state index).loop = state.loop := by
  unfold clearReady
  split
  · rfl
  · split <;> rfl

@[simp] theorem clearReady_hasLua (state : State) (index : Nat) :
    (clearReady state index).hasLua = state.hasLua := by
  unfold clearReady
  split
  · rfl
  · split <;> rfl

@[simp] theorem clearReady_pc (state : State) (index : Nat) :
    (clearReady state index).pc = state.pc := by
  unfold clearReady
  split
  · rfl
  · split <;> rfl

@[simp] theorem clearReady_disturbed (state : State) (index : Nat) :
    (clearReady state index).disturbed = state.disturbed := by
  unfold clearReady
  split
  · rfl
  · split <;> rfl

@[simp] theorem clearReady_loopReady (state : State) (index : Nat) :
    (clearReady state index).loopReady = state.loopReady := by
  unfold clearReady
  split
  · rfl
  · split <;> rfl

/-- The flag of the handle that is closed goes down. -/
theorem Owned.cleared {handle : Handle} {index : Nat} (owned : Owned state index handle) :
    Owned (clearReady state index) index { handle with status := .closed } := by
  intro native
  have down : (false = true <-> Status.closed ≠ .closed) := by simp
  unfold clearReady
  split
  · rename_i inbox
    exact Or.inl ⟨inbox, down⟩
  · rename_i notInbox
    rcases owned native with own | own
    · exact absurd own.1 notInbox
    · rw [if_pos own.1]
      exact Or.inr ⟨own.1, down⟩

theorem Owned.spared {handle : Handle} {index other : Nat} (owned : Owned state other handle)
    (distinct : other ≠ index) : Owned (clearReady state index) other handle := by
  have apart {place : Option Nat} (there : place = some other) : place ≠ some index := by
    intro here
    exact distinct (Option.some.inj (there.symm.trans here))
  intro native
  unfold clearReady
  rcases owned native with own | own
  · rw [if_neg (apart own.1)]
    split <;> exact Or.inl own
  · split
    · exact Or.inr own
    · rw [if_neg (apart own.1)]
      exact Or.inr own

theorem finishClose_core (core : Core state) {loop : EventLoop} {index : Nat}
    (closed : state.loop.finishClose index = some loop) :
    Core (clearReady { state with loop } index) := by
  rcases EventLoop.finishClose_cases closed with ⟨handle, found, closing, equal⟩
  refine ⟨?_, ?_, ?_⟩
  · rw [clearReady_loop, equal]
    exact core.unused
  · intro other after present
    rw [clearReady_loop] at present
    have handles : loop.handles = state.loop.handles.modify index fun handle =>
        { handle with status := .closed } := by rw [equal]
    rw [handles] at present
    rcases getElem?_of_modify present with ⟨before, there, rfl⟩
    have owned : Owned { state with loop } other before :=
      (core.owned other before there).congr rfl rfl rfl rfl
    split
    · rename_i same
      subst same
      exact owned.cleared
    · rename_i distinct
      exact owned.spared (Ne.symm distinct)
  · intro absent running
    rw [clearReady_hasLua] at absent
    rw [clearReady_pc] at running
    rw [clearReady_loop]
    have before := core.native absent running
    exact ⟨before.1.finishClose closed fun _ native => native, by rw [equal]; exact before.2⟩

theorem finishClose_flags (flags : Flags state) {loop : EventLoop} {index : Nat}
    (closed : state.loop.finishClose index = some loop) :
    Flags (clearReady { state with loop } index) := by
  have kept {own other : Nat} {place : Option Nat} (here : place = some other)
      (elsewhere : place ≠ some own) (closed : state.loop.finishClose own = some loop)
      (pending : state.loop.Pending other) : loop.Pending other := by
    apply pending.finishClose closed
    intro same
    exact elsewhere (same ▸ here)
  unfold clearReady
  split
  · rename_i inbox
    refine ⟨nofun, fun ready => ?_, flags.apart⟩
    rcases flags.control ready with ⟨other, own, pending⟩
    exact ⟨other, own, kept own (flags.apart index inbox) closed pending⟩
  · rename_i notInbox
    have spared : state.inboxReady = true ->
        Exists fun other => state.inbox = some other ∧ loop.Pending other := by
      intro ready
      rcases flags.inbox ready with ⟨other, own, pending⟩
      exact ⟨other, own, kept own notInbox closed pending⟩
    split
    · exact ⟨spared, nofun, flags.apart⟩
    · rename_i notControl
      refine ⟨spared, fun ready => ?_, flags.apart⟩
      rcases flags.control ready with ⟨other, own, pending⟩
      exact ⟨other, own, kept own notControl closed pending⟩

/-- The callback of `uv_close` on a handle of luv leaves the flags alone. -/
theorem finishClose_luv_aside {loop : EventLoop} {index : Nat}
    (closed : state.loop.finishClose index = some loop)
    (own : ¬ (state.loop.handles[index]?).any Handle.native = true) :
    Aside state { state with loop } := by
  rcases EventLoop.finishClose_cases closed with ⟨_, _, _, equal⟩
  exact ⟨rfl, rfl, rfl, rfl, .modify (by rw [equal]) ((Bool.not_eq_true _).mp own)⟩

theorem finishClose_luv {loop : EventLoop} {index : Nat}
    (closed : state.loop.finishClose index = some loop)
    (own : ¬ (state.loop.handles[index]?).any Handle.native = true) (core : Core state) :
    Core { state with loop } := by
  rcases EventLoop.finishClose_cases closed with ⟨handle, found, closing, equal⟩
  simp only [found, Option.any_some, Bool.not_eq_true] at own
  refine ⟨by rw [equal]; exact core.unused, ?_, ?_⟩
  · intro other after present
    have handles : loop.handles = state.loop.handles.modify index fun handle =>
        { handle with status := .closed } := by rw [equal]
    have present : loop.handles[other]? = some after := present
    rw [handles] at present
    rcases getElem?_of_modify present with ⟨before, there, rfl⟩
    split
    · rename_i same
      subst same
      cases there.symm.trans found
      intro native
      cases own.symm.trans native
    · exact (core.owned other before there).congr rfl rfl rfl rfl
  · intro absent running
    have before := core.native absent running
    exact ⟨before.1.finishClose closed fun _ native => native, by rw [equal]; exact before.2⟩

theorem runtimeHandleClosed_core {index : Nat} (core : Core (clearReady state index))
    (failing : List Nat) : Core (runtimeHandleClosed state index failing) := by
  unfold runtimeHandleClosed
  split
  · rename_i closed
    exact closeLuvHandles_core core closed failing
  · exact core

theorem runtimeHandleClosed_flags {index : Nat} (flags : Flags (clearReady state index))
    (failing : List Nat) : Flags (runtimeHandleClosed state index failing) := by
  unfold runtimeHandleClosed
  split
  · exact flags.aside (closeLuvHandles_aside _ failing)
  · exact flags

theorem closeLuvHandles_frame (state : State) (failing : List Nat) :
    (closeLuvHandles state failing).pc = state.pc ∧
      (closeLuvHandles state failing).loopReady = state.loopReady ∧
      (closeLuvHandles state failing).loop.stopFlag = state.loop.stopFlag ∧
      runtimeHandlesClosed (closeLuvHandles state failing) = runtimeHandlesClosed state := by
  unfold closeLuvHandles
  split <;> exact ⟨rfl, rfl, rfl, rfl⟩

theorem closeLuvHandles_disturbed {failing : List Nat}
    (undisturbed : (closeLuvHandles state failing).disturbed = false) : state.disturbed = false := by
  unfold closeLuvHandles at undisturbed
  split at undisturbed
  · exact (Bool.or_eq_false_iff.mp undisturbed).1
  · exact undisturbed

theorem closeLuvHandles_natives (failing : List Nat)
    (natives : state.loop.Each fun _ handle => handle.native = true -> handle.status.isOpen = false) :
    (closeLuvHandles state failing).loop.Each fun _ handle =>
      handle.native = true -> handle.status.isOpen = false := by
  unfold closeLuvHandles
  split
  · exact natives.walk failing fun _ _ _ _ _ _ => rfl
  · exact natives

/-- Closing the handles of luv as soon as the native ones are closed. -/
theorem draining_of_closed (core : Core state) (running : state.pc ≠ .ended)
    (unstopped : state.loop.stopFlag = false)
    (natives : state.loop.Each fun _ handle => handle.native = true -> handle.status.isOpen = false)
    (failing : List Nat) (next : State)
    (equal : next = if runtimeHandlesClosed state then closeLuvHandles state failing else state)
    (undisturbed : next.disturbed = false) : Draining next := by
  split at equal <;> rename_i closed <;> subst equal
  · have frame := closeLuvHandles_frame state failing
    exact ⟨frame.2.2.1.trans unstopped, closeLuvHandles_natives failing natives,
      fun _ => (closeLuvHandles_sealed core running closed failing undisturbed).1⟩
  · exact ⟨unstopped, natives, fun impossible => absurd impossible closed⟩

end Teardown
end Service
end ServiceRuntime
