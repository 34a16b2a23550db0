import ServiceRuntime.Foundation.Simulation
import ServiceRuntime.Service.Teardown

namespace ServiceRuntime
namespace Service
namespace Teardown

open Foundation
open Lua (Letter)

/-!
# The loop is empty before the Lua state goes

Every step keeps the handles and the flags of `service_t` together.  A round of
the final loop that is not disturbed ends with an empty loop; the round is
repeated until one is not.  For the flags, this machine does nothing that the
functions of `Service.Thread` do not do.
-/

variable {state : State}

/-! ## Steps of the loop -/

theorem loopStep_core {next : State} {choice : Choice} (core : Core state)
    (moved : loopStep state choice = some next) : Core next := by
  cases choice with
  | lua call =>
      simp only [loopStep] at moved
      split at moved
      · rename_i alive
        cases moved
        exact luaCall_core core alive call
      · cases moved
  | requestDone =>
      simp only [loopStep] at moved
      split at moved
      · cases moved
        refine ⟨core.unused, core.owned, fun absent running => ?_⟩
        have before := core.native absent running
        exact ⟨before.1, by show state.loop.requests - 1 = 0; rw [before.2]⟩
      · cases moved
  | closed index failing =>
      rcases Option.map_eq_some_iff.mp moved with ⟨loop, closed, rfl⟩
      split
      · exact runtimeHandleClosed_core (finishClose_core core closed) failing
      · rename_i own
        exact finishClose_luv closed own core
  | controlCallback =>
      simp only [loopStep] at moved
      split at moved
      · cases moved
        exact closeRuntimeHandles_core core
      · cases moved
  | _ => cases moved

theorem loopStep_flags {next : State} {choice : Choice} (flags : Flags state)
    (moved : loopStep state choice = some next) : Flags next := by
  cases choice with
  | lua call =>
      simp only [loopStep] at moved
      split at moved
      · cases moved
        exact flags.aside (luaCall_aside state call)
      · cases moved
  | requestDone =>
      simp only [loopStep] at moved
      split at moved
      · cases moved
        exact flags.aside ⟨rfl, rfl, rfl, rfl, fun _ _ found _ => found⟩
      · cases moved
  | closed index failing =>
      rcases Option.map_eq_some_iff.mp moved with ⟨loop, closed, rfl⟩
      split
      · exact runtimeHandleClosed_flags (finishClose_flags flags closed) failing
      · rename_i own
        exact flags.aside (finishClose_luv_aside closed own)
  | controlCallback =>
      simp only [loopStep] at moved
      split at moved
      · cases moved
        exact closeRuntimeHandles_flags flags
      · cases moved
  | _ => cases moved

theorem luaCall_frame (state : State) (call : LuaCall) :
    (luaCall state call).pc = state.pc ∧ (luaCall state call).loopReady = state.loopReady := by
  cases call with
  | create | request | stop => exact ⟨rfl, rfl⟩
  | setActive | close =>
      simp only [luaCall]
      split <;> exact ⟨rfl, rfl⟩

theorem loopStep_frame {next : State} {choice : Choice} (moved : loopStep state choice = some next) :
    next.pc = state.pc ∧ next.loopReady = state.loopReady := by
  cases choice with
  | lua call =>
      simp only [loopStep] at moved
      split at moved
      · cases moved
        exact luaCall_frame state call
      · cases moved
  | requestDone | controlCallback =>
      simp only [loopStep] at moved
      split at moved <;> cases moved
      exact ⟨rfl, rfl⟩
  | closed index failing =>
      rcases Option.map_eq_some_iff.mp moved with ⟨loop, closed, rfl⟩
      split
      · unfold runtimeHandleClosed
        split
        · have frame := closeLuvHandles_frame (clearReady { state with loop } index) failing
          exact ⟨frame.1.trans (clearReady_pc _ _), frame.2.1.trans (clearReady_loopReady _ _)⟩
        · exact ⟨clearReady_pc _ _, clearReady_loopReady _ _⟩
      · exact ⟨rfl, rfl⟩
  | _ => cases moved

/-- In a drain that nobody disturbs the native handles close, and then the
others. -/
theorem loopStep_draining {next : State} {choice : Choice} (core : Core state)
    (running : state.pc ≠ .ended) (draining : state.disturbed = false -> Draining state)
    (moved : loopStep state choice = some next) (undisturbed : next.disturbed = false) :
    Draining next := by
  cases choice with
  | lua call =>
      simp only [loopStep] at moved
      split at moved
      · cases moved
        exact luaCall_draining draining call undisturbed
      · cases moved
  | requestDone =>
      simp only [loopStep] at moved
      split at moved
      · cases moved
        have before := draining undisturbed
        exact ⟨before.unstopped, before.natives, before.others⟩
      · cases moved
  | closed index failing =>
      rcases Option.map_eq_some_iff.mp moved with ⟨loop, closed, rfl⟩
      have flag : loop.stopFlag = state.loop.stopFlag := by
        rcases EventLoop.finishClose_cases closed with ⟨_, _, _, equal⟩
        rw [equal]
      split at undisturbed <;> rename_i own
      · rw [if_pos own]
        have calm : state.disturbed = false := by
          unfold runtimeHandleClosed at undisturbed
          split at undisturbed
          · exact (clearReady_disturbed { state with loop } index).symm.trans
              (closeLuvHandles_disturbed undisturbed)
          · exact (clearReady_disturbed { state with loop } index).symm.trans undisturbed
        have before := draining calm
        refine draining_of_closed (finishClose_core core closed) ?_ ?_ ?_ failing _ rfl undisturbed
        · rw [clearReady_pc]
          exact running
        · rw [clearReady_loop]
          exact flag.trans before.unstopped
        · rw [clearReady_loop]
          exact before.natives.finishClose closed fun _ _ _ => rfl
      · rw [if_neg own]
        have before := draining undisturbed
        exact ⟨flag.trans before.unstopped, before.natives.finishClose closed fun _ _ _ => rfl,
          fun down => (before.others down).finishClose closed fun _ _ => rfl⟩
  | controlCallback =>
      simp only [loopStep] at moved
      split at moved
      · cases moved
        have before := draining undisturbed
        refine ⟨?_, closeRuntimeHandles_shuts core, fun down => ?_⟩
        · show (closeRuntimeHandle (closeRuntimeHandle _ _ _) _ _).stopFlag = false
          rw [(closeRuntimeHandle_requests _ _).2, (closeRuntimeHandle_requests _ _).2]
          exact before.unstopped
        · have shut := before.others down
          exact closeRuntimeHandle_each (closeRuntimeHandle_each shut _ _ fun _ _ _ _ => rfl) _ _
            fun _ _ _ _ => rfl
      · cases moved
  | _ => cases moved

theorem uvReturn_cases {next : State} {after : Pc} (moved : uvReturn state after = some next) :
    state.loop.Returns ∧
      next = { state with loop := { state.loop with stopFlag := false }, pc := after } := by
  unfold uvReturn at moved
  split at moved
  · rename_i returns
    cases moved
    exact ⟨returns, rfl⟩
  · cases moved

/-! ## Everything a step can do -/

/-- A change of place alone. -/
inductive Walk (state : State) : Pc -> Pc -> Prop where
  | loopFailed : Walk state .loopInit (.readStop true)
  | inboxFailed : Walk state .inboxInit (.readStop true)
  | controlFailed : Walk state .controlInit (.readStop true)
  | giveUp {failed : Bool} : Walk state (.readStop failed) .finish
  | started : Walk state .luaInit .running
  | abandoned : Walk state .luaInit .finish
  | hasLoop (ready : state.loopReady = true) : Walk state .finish .closeAll
  | noLoop (down : state.loopReady = false) : Walk state .finish .luaClose
  | loopClosed (closable : state.loop.Closable) : Walk state .loopClose .luaClose
  | loopBusy : Walk state .loopClose .closeAll

inductive Move (state : State) : State -> Prop where
  | loopReady (located : state.pc = .loopInit) :
      Move state { state with loopReady := true, pc := .inboxInit }
  | inboxReady (located : state.pc = .inboxInit) :
      Move state { state with
        loop := state.loop.init true true
        inbox := some state.loop.handles.length
        inboxReady := true
        pc := .controlInit }
  | controlReady (located : state.pc = .controlInit) :
      Move state { state with
        loop := state.loop.init true true
        control := some state.loop.handles.length
        controlReady := true
        pc := .readStop false }
  | luaReady (located : state.pc = .readStop false) :
      Move state { state with hasLua := true, pc := .luaInit }
  | walk {before after : Pc} (located : state.pc = before) (walked : Walk state before after) :
      Move state { state with pc := after }
  | lua (call : LuaCall) (alive : state.hasLua = true)
      (place : state.pc = .luaInit ∨ state.pc = .finish) : Move state (luaCall state call)
  | loop {choice : Choice} {next : State} (place : state.pc = .running ∨ state.pc = .draining)
      (taken : loopStep state choice = some next) : Move state next
  | returned {after : Pc} {next : State}
      (place : state.pc = .running ∧ after = .finish ∨ state.pc = .draining ∧ after = .loopClose)
      (taken : uvReturn state after = some next) : Move state next
  | closeAll (failing : List Nat) (located : state.pc = .closeAll) {closing : State}
      (begun : closing = closeRuntimeHandles
        { state with disturbed := state.loop.stopFlag, pc := .draining }) :
      Move state (if runtimeHandlesClosed closing then closeLuvHandles closing failing else closing)
  | luaClosed (located : state.pc = .luaClose) :
      Move state { state with
        hasLua := false
        loopReady := false
        inboxReady := false
        controlReady := false
        pc := .ended }

theorem step_move {choice : Choice} {next : State} (moved : step state choice = some next) :
    Move state next := by
  cases located : state.pc with
  | loopInit =>
      cases choice <;> simp only [step, located] at moved <;> cases moved
      · exact .loopReady located
      · exact .walk located .loopFailed
  | inboxInit =>
      cases choice <;> simp only [step, located] at moved <;> cases moved
      · exact .inboxReady located
      · exact .walk located .inboxFailed
  | controlInit =>
      cases choice <;> simp only [step, located] at moved <;> cases moved
      · exact .controlReady located
      · exact .walk located .controlFailed
  | readStop failed =>
      cases choice with
      | next =>
          cases failed <;> simp only [step, located] at moved <;> cases moved
          exact .luaReady located
      | fail | stopRequested =>
          simp only [step, located] at moved
          cases moved
          exact .walk located .giveUp
      | _ =>
          simp only [step, located] at moved
          cases moved
  | luaInit =>
      cases choice with
      | lua call =>
          simp only [step, located] at moved
          split at moved <;> rename_i alive <;> cases moved
          exact .lua call alive (Or.inl located)
      | next =>
          simp only [step, located] at moved
          cases moved
          exact .walk located .started
      | fail | stopRequested =>
          simp only [step, located] at moved
          cases moved
          exact .walk located .abandoned
      | _ =>
          simp only [step, located] at moved
          cases moved
  | running =>
      cases choice with
      | returns =>
          simp only [step, located] at moved
          exact .returned (Or.inl ⟨located, rfl⟩) moved
      | _ =>
          simp only [step, located] at moved
          exact .loop (Or.inl located) moved
  | finish =>
      cases choice with
      | lua call =>
          simp only [step, located] at moved
          split at moved <;> rename_i alive <;> cases moved
          exact .lua call alive (Or.inr located)
      | next =>
          simp only [step, located] at moved
          cases moved
          by_cases ready : state.loopReady = true
          · rw [if_pos ready]
            exact .walk located (.hasLoop ready)
          · rw [if_neg ready]
            exact .walk located (.noLoop ((Bool.not_eq_true _).mp ready))
      | _ =>
          simp only [step, located] at moved
          cases moved
  | closeAll =>
      cases choice with
      | closeAll failing =>
          simp only [step, located] at moved
          cases moved
          exact .closeAll failing located rfl
      | _ =>
          simp only [step, located] at moved
          cases moved
  | draining =>
      cases choice with
      | returns =>
          simp only [step, located] at moved
          exact .returned (Or.inr ⟨located, rfl⟩) moved
      | _ =>
          simp only [step, located] at moved
          exact .loop (Or.inr located) moved
  | loopClose =>
      cases choice with
      | next =>
          simp only [step, located] at moved
          cases moved
          by_cases closable : state.loop.Closable
          · rw [if_pos closable]
            exact .walk located (.loopClosed closable)
          · rw [if_neg closable]
            exact .walk located .loopBusy
      | _ =>
          simp only [step, located] at moved
          cases moved
  | luaClose =>
      cases choice <;> simp only [step, located] at moved <;> cases moved
      exact .luaClosed located
  | ended =>
      simp only [step, located] at moved
      cases moved

/-! ## The invariant -/

theorem start_invariant : Invariant .start := by
  have empty (property : Nat -> Handle -> Prop) : EventLoop.Each .fresh property := by
    intro index handle found
    cases found
  have closable : EventLoop.Closable .fresh := ⟨nofun, rfl⟩
  refine ⟨⟨rfl, empty _, fun _ _ => ⟨empty _, rfl⟩⟩, ⟨nofun, nofun, nofun⟩, fun _ => ⟨rfl, rfl⟩,
    fun _ => ⟨rfl, rfl⟩, nofun, fun _ => ⟨closable, rfl, rfl⟩, nofun, nofun, ?_⟩
  rintro (place | place) <;> cases place

/-- Nothing is claimed of these places in particular. -/
def Pc.plain : Pc -> Bool
  | .readStop _ | .luaInit | .running | .finish | .closeAll => true
  | _ => false

theorem Invariant.of_plain {next : State} (core : Core next) (flags : Flags next)
    (noLoop : next.loopReady = false ->
      next.loop.Closable ∧ next.pc.offLoop = true ∧ next.hasLua = false)
    (plain : next.pc.plain = true) : Invariant next := by
  have elsewhere {pc : Pc} (special : pc.plain = false) : next.pc ≠ pc := by
    rintro rfl
    cases special.symm.trans plain
  refine ⟨core, flags, ?_, ?_, ?_, noLoop, ?_, ?_, ?_⟩
  · rintro (place | place | place) <;> exact absurd place (elsewhere rfl)
  · rintro (place | place) <;> exact absurd place (elsewhere rfl)
  · exact fun place => absurd place (elsewhere rfl)
  · exact fun place => absurd place (elsewhere rfl)
  · exact fun place => absurd place (elsewhere rfl)
  · rintro (place | place) <;> exact absurd place (elsewhere rfl)

theorem Invariant.of_draining {next : State} (core : Core next) (flags : Flags next)
    (ready : next.loopReady = true) (place : next.pc = .draining)
    (draining : next.disturbed = false -> Draining next) : Invariant next := by
  refine ⟨core, flags, ?_, ?_, ?_, fun down => Bool.noConfusion (down.symm.trans ready),
    fun _ => draining, ?_, ?_⟩ <;> rw [place]
  · rintro (elsewhere | elsewhere | elsewhere) <;> cases elsewhere
  · rintro (elsewhere | elsewhere) <;> cases elsewhere
  · nofun
  · nofun
  · rintro (elsewhere | elsewhere) <;> cases elsewhere

theorem Invariant.of_closable {next : State} (core : Core next) (flags : Flags next)
    (closable : next.loop.Closable)
    (noLoop : next.loopReady = false -> next.pc.offLoop = true ∧ next.hasLua = false)
    (place : next.pc = .luaClose ∨ next.pc = .ended) : Invariant next := by
  refine ⟨core, flags, ?_, ?_, ?_, fun down => ⟨closable, noLoop down⟩, ?_,
    fun _ _ => closable, fun _ => closable⟩
  · rcases place with place | place <;> rw [place] <;>
      rintro (elsewhere | elsewhere | elsewhere) <;> cases elsewhere
  · rcases place with place | place <;> rw [place] <;>
      rintro (elsewhere | elsewhere) <;> cases elsewhere
  · rcases place with place | place <;> rw [place] <;> nofun
  · rcases place with place | place <;> rw [place] <;> nofun

theorem Invariant.onLoop (invariant : Invariant state) (place : state.pc.offLoop = false) :
    state.loopReady = true := by
  cases ready : state.loopReady with
  | true => rfl
  | false => cases (invariant.noLoop ready).2.1.symm.trans place

theorem Core.goes (core : Core state) (running : state.pc ≠ .ended) (pc : Pc) :
    Core { state with pc } :=
  ⟨core.unused, core.owned, fun absent _ => core.native absent running⟩

theorem Flags.goes (flags : Flags state) (pc : Pc) : Flags { state with pc } :=
  flags.aside ⟨rfl, rfl, rfl, rfl, fun _ _ found _ => found⟩

/-- A native handle is put on the loop. -/
theorem Core.init {next : State} (core : Core state) (running : state.pc ≠ .ended)
    (loop : next.loop = state.loop.init true true) (hasLua : next.hasLua = state.hasLua)
    (before : forall index handle, state.loop.handles[index]? = some handle ->
      Owned state index handle -> Owned next index handle)
    (added : Owned next state.loop.handles.length ⟨true, .active⟩) : Core next := by
  have each : state.loop.Each (Owned next) := by
    intro index handle found
    exact before index handle found (core.owned index handle found)
  refine ⟨?_, ?_, fun absent _ => ?_⟩
  · rw [loop]
    exact core.unused
  · rw [loop]
    exact EventLoop.Each.init each added
  · rw [loop]
    have natives := core.native (hasLua.symm.trans absent) running
    exact ⟨natives.1.init rfl, natives.2⟩

/-- Lua code runs outside `uv_run`. -/
theorem luaCall_invariant (invariant : Invariant state) (alive : state.hasLua = true) (call : LuaCall)
    (place : state.pc = .luaInit ∨ state.pc = .finish) : Invariant (luaCall state call) := by
  have ready : state.loopReady = true := by
    cases ready : state.loopReady with
    | true => rfl
    | false => cases (invariant.noLoop ready).2.2.symm.trans alive
  have frame := luaCall_frame state call
  have here : (luaCall state call).pc = .luaInit ∨ (luaCall state call).pc = .finish := by
    rw [frame.1]
    exact place
  refine .of_plain (luaCall_core invariant.core alive call) (invariant.flags.aside (luaCall_aside state call))
    (fun down => Bool.noConfusion (down.symm.trans (frame.2.trans ready))) ?_
  rcases here with here | here <;> rw [here] <;> rfl

theorem uvReturn_core {next : State} {after : Pc} (core : Core state) (running : state.pc ≠ .ended)
    (moved : uvReturn state after = some next) : Core next := by
  rcases uvReturn_cases moved with ⟨_, rfl⟩
  exact ⟨core.unused, core.owned, fun absent _ => core.native absent running⟩

theorem uvReturn_flags {next : State} {after : Pc} (flags : Flags state)
    (moved : uvReturn state after = some next) : Flags next := by
  rcases uvReturn_cases moved with ⟨_, rfl⟩
  exact flags.aside ⟨rfl, rfl, rfl, rfl, fun _ _ found _ => found⟩

/-- The loop returns from an undisturbed drain with nothing left on it. -/
theorem Draining.closable (draining : Draining state) (flags : Flags state)
    (returns : state.loop.Returns) : state.loop.Closable := by
  have idle : state.loop.alive = false :=
    returns.resolve_right fun stopped => Bool.noConfusion (stopped.symm.trans draining.unstopped)
  have natives : state.loop.Each fun _ handle => handle.native = true -> handle.status = .closed := by
    intro index handle found native
    have shut := draining.natives index handle found native
    exact EventLoop.closed_of_idle idle found shut
  exact (draining.others (flags.closed natives)).closable idle

/-- The thread moves on without touching the loop. -/
theorem Invariant.goes (invariant : Invariant state) (running : state.pc ≠ .ended) (pc : Pc)
    (plain : pc.plain = true) (off : state.loopReady = false -> pc.offLoop = true) :
    Invariant { state with pc } :=
  .of_plain (invariant.core.goes running pc) (invariant.flags.goes pc)
    (fun down => ⟨(invariant.noLoop down).1, off down, (invariant.noLoop down).2.2⟩) plain

theorem inboxInit_invariant (invariant : Invariant state) (located : state.pc = .inboxInit) :
    Invariant { state with
      loop := state.loop.init true true
      inbox := some state.loop.handles.length
      inboxReady := true
      pc := .controlInit } := by
  have running : state.pc ≠ .ended := by
    rw [located]
    nofun
  have ready := invariant.onLoop (by rw [located]; rfl)
  have empty := invariant.first (Or.inr located)
  have before := invariant.before (Or.inr (Or.inl located))
  refine ⟨invariant.core.init running rfl rfl ?_ ?_, ⟨?_, ?_, ?_⟩, fun _ => before, ?_,
    fun _ => rfl, fun down => Bool.noConfusion (down.symm.trans ready), nofun, nofun, ?_⟩
  · intro index handle found
    rw [empty.1] at found
    cases found
  · exact fun _ => Or.inl ⟨rfl, iff_of_true rfl nofun⟩
  · exact fun _ => ⟨_, rfl, .added state.loop true⟩
  · intro up
    rcases invariant.flags.control up with ⟨index, own, _⟩
    cases before.1.symm.trans own
  · intro index _ own
    cases before.1.symm.trans own
  · rintro (place | place) <;> cases place
  · rintro (place | place) <;> cases place

theorem controlInit_invariant (invariant : Invariant state) (located : state.pc = .controlInit) :
    Invariant { state with
      loop := state.loop.init true true
      control := some state.loop.handles.length
      controlReady := true
      pc := .readStop false } := by
  have running : state.pc ≠ .ended := by
    rw [located]
    nofun
  have ready := invariant.onLoop (by rw [located]; rfl)
  have before := invariant.before (Or.inr (Or.inr located))
  refine .of_plain (invariant.core.init running rfl rfl ?_ ?_) ⟨?_, ?_, ?_⟩
    (fun down => Bool.noConfusion (down.symm.trans ready)) rfl
  · intro index handle found owned native
    rcases owned native with own | own
    · exact Or.inl own
    · cases before.1.symm.trans own.1
  · exact fun _ => Or.inr ⟨rfl, iff_of_true rfl nofun⟩
  · intro up
    rcases invariant.flags.inbox up with ⟨index, own, pending⟩
    exact ⟨index, own, (EventLoop.Untouched.init state.loop true true).pending pending⟩
  · exact fun _ => ⟨_, rfl, .added state.loop true⟩
  · intro index own added
    -- The inbox handle is on the loop already, so its position is another.
    rcases invariant.flags.inbox (invariant.second located) with ⟨place, there, handle, found, _⟩
    have same : place = index := Option.some.inj (there.symm.trans own)
    have bound := (List.getElem?_eq_some_iff.mp found).1
    have last : state.loop.handles.length = index := Option.some.inj added
    omega

/-- The head of the round that closes everything. -/
theorem closeAll_invariant (invariant : Invariant state) (located : state.pc = .closeAll)
    (failing : List Nat) {closing next : State}
    (begun : closing = closeRuntimeHandles
      { state with disturbed := state.loop.stopFlag, pc := .draining })
    (equal : next = if runtimeHandlesClosed closing then closeLuvHandles closing failing
      else closing) : Invariant next := by
  have ready := invariant.onLoop (by rw [located]; rfl)
  have running : state.pc ≠ .ended := by
    rw [located]
    nofun
  have start : Core { state with disturbed := state.loop.stopFlag, pc := .draining } :=
    ⟨invariant.core.unused, invariant.core.owned, fun absent _ => invariant.core.native absent running⟩
  have core := closeRuntimeHandles_core start
  have shuts := closeRuntimeHandles_shuts start
  have flags : Flags closing := begun ▸ closeRuntimeHandles_flags
    (invariant.flags.aside ⟨rfl, rfl, rfl, rfl, fun _ _ found _ => found⟩)
  rw [<- begun] at core shuts
  have stopFlag : closing.loop.stopFlag = closing.disturbed := by
    rw [begun]
    show (closeRuntimeHandle (closeRuntimeHandle _ _ _) _ _).stopFlag = _
    rw [(closeRuntimeHandle_requests _ _).2, (closeRuntimeHandle_requests _ _).2]
    rfl
  have place : closing.pc = .draining := by rw [begun]; rfl
  have onLoop : closing.loopReady = true := by rw [begun]; exact ready
  have draining (undisturbed : next.disturbed = false) : Draining next := by
    have calm : closing.disturbed = false := by
      rw [equal] at undisturbed
      split at undisturbed
      · exact closeLuvHandles_disturbed undisturbed
      · exact undisturbed
    exact draining_of_closed core (by rw [place]; nofun) (stopFlag.trans calm) shuts failing next
      equal undisturbed
  split at equal <;> rename_i closed
  · have frame := closeLuvHandles_frame closing failing
    rw [equal] at draining ⊢
    exact .of_draining (closeLuvHandles_core core closed failing)
      (flags.aside (closeLuvHandles_aside _ failing)) (frame.2.1.trans onLoop)
      (frame.1.trans place) draining
  · rw [equal] at draining ⊢
    exact .of_draining core flags onLoop place draining

theorem loopStep_invariant (invariant : Invariant state) {choice : Choice} {next : State}
    (located : state.pc = .running ∨ state.pc = .draining)
    (taken : loopStep state choice = some next) : Invariant next := by
  have ready : state.loopReady = true :=
    invariant.onLoop (by rcases located with located | located <;> rw [located] <;> rfl)
  have running : state.pc ≠ .ended := by
    rcases located with located | located <;> rw [located] <;> nofun
  have frame := loopStep_frame taken
  have core := loopStep_core invariant.core taken
  have flags := loopStep_flags invariant.flags taken
  rcases located with located | located
  · refine .of_plain core flags
      (fun down => Bool.noConfusion (down.symm.trans (frame.2.trans ready))) ?_
    rw [frame.1, located]
    rfl
  · exact .of_draining core flags (frame.2.trans ready) (frame.1.trans located)
      (loopStep_draining invariant.core running (invariant.draining located) taken)

theorem uvReturn_invariant (invariant : Invariant state) {next : State} {after : Pc}
    (located : state.pc = .running ∧ after = .finish ∨ state.pc = .draining ∧ after = .loopClose)
    (moved : uvReturn state after = some next) : Invariant next := by
  have ready : state.loopReady = true := invariant.onLoop (by
    rcases located with ⟨located, _⟩ | ⟨located, _⟩ <;> rw [located] <;> rfl)
  have running : state.pc ≠ .ended := by
    rcases located with ⟨located, _⟩ | ⟨located, _⟩ <;> rw [located] <;> nofun
  have core := uvReturn_core invariant.core running moved
  have flags := uvReturn_flags invariant.flags moved
  rcases uvReturn_cases moved with ⟨returns, rfl⟩
  have noLoop : ¬ state.loopReady = false := fun down => Bool.noConfusion (down.symm.trans ready)
  rcases located with ⟨located, rfl⟩ | ⟨located, rfl⟩
  · exact .of_plain core flags (fun down => absurd down noLoop) rfl
  · refine ⟨core, flags, ?_, ?_, nofun, fun down => absurd down noLoop, nofun, ?_, ?_⟩
    · rintro (elsewhere | elsewhere | elsewhere) <;> cases elsewhere
    · rintro (elsewhere | elsewhere) <;> cases elsewhere
    · exact fun _ undisturbed =>
        (invariant.draining located undisturbed).closable invariant.flags returns
    · rintro (elsewhere | elsewhere) <;> cases elsewhere

theorem walk_invariant (invariant : Invariant state) {before after : Pc}
    (located : state.pc = before) (walked : Walk state before after) :
    Invariant { state with pc := after } := by
  have running : state.pc ≠ .ended := by
    rw [located]
    cases walked <;> nofun
  have onLoop (place : before.offLoop = false) (pc : Pc) (down : state.loopReady = false) :
      pc.offLoop = true :=
    Bool.noConfusion (down.symm.trans (invariant.onLoop (located.symm ▸ place)))
  cases walked with
  | loopFailed | inboxFailed | controlFailed | giveUp | abandoned =>
      exact invariant.goes running _ rfl fun _ => rfl
  | started => exact invariant.goes running .running rfl (onLoop rfl .running)
  | loopBusy => exact invariant.goes running .closeAll rfl (onLoop rfl .closeAll)
  | hasLoop ready =>
      exact invariant.goes running .closeAll rfl fun down => Bool.noConfusion (down.symm.trans ready)
  | noLoop down =>
      have noLoop := invariant.noLoop down
      exact .of_closable (invariant.core.goes running .luaClose) (invariant.flags.goes .luaClose)
        noLoop.1 (fun _ => ⟨rfl, noLoop.2.2⟩) (Or.inl rfl)
  | loopClosed closable =>
      have ready := invariant.onLoop (by rw [located]; rfl)
      exact .of_closable (invariant.core.goes running .luaClose) (invariant.flags.goes .luaClose)
        closable (fun down => Bool.noConfusion (down.symm.trans ready)) (Or.inl rfl)

theorem step_invariant (state : State) (choice : Choice) (next : State)
    (invariant : Invariant state) (moved : step state choice = some next) : Invariant next := by
  have core := invariant.core
  cases step_move moved with
  | loopReady located =>
      have before := invariant.before (Or.inl located)
      have first := invariant.first (Or.inl located)
      have running : state.pc ≠ .ended := by
        rw [located]
        nofun
      refine ⟨⟨core.unused, core.owned, fun absent _ => core.native absent running⟩,
        invariant.flags.aside ⟨rfl, rfl, rfl, rfl, fun _ _ found _ => found⟩, fun _ => before,
        fun _ => first, nofun, nofun, nofun, nofun, ?_⟩
      rintro (place | place) <;> cases place
  | inboxReady located => exact inboxInit_invariant invariant located
  | controlReady located => exact controlInit_invariant invariant located
  | luaReady located =>
      have ready := invariant.onLoop (by rw [located]; rfl)
      exact .of_plain ⟨core.unused, core.owned, nofun⟩
        (invariant.flags.aside ⟨rfl, rfl, rfl, rfl, fun _ _ found _ => found⟩)
        (fun down => Bool.noConfusion (down.symm.trans ready)) rfl
  | walk located walked => exact walk_invariant invariant located walked
  | lua call alive place => exact luaCall_invariant invariant alive call place
  | loop place taken => exact loopStep_invariant invariant place taken
  | returned place taken => exact uvReturn_invariant invariant place taken
  | closeAll failing located begun => exact closeAll_invariant invariant located failing begun rfl
  | luaClosed located =>
      have closable := invariant.done (Or.inl located)
      refine .of_closable ⟨core.unused, ?_, fun _ running => absurd rfl running⟩
        ⟨nofun, nofun, invariant.flags.apart⟩ closable (fun _ => ⟨rfl, rfl⟩) (Or.inr rfl)
      intro index handle found native
      have down : false = true <-> handle.status ≠ .closed :=
        iff_of_false nofun (not_not_intro (closable.1 handle (List.mem_of_getElem? found)))
      exact (core.owned index handle found native).imp (fun own => ⟨own.1, down⟩)
        fun own => ⟨own.1, down⟩

theorem reachable_invariant (reached : machine.Reachable state) : Invariant state :=
  reached.invariant (fun _ initial => initial ▸ start_invariant) step_invariant

/-! ## The flags of `service_t` -/

/-- What `Service.Thread` does to the flags of the handles. -/
inductive Change where
  | loopReady
  | inboxReady
  | controlReady
  | closeHandles
  | inboxClosed
  | controlClosed
  | stopped
  deriving DecidableEq, Repr

def change (shared : Shared) : Change -> Option Shared
  | .loopReady => some { shared with loopReady := true }
  | .inboxReady => some { shared with inboxAsyncReady := true }
  | .controlReady => some { shared with controlAsyncReady := true }
  | .closeHandles => some (Service.closeRuntimeHandles shared)
  | .inboxClosed => inboxHandleClosed shared
  | .controlClosed => controlHandleClosed shared
  | .stopped => some (publishStopped shared)

/-- The flags of a service that has just been registered, and every order of
changes. -/
def flagMachine (box : Mailbox Letter) : Machine Shared Change where
  initial shared := shared = .new box
  step := change

/-- The flags are those of the state, and a handle is closing there when it is
no longer open here. -/
structure Shows (state : State) (shared : Shared) : Prop where
  loopReady : shared.loopReady = state.loopReady
  inboxReady : shared.inboxAsyncReady = state.inboxReady
  controlReady : shared.controlAsyncReady = state.controlReady
  inboxUnborn : state.inbox = none -> shared.inboxClosing = false
  controlUnborn : state.control = none -> shared.controlClosing = false
  inboxClosing : forall index, state.inbox = some index -> state.inboxReady = true ->
    shared.inboxClosing = !state.loop.isOpen index
  controlClosing : forall index, state.control = some index -> state.controlReady = true ->
    shared.controlClosing = !state.loop.isOpen index

variable {shared : Shared}

/-- Steps that do not concern the native handles. -/
theorem Shows.aside {next : State} (shows : Shows state shared) (flags : Flags state)
    (aside : Aside state next) (loopReady : next.loopReady = state.loopReady) :
    Shows next shared := by
  refine ⟨?_, ?_, ?_, ?_, ?_, ?_, ?_⟩
  · rw [loopReady]
    exact shows.loopReady
  · rw [aside.inboxReady]
    exact shows.inboxReady
  · rw [aside.controlReady]
    exact shows.controlReady
  · rw [aside.inbox]
    exact shows.inboxUnborn
  · rw [aside.control]
    exact shows.controlUnborn
  · intro index own ready
    rw [aside.inbox] at own
    rw [aside.inboxReady] at ready
    rcases flags.inbox ready with ⟨place, there, pending⟩
    cases own.symm.trans there
    rw [aside.untouched.isOpen pending]
    exact shows.inboxClosing index own ready
  · intro index own ready
    rw [aside.control] at own
    rw [aside.controlReady] at ready
    rcases flags.control ready with ⟨place, there, pending⟩
    cases own.symm.trans there
    rw [aside.untouched.isOpen pending]
    exact shows.controlClosing index own ready

/-- `service_close_runtime_handles` on the handles and on the flags. -/
theorem Shows.closeRuntimeHandles (shows : Shows state shared) (core : Core state)
    (flags : Flags state) :
    Shows (closeRuntimeHandles state) (Service.closeRuntimeHandles shared) := by
  have shut {index : Nat} (pending : state.loop.Pending index) :
      (Teardown.closeRuntimeHandles state).loop.isOpen index = false := by
    have still := closeRuntimeHandle_pending
      (closeRuntimeHandle_pending pending state.inboxReady state.inbox)
      state.controlReady state.control
    rcases still with ⟨handle, found, native, _⟩
    have closing := closeRuntimeHandles_shuts core index handle found native
    show Option.any _ ((closeRuntimeHandle (closeRuntimeHandle _ _ _) _ _).handles[index]?) = false
    rw [found]
    exact closing
  refine ⟨shows.loopReady, shows.inboxReady, shows.controlReady, ?_, ?_, ?_, ?_⟩
  · intro unborn
    have down : shared.inboxAsyncReady = false := by
      rw [shows.inboxReady]
      cases ready : state.inboxReady with
      | false => rfl
      | true =>
          rcases flags.inbox ready with ⟨index, own, _⟩
          cases own.symm.trans unborn
    exact Bool.or_eq_false_iff.mpr ⟨shows.inboxUnborn unborn, down⟩
  · intro unborn
    have down : shared.controlAsyncReady = false := by
      rw [shows.controlReady]
      cases ready : state.controlReady with
      | false => rfl
      | true =>
          rcases flags.control ready with ⟨index, own, _⟩
          cases own.symm.trans unborn
    exact Bool.or_eq_false_iff.mpr ⟨shows.controlUnborn unborn, down⟩
  · intro index own ready
    rcases flags.inbox ready with ⟨place, there, pending⟩
    cases own.symm.trans there
    rw [shut pending]
    exact Bool.or_eq_true_iff.mpr (Or.inr (shows.inboxReady.trans ready))
  · intro index own ready
    rcases flags.control ready with ⟨place, there, pending⟩
    cases own.symm.trans there
    rw [shut pending]
    exact Bool.or_eq_true_iff.mpr (Or.inr (shows.controlReady.trans ready))

/-- The callback of `uv_close` on one of the two handles. -/
theorem Shows.handleClosed (shows : Shows state shared) (core : Core state) (flags : Flags state)
    {index : Nat} {loop : EventLoop} (closed : state.loop.finishClose index = some loop)
    (native : (state.loop.handles[index]?).any Handle.native = true) :
    Exists fun move => Exists fun after => change shared move = some after ∧
      Shows (clearReady { state with loop } index) after := by
  rcases EventLoop.finishClose_cases closed with ⟨handle, found, closing, _⟩
  simp only [found, Option.any_some] at native
  have unclosed : handle.status ≠ .closed := by
    rw [closing]
    exact Status.noConfusion
  have shut : (!state.loop.isOpen index) = true := by
    rw [EventLoop.isOpen, found, Option.any_some, closing]
    rfl
  have same := EventLoop.finishClose_isOpen closed
  rcases core.owned index handle found native with ⟨own, ready⟩ | ⟨own, ready⟩
  · have up := ready.mpr unclosed
    have cleared : clearReady { state with loop } index =
        { state with loop, inboxReady := false } := if_pos own
    refine ⟨.inboxClosed, { shared with inboxAsyncReady := false },
      if_pos ⟨(shows.inboxClosing index own up).trans shut, shows.inboxReady.trans up⟩, ?_⟩
    rw [cleared]
    exact ⟨shows.loopReady, rfl, shows.controlReady, shows.inboxUnborn, shows.controlUnborn,
      fun _ _ up => Bool.noConfusion up,
      fun other there still => (shows.controlClosing other there still).trans
        (congrArg not (same other).symm)⟩
  · have up := ready.mpr unclosed
    have notInbox : state.inbox ≠ some index := fun inbox => flags.apart index inbox own
    have cleared : clearReady { state with loop } index =
        { state with loop, controlReady := false } := (if_neg notInbox).trans (if_pos own)
    refine ⟨.controlClosed, { shared with controlAsyncReady := false },
      if_pos ⟨(shows.controlClosing index own up).trans shut, shows.controlReady.trans up⟩, ?_⟩
    rw [cleared]
    exact ⟨shows.loopReady, shows.inboxReady, rfl, shows.inboxUnborn, shows.controlUnborn,
      fun other there still => (shows.inboxClosing other there still).trans
        (congrArg not (same other).symm),
      fun _ _ up => Bool.noConfusion up⟩

theorem loopStep_shows {next : State} {choice : Choice} (box : Mailbox Letter)
    (shows : Shows state shared) (core : Core state) (flags : Flags state)
    (moved : loopStep state choice = some next) :
    Exists fun moves => Exists fun after =>
      (flagMachine box).run shared moves = some after ∧ Shows next after := by
  have loopReady := (loopStep_frame moved).2
  cases choice with
  | lua call =>
      simp only [loopStep] at moved
      split at moved
      · cases moved
        exact Simulation.stutter (shows.aside flags (luaCall_aside state call) loopReady)
      · cases moved
  | requestDone =>
      simp only [loopStep] at moved
      split at moved
      · cases moved
        exact Simulation.stutter
          (shows.aside flags ⟨rfl, rfl, rfl, rfl, fun _ _ found _ => found⟩ rfl)
      · cases moved
  | closed index failing =>
      rcases Option.map_eq_some_iff.mp moved with ⟨loop, closed, rfl⟩
      split
      · rename_i native
        rcases shows.handleClosed core flags closed native with ⟨move, after, taken, later⟩
        refine Simulation.single move taken ?_
        unfold runtimeHandleClosed
        split
        · exact later.aside (finishClose_flags flags closed) (closeLuvHandles_aside _ failing)
            (closeLuvHandles_frame _ failing).2.1
        · exact later
      · rename_i own
        exact Simulation.stutter (shows.aside flags (finishClose_luv_aside closed own) rfl)
  | controlCallback =>
      simp only [loopStep] at moved
      split at moved
      · cases moved
        exact Simulation.single .closeHandles rfl (shows.closeRuntimeHandles core flags)
      · cases moved
  | _ => cases moved

/-- The machine does to the flags what `Service.Thread` does to them. -/
theorem flags_simulation (box : Mailbox Letter) :
    Simulation machine (flagMachine box) Shows where
  starts := by
    rintro start rfl
    exact ⟨.new box, rfl, rfl, rfl, rfl, fun _ => rfl, fun _ => rfl,
      fun _ _ up => Bool.noConfusion up, fun _ _ up => Bool.noConfusion up⟩
  steps := by
    intro state choice next shared reached _ shows moved
    have invariant := reachable_invariant reached
    have core := invariant.core
    have flags := invariant.flags
    cases step_move moved with
    | loopReady located =>
        exact ⟨[.loopReady], { shared with loopReady := true }, rfl, rfl, shows.inboxReady,
          shows.controlReady, shows.inboxUnborn, shows.controlUnborn, shows.inboxClosing,
          shows.controlClosing⟩
    | inboxReady located =>
        have empty := invariant.first (Or.inr located)
        have before := invariant.before (Or.inr (Or.inl located))
        refine ⟨[.inboxReady], { shared with inboxAsyncReady := true }, rfl, shows.loopReady, rfl,
          shows.controlReady, fun unborn => ?_, shows.controlUnborn, ?_, fun index own => ?_⟩
        · cases unborn
        · rintro index own _
          cases own
          refine (shows.inboxUnborn empty.2).trans ?_
          simp only [EventLoop.isOpen, EventLoop.init, List.getElem?_concat_length]
          rfl
        · cases before.1.symm.trans own
    | controlReady located =>
        have before := invariant.before (Or.inr (Or.inr located))
        refine ⟨[.controlReady], { shared with controlAsyncReady := true }, rfl, shows.loopReady,
          shows.inboxReady, rfl, shows.inboxUnborn, fun unborn => ?_, fun index own ready => ?_, ?_⟩
        · cases unborn
        · rcases flags.inbox ready with ⟨place, there, pending⟩
          cases own.symm.trans there
          exact (shows.inboxClosing index own ready).trans
            (congrArg not ((EventLoop.Untouched.init state.loop true true).isOpen pending).symm)
        · rintro index own _
          cases own
          refine (shows.controlUnborn before.1).trans ?_
          simp only [EventLoop.isOpen, EventLoop.init, List.getElem?_concat_length]
          rfl
    | luaReady | walk =>
        exact Simulation.stutter
          (shows.aside flags ⟨rfl, rfl, rfl, rfl, fun _ _ found _ => found⟩ rfl)
    | lua call alive place =>
        exact Simulation.stutter (shows.aside flags (luaCall_aside state call)
          (luaCall_frame state call).2)
    | loop place taken => exact loopStep_shows box shows core flags taken
    | returned place taken =>
        rcases uvReturn_cases taken with ⟨_, rfl⟩
        exact Simulation.stutter
          (shows.aside flags ⟨rfl, rfl, rfl, rfl, fun _ _ found _ => found⟩ rfl)
    | closeAll failing located begun =>
        have begins : Shows { state with disturbed := state.loop.stopFlag, pc := .draining } shared :=
          shows.aside flags ⟨rfl, rfl, rfl, rfl, fun _ _ found _ => found⟩ rfl
        have start : Core { state with disturbed := state.loop.stopFlag, pc := .draining } :=
          ⟨core.unused, core.owned, fun absent _ => core.native absent (located ▸ Pc.noConfusion)⟩
        have still : Flags { state with disturbed := state.loop.stopFlag, pc := .draining } :=
          flags.aside ⟨rfl, rfl, rfl, rfl, fun _ _ found _ => found⟩
        have later := begins.closeRuntimeHandles start still
        refine Simulation.single .closeHandles rfl ?_
        rw [begun]
        split
        · exact later.aside (closeRuntimeHandles_flags still) (closeLuvHandles_aside _ failing)
            (closeLuvHandles_frame _ failing).2.1
        · exact later
    | luaClosed located =>
        exact ⟨[.stopped], publishStopped shared, rfl, rfl, rfl, rfl, shows.inboxUnborn,
          shows.controlUnborn, fun _ _ up => Bool.noConfusion up, fun _ _ up => Bool.noConfusion up⟩

/-! ## What the shutdown achieves -/

/-- Whatever the source does with luv handles, `uv_close` is only called on an
open handle and the walk never sees a native one.  The Lua state outlives the
handles of luv, and it is closed when nothing is left on the loop; a round of
the final loop that nobody disturbs is the last one.  The flags of `service_t`
go the way `Service.Thread` makes them go, and are down by then. -/
theorem teardown_safe (reached : machine.Reachable state) :
    state.loop.misused = false ∧
    (state.hasLua = false -> forall handle, handle ∈ state.loop.handles ->
      handle.native = false -> handle.status = .closed) ∧
    (state.pc = .luaClose ∨ state.pc = .ended -> state.loop.Closable) ∧
    (state.pc = .loopClose -> state.disturbed = false -> state.loop.Closable) ∧
    forall box, Exists fun shared => (flagMachine box).Reachable shared ∧ Shows state shared ∧
      (state.pc = .luaClose ->
        shared.inboxAsyncReady = false ∧ shared.controlAsyncReady = false) := by
  have invariant := reachable_invariant reached
  refine ⟨invariant.core.unused, ?_, invariant.done, invariant.drained, ?_⟩
  · intro absent handle member luv
    by_cases ended : state.pc = .ended
    · exact (invariant.done (Or.inr ended)).1 handle member
    · rcases List.getElem?_of_mem member with ⟨index, found⟩
      have native := (invariant.core.native absent ended).1 index handle found
      cases luv.symm.trans native
  · intro box
    rcases (flags_simulation box).reachable reached with ⟨shared, sofar, shows⟩
    refine ⟨shared, sofar, shows, fun place => ?_⟩
    have closable := invariant.done (Or.inl place)
    have closed := invariant.flags.closed fun index handle found _ =>
      closable.1 handle (List.mem_of_getElem? found)
    simp only [runtimeHandlesClosed, Bool.and_eq_true, Bool.not_eq_true'] at closed
    exact ⟨shows.inboxReady.trans closed.1, shows.controlReady.trans closed.2⟩

/-- A timer is left behind; the walk closes it once both native handles are
closed, and the service goes through the final loop twice because a close
callback opens another. -/
def leftTimers : List Choice :=
  [.next, .next, .next, .next, .lua (.create true), .next, .controlCallback, .closed 0 [],
    .closed 1 [], .lua (.create false), .closed 2 [], .returns, .next, .closeAll [3], .returns,
    .next, .closeAll [], .closed 3 [], .returns, .next]

theorem teardown_safe_timers :
    Exists fun state => machine.Reachable state ∧ state.pc = .luaClose ∧
      state.loop.handles.length = 4 ∧ state.loop.misused = false ∧ state.loop.Closable := by
  have taken : (machine.run .start leftTimers).any (fun state =>
      decide (state.pc = .luaClose ∧ state.loop.handles.length = 4)) = true := by
    decide
  rcases (Option.any_eq_true _ _).mp taken with ⟨state, final, facts⟩
  have reached : machine.Reachable state := ⟨.start, leftTimers, rfl, final⟩
  have place := (of_decide_eq_true facts).1
  have safe := teardown_safe reached
  exact ⟨state, reached, place, (of_decide_eq_true facts).2, safe.1, safe.2.2.1 (Or.inl place)⟩

end Teardown
end Service
end ServiceRuntime
