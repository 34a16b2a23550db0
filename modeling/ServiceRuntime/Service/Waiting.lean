import ServiceRuntime.Service.Bootstrap

namespace ServiceRuntime
namespace Service

open Lua (Letter Co)
open Foundation

/-!
# What the waits rely on

The shutdown waits for the send pins, `service_start` for the end of the
start, and `service_join` for the thread and for another join.  Each of these
waits has somebody whose progress ends it: this module is the invariant that
says so.
-/

/-! ## The conditions -/

/-- Every handle that is still open is being closed. -/
def Falling (shared : Shared) : Prop :=
  (shared.inboxAsyncReady = true -> shared.inboxClosing = true) ∧
    (shared.controlAsyncReady = true -> shared.controlClosing = true)

/-- A join waits for a thread that exists. -/
def Call.Waited (shared : Shared) : Call -> Prop
  | .join _ (.pthreadJoin true) => shared.threadCreated = true
  | _ => True

theorem Call.Waited.later {shared next : Shared} {call : Call} (waited : call.Waited shared)
    (created : shared.threadCreated = true -> next.threadCreated = true) : call.Waited next := by
  unfold Call.Waited at waited ⊢
  split
  · exact created waited
  · trivial

structure WaitInvariant (state : State) : Prop where
  /-- `joining` is set by a join that has not returned. -/
  joiner : state.shared.joining = true -> 1 ≤ weight Call.critical state.calls
  waited : forall (index : Nat) call, state.calls[index]? = some call -> call.Waited state.shared
  published : state.thread.part.early = false -> state.shared.startDone = true
  /-- A service only leaves RUNNING in the loop when it is told to. -/
  asked : state.thread.part.inLoop = true -> 3 ≤ state.shared.state.rank ->
    state.shared.stopRequested = true
  /-- Both handles are closed together. -/
  falling : state.shared.controlClosing = true ∨ state.thread = .finishRun -> Falling state.shared

/-- Nothing happens to the handles of the runtime. -/
structure SameHandles (shared next : Shared) : Prop where
  inboxReady : next.inboxAsyncReady = shared.inboxAsyncReady
  controlReady : next.controlAsyncReady = shared.controlAsyncReady
  inboxClosing : next.inboxClosing = shared.inboxClosing
  controlClosing : next.controlClosing = shared.controlClosing

structure SameWaits (shared next : Shared) : Prop extends SameHandles shared next where
  joining : next.joining = shared.joining

section Steps

variable {shared next : Shared}

theorem SameHandles.falling (same : SameHandles shared next) (falls : Falling shared) :
    Falling next := by
  rw [Falling, same.inboxReady, same.controlReady, same.inboxClosing, same.controlClosing]
  exact falls

theorem SendMove.sameWaits {letter : Letter} {pc after : SendPc}
    (moved : SendMove shared letter pc next after) : SameWaits shared next := by
  cases moved <;> exact ⟨⟨rfl, rfl, rfl, rfl⟩, rfl⟩

theorem StopMove.sameWaits {pc after : StopPc} (moved : StopMove shared pc next after) :
    SameWaits shared next := by
  cases moved <;> exact ⟨⟨rfl, rfl, rfl, rfl⟩, rfl⟩

theorem StartMove.sameWaits {pc after : StartPc} (moved : StartMove shared pc next after) :
    SameWaits shared next := by
  cases moved <;> exact ⟨⟨rfl, rfl, rfl, rfl⟩, rfl⟩

theorem FreeMove.sameWaits {pc after : FreePc} (moved : FreeMove shared pc next after) :
    SameWaits shared next := by
  cases moved <;> exact ⟨⟨rfl, rfl, rfl, rfl⟩, rfl⟩

theorem ShutdownMove.sameWaits {self : ServiceId} {pc : ShutdownPc} {after : Option ShutdownPc}
    (moved : ShutdownMove self shared pc next after) : SameWaits shared next := by
  cases moved <;> exact ⟨⟨rfl, rfl, rfl, rfl⟩, rfl⟩

/-- What a call does to `joining`, and what it knows when it waits for the
thread. -/
structure CallWaits (shared next : Shared) (call after : Call) : Prop where
  joiner : next.joining = true ->
    (shared.joining = true ∧ call.critical ≤ after.critical) ∨ 1 ≤ after.critical
  waited : after.Waited next
  handles : SameHandles shared next

theorem CallWaits.of_same {call after : Call} (same : SameWaits shared next)
    (critical : call.critical ≤ after.critical)
    (waited : after.Waited next) : CallWaits shared next call after :=
  ⟨fun joining => Or.inl ⟨same.joining.symm.trans joining, critical⟩, waited,
    same.toSameHandles⟩

theorem JoinMove.waits {fromThread : Bool} {pc after : JoinPc}
    (moved : JoinMove shared fromThread pc next after) (fits : pc.Fits shared) :
    CallWaits shared next (.join fromThread pc) (.join fromThread after) := by
  have unchanged : SameWaits shared shared := ⟨⟨rfl, rfl, rfl, rfl⟩, rfl⟩
  cases moved with
  | deadlock | wait =>
      exact .of_same unchanged (Nat.le_refl _) trivial
  | past arrives | refuse arrives =>
      refine .of_same unchanged ?_ trivial
      rcases arrives.2 with ⟨rfl, _⟩ | rfl <;> exact Nat.le_refl _
  | claim arrives unjoined allowed =>
      rename_i hasThread
      refine ⟨fun _ => Or.inr (Nat.le_refl _), ?_, ⟨rfl, rfl, rfl, rfl⟩⟩
      cases hasThread with
      | false => trivial
      | true =>
          rcases arrives.2 with ⟨rfl, own⟩ | rfl
          · exact own.symm
          · exact fits.1 rfl
  | reap | freed => exact .of_same unchanged (Nat.le_refl _) trivial
  | publish => exact .of_same ⟨⟨rfl, rfl, rfl, rfl⟩, rfl⟩ (Nat.le_refl _) trivial
  | free moved => exact .of_same moved.sameWaits (Nat.le_refl _) trivial
  | finish => exact ⟨Bool.noConfusion, trivial, ⟨rfl, rfl, rfl, rfl⟩⟩

theorem CallMove.waits {index : Nat} {call after : Call}
    (moved : CallMove shared index call next after) (fits : call.Fits shared) :
    CallWaits shared next call after := by
  cases moved with
  | send moved => exact .of_same moved.sameWaits (Nat.le_refl _) trivial
  | stop moved => exact .of_same moved.sameWaits (Nat.le_refl _) trivial
  | start moved => exact .of_same moved.sameWaits (Nat.le_refl _) trivial
  | join moved => exact moved.waits fits
  | free moved => exact .of_same moved.sameWaits (Nat.le_refl _) trivial

/-- No call takes back the end of the start. -/
theorem CallMove.keepsDone {index : Nat} {call after : Call}
    (moved : CallMove shared index call next after) (done : shared.startDone = true) :
    next.startDone = true := by
  cases moved with
  | send moved => exact moved.sameStart.done.trans done
  | stop moved => cases moved <;> first | exact done | rfl
  | start moved => cases moved <;> first | exact done | rfl
  | join moved => exact moved.sameStart.done.trans done
  | free moved => exact moved.sameStart.done.trans done

end Steps

/-- The start ends where it is published. -/
theorem ThreadMove.stays_early {self : ServiceId} {state next : State}
    (moved : ThreadMove self state next) (early : state.thread.part.early = true)
    (elsewhere : forall error, state.thread ≠ .publish error) :
    next.thread.part.early = true := by
  have inside {place : ThreadPc} (located : state.thread = place) : place.part.early = true :=
    located ▸ early
  have failed (error : Errno) : (if error = 0 then Part.armed else .failed).early = true := by
    split <;> rfl
  cases moved with
  | walk located walked =>
      have before := inside located
      cases walked with
      | giveUp => exact failed _
      | loopFailed | inboxFailed | controlFailed | luaFailed => exact failed _
      | born | loopMade | inboxMade | controlMade | goOn => rfl
      | receive | refuse | quit | finished | raised | callbackDone | stopDone =>
          simp only [ThreadPc.part] at before
          split at before <;> cases before
      | _ => cases before
  | started located | notStarted located => exact absurd located (elsewhere _)
  | loopReady | inboxReady | controlReady | luaReady => rfl
  | inboxClosed | controlClosed => exact early
  | lua located =>
      have before := inside located
      simp only [ThreadPc.part] at before
      split at before <;> cases before
  | selfWake located =>
      rcases located with located | located <;> cases inside located
  | wakeInbox located | wakeControl located | popped located | poppedNone located
  | quitStep located | quitDone located | overloaded located | failStep located
  | batchGoesOn located | batchEnds located | finishLock located | luaClosed located
  | published located => cases inside located
  | shutdownStep located =>
      rename_i caller pc shared later moved
      cases caller <;> cases inside located
  | shutdownDone located =>
      rename_i caller pc shared moved
      cases caller <;> cases inside located
  | closeHandles located =>
      rename_i caller
      cases caller <;> cases inside located

theorem ThreadMove.publishes {self : ServiceId} {state next : State}
    (moved : ThreadMove self state next) (life : Lifecycle state)
    (published : state.thread.part.early = false -> state.shared.startDone = true)
    (late : next.thread.part.early = false) : next.shared.startDone = true := by
  by_cases publishing : Exists fun error => state.thread = .publish error
  · rcases publishing with ⟨error, located⟩
    cases moved with
    | started | notStarted => rfl
    | walk located' walked =>
        cases located'.symm.trans located
        cases walked
    | inboxClosed located' | controlClosed located' | selfWake located' =>
        rcases located' with located' | located' <;> cases located'.symm.trans located
    | loopReady located' | inboxReady located' | controlReady located' | luaReady located'
    | wakeInbox located' | wakeControl located' | lua located' | popped located'
    | poppedNone located' | quitStep located' | quitDone located' | overloaded located'
    | failStep located' | batchGoesOn located' | batchEnds located' | shutdownStep located'
    | shutdownDone located' | closeHandles located' | finishLock located' | luaClosed located'
    | published located' => cases located'.symm.trans located
  · have elsewhere (error : Errno) : state.thread ≠ .publish error := by
      intro located
      exact publishing ⟨error, located⟩
    refine (moved.sameStart life elsewhere).done.trans (published ?_)
    cases early : state.thread.part.early with
    | false => rfl
    | true => cases late.symm.trans (moved.stays_early early elsewhere)

theorem Walk.inLoop_back {state : State} {before after : ThreadPc} (walked : Walk state before after)
    (inside : after.part.inLoop = true) : before.part.inLoop = true := by
  have failed (error : Errno) : (if error = 0 then Part.armed else .failed).inLoop = false := by
    split <;> rfl
  cases walked with
  | loopFailed | inboxFailed | controlFailed | luaFailed | giveUp =>
      cases (failed _).symm.trans inside
  | notifyNobody _ place | stopDone place => rcases place with rfl | rfl <;> cases inside
  | notify => cases inside
  | born | loopMade | inboxMade | controlMade | goOn | loopExit | loopClosed | loopBusy => cases inside
  | _ => rfl

theorem ThreadMove.asked {self : ServiceId} {state next : State} (moved : ThreadMove self state next)
    (asked : state.thread.part.inLoop = true -> 3 ≤ state.shared.state.rank ->
      state.shared.stopRequested = true)
    (inside : next.thread.part.inLoop = true) (stopping : 3 ≤ next.shared.state.rank) :
    next.shared.stopRequested = true := by
  have failed (error : Errno) : (if error = 0 then Part.armed else .failed).inLoop = false := by
    split <;> rfl
  have stays {place : ThreadPc} (located : state.thread = place) (before : place.part.inLoop = true)
      (stopping : 3 ≤ state.shared.state.rank) : state.shared.stopRequested = true :=
    asked (by rw [located]; exact before) stopping
  cases moved with
  | walk located walked => exact stays located (walked.inLoop_back inside) stopping
  | started => exact absurd stopping (by decide : ¬ 3 ≤ Phase.running.rank)
  | quitStep located moved | failStep located moved =>
      cases moved with
      | stop | stopNew => rfl
      | _ => exact stays located rfl stopping
  | shutdownStep located moved =>
      rename_i caller pc shared later
      cases caller with
      | control => cases moved <;> exact stays located rfl stopping
      | finish => cases inside
  | shutdownDone located moved =>
      rename_i caller pc shared
      cases caller with
      | control =>
          cases moved
          exact stays located rfl stopping
      | finish => cases inside
  | closeHandles located =>
      rename_i caller
      cases caller with
      | control => exact stays located rfl stopping
      | finish => cases inside
  | lua located internal internal' moved =>
      refine stays located ?_ stopping
      simp only [ThreadPc.part, moved.stops] at inside ⊢
      exact inside
  | inboxClosed located | controlClosed located => exact asked inside stopping
  | selfWake located => rcases located with located | located <;> exact stays located rfl stopping
  | quitDone located | wakeInbox located | wakeControl located | popped located | poppedNone located
  | overloaded located | batchGoesOn located | batchEnds located =>
      exact stays located rfl stopping
  | loopReady | inboxReady | controlReady | luaReady | notStarted | finishLock | luaClosed
  | published => cases inside

/-- A call that stops the service says so. -/
theorem Lifecycle.asked {state : State} (life : Lifecycle state) {next : Shared}
    (moved : PhaseStep state.shared next)
    (asked : state.thread.part.inLoop = true -> 3 ≤ state.shared.state.rank ->
      state.shared.stopRequested = true)
    (inside : state.thread.part.inLoop = true) (stopping : 3 ≤ next.state.rank) :
    next.stopRequested = true := by
  cases moved with
  | same equal =>
      rw [equal.state] at stopping
      exact equal.requested.trans (asked inside stopping)
  | stopNew new =>
      rw [life.new_part new] at inside
      cases inside
  | stop _ _ requested => exact requested
  | start _ after =>
      rw [after] at stopping
      exact absurd stopping (by decide)
  | join past =>
      rcases past with past | ended
      · rw [life.unborn_of_threadless past.1] at inside
        cases inside
      · rw [life.ended_of_threadEnded ended] at inside
        cases inside

theorem closeRuntimeHandles_falling (shared : Shared) : Falling (closeRuntimeHandles shared) := by
  constructor <;>
  · intro ready
    simp only [closeRuntimeHandles, Bool.or_eq_true] at ready ⊢
    exact Or.inr ready

theorem ThreadMove.falling {self : ServiceId} {state next : State}
    (moved : ThreadMove self state next) (control : Control state) (invariant : WaitInvariant state)
    (place : next.shared.controlClosing = true ∨ next.thread = .finishRun) :
    Falling next.shared := by
  have elsewhere {shared : Shared} (same : SameHandles state.shared shared)
      (closing : shared.controlClosing = true ∨ state.thread = .finishRun) : Falling shared :=
    same.falling (invariant.falling (closing.imp same.controlClosing.symm.trans id))
  have stillOpen (closing : state.shared.controlClosing = true)
      (early : state.thread.part.early = true) : False := by
    cases closing.symm.trans (control.early early)
  cases moved with
  | closeHandles => exact closeRuntimeHandles_falling state.shared
  | inboxReady located | controlReady located =>
      rcases place with closing | impossible
      · exact False.elim (stillOpen closing (by rw [located]; rfl))
      · cases impossible
  | inboxClosed located closing ready =>
      exact ⟨Bool.noConfusion, (invariant.falling place).2⟩
  | controlClosed located closing ready =>
      exact ⟨(invariant.falling place).1, Bool.noConfusion⟩
  | published => exact ⟨Bool.noConfusion, Bool.noConfusion⟩
  | quitStep located moved | failStep located moved =>
      exact elsewhere moved.sameWaits.toSameHandles (place.imp_right nofun)
  | shutdownStep located moved =>
      exact elsewhere moved.sameWaits.toSameHandles (place.imp_right nofun)
  | shutdownDone located moved =>
      rename_i caller pc shared
      refine elsewhere moved.sameWaits.toSameHandles (place.imp_right ?_)
      cases caller <;> nofun
  | walk located walked =>
      refine elsewhere ⟨rfl, rfl, rfl, rfl⟩ (place.imp_right fun arrived => ?_)
      subst arrived
      cases walked with
      | notifyNobody _ after | stopDone after => rcases after with after | after <;> cases after
  | overloaded located after =>
      refine elsewhere ⟨rfl, rfl, rfl, rfl⟩ (place.imp_right fun arrived => ?_)
      rw [after] at arrived
      split at arrived
      · cases arrived
      · split at arrived <;> cases arrived
  | _ => exact elsewhere ⟨rfl, rfl, rfl, rfl⟩ (place.imp_right nofun)

/-! ## The invariant -/

theorem fresh_waitInvariant (state : State) (fresh : Fresh state) : WaitInvariant state := by
  rcases fresh with ⟨capacity, cells, box, _sized, _created, rfl⟩
  refine ⟨Bool.noConfusion, ?_, Bool.noConfusion, Bool.noConfusion, ?_⟩
  · intro index fromThread present
    cases present
  · rintro (closing | place)
    · cases closing
    · cases place

theorem step_waitInvariant (self : ServiceId) (state : State) (action : Action) (next : State)
    (reachable : (machine self).Reachable state) (invariant : WaitInvariant state)
    (moved : (machine self).step state action = some next) : WaitInvariant next := by
  have life := reachable_lifecycle reachable
  have created := fun before => step_created reachable before moved
  rcases reachable_step_cases reachable moved with
    ⟨request, rfl⟩ | ⟨index, call, shared, after, present, callMoved, rfl⟩ | threadMoved
  · refine ⟨fun joining => ?_, ?_, invariant.published, invariant.asked, invariant.falling⟩
    · rw [weight_append]
      exact Nat.le_add_right_of_le (invariant.joiner joining)
    · apply forall_append_singleton invariant.waited
      cases request <;> trivial
  · have effect := callMoved.waits (life.calls index call present)
    refine ⟨fun joining => ?_, ?_, ?_, ?_, ?_⟩
    · have exchange := weight_set Call.critical present after
      rcases effect.joiner joining with ⟨before, kept⟩ | critical
      · have held := invariant.joiner before
        simp only
        omega
      · have bound := quantity_le_weight Call.critical
          (List.getElem?_set_self (length_of_getElem? present) (a := after))
        exact Nat.le_trans critical bound
    · apply forall_set fun position member found =>
        (invariant.waited position member found).later created
      intro _
      exact effect.waited
    · intro late
      exact callMoved.keepsDone (invariant.published late)
    · exact life.asked (reachable_phaseStep reachable present callMoved) invariant.asked
    · intro place
      exact effect.handles.falling
        (invariant.falling (place.imp_left effect.handles.controlClosing.symm.trans))
  · refine ⟨fun joining => ?_, ?_, ?_, threadMoved.asked invariant.asked,
      threadMoved.falling (reachable_control reachable) invariant⟩
    · rw [threadMoved.calls]
      exact invariant.joiner ((threadMoved.sameJoin life).joining.symm.trans joining)
    · intro index call present
      rw [threadMoved.calls] at present
      exact (invariant.waited index call present).later created
    · exact threadMoved.publishes life invariant.published

theorem reachable_waitInvariant {self : ServiceId} {state : State}
    (reachable : (machine self).Reachable state) : WaitInvariant state :=
  reachable.induction fresh_waitInvariant (step_waitInvariant self)

end Service
end ServiceRuntime
