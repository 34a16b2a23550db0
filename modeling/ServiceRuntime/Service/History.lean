import ServiceRuntime.Service.Control

namespace ServiceRuntime
namespace Service

open Lua (Letter Co)
open Foundation

/-!
# The history of a service

Some promises of the lifecycle are about the whole life of a service: how
often the thread is created, what the state has been.  The runs are therefore
observed by a log.  It notes every change of `state` with `stop_requested` as
it was, and every call of `pthread_create`, `pthread_join`, `mailbox_delete`
and of `uv_async_send` on the control handle.
-/

inductive Event where
  | entered (phase : Phase) (requested : Bool)
  /-- `pthread_create` in this call of `service_start`. -/
  | created (index : Nat)
  | notCreated (index : Nat) (error : Errno)
  /-- `pthread_join` has returned; `thread_created` as it was. -/
  | reaped (created : Bool)
  /-- `mailbox_delete` begins; whether there was a thread, and whether it had
  ended. -/
  | deleted (created ended : Bool)
  | signalled
  deriving DecidableEq, Repr

/-- What the next step of a call notes. -/
def callEvents (shared : Shared) (index : Nat) (outcome : Outcome) : Call -> List Event
  | .start .lock =>
      if shared.state = .new then
        [if outcome.error = 0 then .created index else .notCreated index outcome.error]
      else []
  | .join _ (.pthreadJoin true) => [.reaped shared.threadCreated]
  | .join _ (.free .delete) | .free .delete => [.deleted shared.threadCreated shared.threadEnded]
  | .stop .signal => [.signalled]
  | _ => []

/-- The call at its `uv_async_send`. -/
def StopPc.sends : StopPc -> Bool
  | .signal => true
  | .retire | .lock | .close _ | .returned => false

def actionEvents (state : State) : Action -> List Event
  | .call _ => []
  | .advance index outcome =>
      match state.calls[index]? with
      | some call => callEvents state.shared index outcome call
      | none => []
  | .thread _ => List.replicate (state.thread.stopsAt StopPc.sends) .signalled

def phaseEvents (shared next : Shared) : List Event :=
  if next.state = shared.state then [] else [.entered next.state shared.stopRequested]

def events (state : State) (action : Action) (next : State) : List Event :=
  phaseEvents state.shared next.shared ++ actionEvents state action

/-- Entering a call is not noted. -/
theorem events_call (state : State) (request : Request) :
    events state (.call request) { state with calls := state.calls ++ [request.call] } = [] := by
  simp only [events, phaseEvents, if_true, actionEvents, List.append_nil]

/-! ## Wake-ups of the control handle -/

def Event.isSignalled : Event -> Bool
  | .signalled => true
  | _ => false

/-- The signals sent and those taken on: there is none before the first
request, and one at most after it. -/
def SignalledOnce (state : State) (log : List Event) : Prop :=
  log.countP Event.isSignalled + state.stops StopPc.signals ≤ state.shared.stopRequested.toNat

theorem countP_phaseEvents (shared next : Shared) :
    (phaseEvents shared next).countP Event.isSignalled = 0 := by
  unfold phaseEvents
  split <;> rfl

/-- What a step of `service_stop` sends and takes on. -/
theorem StopMove.signalled {shared next : Shared} {pc after : StopPc}
    (moved : StopMove shared pc next after) :
    (pc.sends.toNat + after.signals.toNat ≤ pc.signals.toNat ∧
      next.stopRequested = shared.stopRequested) ∨
    (pc.sends = false ∧ next.stopRequested = true ∧
      (shared.stopRequested = true -> after.signals = false)) := by
  cases moved with
  | retire | late => exact Or.inl ⟨Nat.le_refl _, rfl⟩
  | signal => exact Or.inl ⟨Nat.le_refl _, rfl⟩
  | close place =>
      rename_i signal
      refine Or.inl ⟨?_, rfl⟩
      cases signal <;> rw [place] <;> exact Nat.le_refl _
  | stopNew => exact Or.inr ⟨rfl, rfl, fun _ => rfl⟩
  | stop active decided =>
      refine Or.inr ⟨rfl, rfl, fun requested => ?_⟩
      rw [requested] at decided
      exact decided

theorem StopMove.signalledOnce {shared next : Shared} {pc after : StopPc} {sent held later : Nat}
    (moved : StopMove shared pc next after)
    (exchange : later + pc.signals.toNat = held + after.signals.toNat)
    (once : sent + held ≤ shared.stopRequested.toNat) :
    sent + pc.sends.toNat + later ≤ next.stopRequested.toNat := by
  rcases moved.signalled with ⟨handed, same⟩ | ⟨unsent, requested, first⟩
  · rw [same]
    omega
  · rw [unsent, requested, Bool.toNat_false, Bool.toNat_true]
    cases before : shared.stopRequested with
    | true =>
        rw [before, Bool.toNat_true] at once
        rw [first before, Bool.toNat_false] at exchange
        omega
    | false =>
        have one := Bool.toNat_le after.signals
        rw [before, Bool.toNat_false] at once
        omega

theorem countP_callEvents (shared : Shared) (index : Nat) (outcome : Outcome) (call : Call) :
    (callEvents shared index outcome call).countP Event.isSignalled = call.stopsAt StopPc.sends := by
  cases call with
  | stop pc => cases pc <;> rfl
  | start pc =>
      cases pc with
      | lock =>
          simp only [callEvents]
          split
          · split <;> rfl
          · rfl
      | failRetire | failClose | waiting | returned => rfl
  | join fromThread pc =>
      cases pc with
      | pthreadJoin hasThread => cases hasThread <;> rfl
      | free pc => cases pc <;> rfl
      | enter | waiting | publish | finish | returned => rfl
  | free pc => cases pc <;> rfl
  | send => rfl

theorem countP_replicate_signalled (count : Nat) :
    (List.replicate count Event.signalled).countP Event.isSignalled = count := by
  rw [List.countP_replicate]
  rfl

theorem ThreadMove.requested {self : ServiceId} {state next : State}
    (moved : ThreadMove self state next) :
    state.shared.stopRequested.toNat ≤ next.shared.stopRequested.toNat := by
  cases moved with
  | quitStep located moved | failStep located moved =>
      cases moved with
      | stopNew | stop => exact Bool.toNat_le _
      | retire | late | close | signal => exact Nat.le_refl _
  | shutdownStep located moved | shutdownDone located moved =>
      rw [moved.sameControl.requested]
  | _ => exact Nat.le_refl _

theorem step_signalledOnce {self : ServiceId} {state next : State} {action : Action}
    {log : List Event} (reachable : (machine self).Reachable state) (once : SignalledOnce state log)
    (moved : (machine self).step state action = some next) :
    SignalledOnce next (log ++ events state action next) := by
  unfold SignalledOnce at once ⊢
  simp only [events, List.countP_append, countP_phaseEvents, Nat.zero_add]
  cases action with
  | call request =>
      cases moved
      rw [stops_request inner_signals]
      exact once
  | advance index outcome =>
      rcases reachable_advance reachable moved with ⟨call, shared, after, present, callMoved, rfl⟩
      have exchange := @stops_advance StopPc.signals state index call shared after present
      simp only [actionEvents, present, countP_callEvents]
      have beside (same : SameControl state.shared shared) (unsent : call.stopsAt StopPc.sends = 0)
          (idle : call.stopsAt StopPc.signals = 0) (idleAfter : after.stopsAt StopPc.signals = 0) :
          log.countP Event.isSignalled + call.stopsAt StopPc.sends +
              State.stops StopPc.signals
                { state with shared, calls := state.calls.set index after } ≤
            shared.stopRequested.toNat := by
        rw [same.requested]
        omega
      cases callMoved with
      | stop stopMoved => exact stopMoved.signalledOnce exchange once
      | send sendMoved => exact beside sendMoved.sameControl rfl rfl rfl
      | start startMoved => exact beside startMoved.sameControl rfl rfl rfl
      | join joinMoved => exact beside joinMoved.sameControl rfl rfl rfl
      | free freeMoved => exact beside freeMoved.sameControl rfl rfl rfl
  | thread choice =>
      have threadMoved := threadStep_move moved
      simp only [actionEvents, countP_replicate_signalled]
      rcases threadMoved.stops with ⟨pc, after, stopMoved, located⟩ | apart
      · rw [(located StopPc.sends).1]
        refine stopMoved.signalledOnce ?_ once
        simp only [State.stops, threadMoved.calls, (located StopPc.signals).1,
          (located StopPc.signals).2]
        omega
      · have inner : Inner StopPc.sends := ⟨rfl, rfl⟩
        have same : next.stops StopPc.signals = state.stops StopPc.signals := by
          simp only [State.stops, threadMoved.calls, (apart _ inner_signals).1,
            (apart _ inner_signals).2]
        rw [(apart _ inner).1, same, Nat.add_zero]
        exact Nat.le_trans once threadMoved.requested

/-- The wake-up is not lost and not repeated.  While the thread is in the loop
of a RUNNING service, or about to enter it, and nobody closes the handles yet,
a request to stop has its wake-up pending, still to be sent, or being handled
by the control callback; and all the calls of `service_stop` together send one
wake-up at most. -/
theorem stop_request_not_lost {self : ServiceId} {state : State} {log : List Event}
    (reachable : ((machine self).observe events).Reachable (state, log)) :
    (state.thread.part.inLoop = true -> state.shared.stopRequested = true ->
      state.shared.controlClosing = false ->
      state.shared.controlPending = true ∨ 0 < state.stops StopPc.signals ∨
        state.thread.part = .callback) ∧
    log.countP Event.isSignalled ≤ 1 := by
  have control := reachable_control reachable.of_observe
  have once : SignalledOnce state log := by
    apply reachable.observed
    · rintro start ⟨capacity, cells, box, _sized, _created, rfl⟩
      exact Nat.le_refl 0
    · intro state log action next reachable once moved
      exact step_signalledOnce reachable once moved
  constructor
  · intro looping requested isOpen
    have kept := control.kept looping requested
    simp only [tokens, isOpen, Bool.false_and, Bool.toNat_false, Nat.add_zero] at kept
    cases pending : state.shared.controlPending with
    | true => exact Or.inl rfl
    | false =>
        rw [pending, Bool.toNat_false, Nat.add_zero] at kept
        by_cases callback : state.thread.part = .callback
        · exact Or.inr (Or.inr callback)
        · rw [decide_eq_false callback, Bool.toNat_false, Nat.add_zero] at kept
          exact Or.inr (Or.inl kept)
  · have bound := Bool.toNat_le state.shared.stopRequested
    unfold SignalledOnce at once
    omega

/-- Two threads stop a running service. -/
def stopTwice : List Action :=
  let free : Outcome := ⟨none, 0⟩
  List.flatten
    [[.call .start, .advance 0 free],
      List.replicate 11 (.thread .next),
      [.call .stop, .call .stop, .advance 1 free, .advance 2 free],
      List.replicate 3 (.advance 2 free),
      [.advance 1 free]]

theorem stop_request_pending :
    Exists fun state => Exists fun log => ((machine 7).observe events).Reachable (state, log) ∧
      state.calls.drop 1 = [.stop .returned, .stop .returned] ∧
      log.countP Event.isSignalled = 1 ∧
      (state.shared.controlPending = true ∨ 0 < state.stops StopPc.signals ∨
        state.thread.part = .callback) := by
  have ends : (((machine 7).observe events).run (.smallest, []) stopTwice).any (fun final => decide
      (final.1.thread.part.inLoop = true ∧ final.1.shared.stopRequested = true ∧
        final.1.shared.controlClosing = false ∧
        final.1.calls.drop 1 = [.stop .returned, .stop .returned] ∧
        final.2.countP Event.isSignalled = 1)) = true := by
    decide +kernel
  have initial : ((machine 7).observe events).initial (.smallest, []) := ⟨fresh_smallest, rfl⟩
  rcases ((machine 7).observe events).exists_reachable initial ends with
    ⟨⟨state, log⟩, reachable, looping, requested, isOpen, returned, one⟩
  exact ⟨state, log, reachable, returned, one,
    (stop_request_not_lost reachable).1 looping requested isOpen⟩

end Service
end ServiceRuntime
