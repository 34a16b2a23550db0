import ServiceRuntime.Service.Joining

namespace ServiceRuntime
namespace Service

open Lua (Letter Co)
open Foundation

/-!
# Calls of `service_stop` in progress

`service_stop` decides under `state_lock` what it has to do and does it after
the lock is released: it closes the inbox through the pointer it copied, and
signals the control handle.  What others do in between is therefore a question
of where all the calls stand.  A call may belong to another thread or be made
by the service thread itself, from `service.quit` or after a dispatch that
failed.

The inbox may be gone by the time it is closed.  The copied pointer is no pin,
and nothing makes `service_join` wait for it.
-/

/-! ## Counting the calls -/

def Call.stopsAt (kind : StopPc -> Bool) : Call -> Nat
  | .stop pc => (kind pc).toNat
  | _ => 0

def ThreadPc.stopsAt (kind : StopPc -> Bool) : ThreadPc -> Nat
  | .quitting _ pc | .failStop pc => (kind pc).toNat
  | _ => 0

/-- How many calls of `service_stop` stand at a point of this kind. -/
def State.stops (kind : StopPc -> Bool) (state : State) : Nat :=
  weight (Call.stopsAt kind) state.calls + state.thread.stopsAt kind

/-- Neither the entry of `service_stop` nor its return is counted. -/
structure Inner (kind : StopPc -> Bool) : Prop where
  entry : kind .retire = false
  exit : kind .returned = false

section Exchange

variable {kind : StopPc -> Bool}

theorem stops_request (inner : Inner kind) (state : State) (request : Request) :
    State.stops kind { state with calls := state.calls ++ [request.call] } = state.stops kind := by
  have none : (request.call).stopsAt kind = 0 := by
    cases request with
    | stop => exact congrArg Bool.toNat inner.entry
    | send | start | join | free => rfl
  simp only [State.stops, weight_append, weight_cons, weight_nil, none, Nat.add_zero]

/-- A step of a call replaces what it contributes. -/
theorem stops_advance {state : State} {index : Nat} {call : Call} (shared : Shared) (after : Call)
    (present : state.calls[index]? = some call) :
    State.stops kind { state with shared, calls := state.calls.set index after } +
        call.stopsAt kind =
      state.stops kind + after.stopsAt kind := by
  have exchange := weight_set (Call.stopsAt kind) present after
  simp only [State.stops]
  omega

theorem Walk.stopsAt (inner : Inner kind) {state : State} {before after : ThreadPc}
    (walked : Walk state before after) : before.stopsAt kind = 0 ∧ after.stopsAt kind = 0 := by
  cases walked with
  | quit => exact ⟨rfl, congrArg Bool.toNat inner.entry⟩
  | failStopped => exact ⟨congrArg Bool.toNat inner.exit, rfl⟩
  | notifyNobody _ place | stopDone place => rcases place with rfl | rfl <;> exact ⟨rfl, rfl⟩
  | _ => exact ⟨rfl, rfl⟩

end Exchange

/-- A step of the service thread is one of its `service_stop`, or takes place
outside of it. -/
theorem ThreadMove.stops {self : ServiceId} {state next : State}
    (moved : ThreadMove self state next) :
    (Exists fun pc => Exists fun after => StopMove state.shared pc next.shared after ∧
      forall kind, state.thread.stopsAt kind = (kind pc).toNat ∧
        next.thread.stopsAt kind = (kind after).toNat) ∨
    forall kind, Inner kind -> state.thread.stopsAt kind = 0 ∧ next.thread.stopsAt kind = 0 := by
  have apart {place : ThreadPc} (located : state.thread = place)
      (outside : forall kind, Inner kind -> place.stopsAt kind = 0 ∧ next.thread.stopsAt kind = 0) :
      forall kind, Inner kind -> state.thread.stopsAt kind = 0 ∧ next.thread.stopsAt kind = 0 := by
    rw [located]
    exact outside
  cases moved with
  | quitStep located moved =>
      refine Or.inl ⟨_, _, moved, fun kind => ⟨?_, rfl⟩⟩
      rw [located]
      rfl
  | failStep located moved =>
      refine Or.inl ⟨_, _, moved, fun kind => ⟨?_, rfl⟩⟩
      rw [located]
      rfl
  | walk located walked => exact Or.inr (apart located fun kind inner => walked.stopsAt inner)
  | quitDone located =>
      exact Or.inr (apart located fun kind inner => ⟨congrArg Bool.toNat inner.exit, rfl⟩)
  | overloaded located place =>
      refine Or.inr (apart located fun kind inner => ⟨rfl, ?_⟩)
      rw [place]
      split
      · exact congrArg Bool.toNat inner.entry
      · split <;> rfl
  | shutdownDone located moved =>
      rename_i caller pc shared
      refine Or.inr (apart located fun kind inner => ⟨rfl, ?_⟩)
      cases caller <;> rfl
  | closeHandles located =>
      rename_i caller
      refine Or.inr (apart located fun kind inner => ⟨rfl, ?_⟩)
      cases caller <;> rfl
  | selfWake located =>
      rcases located with located | located <;>
        exact Or.inr (apart located fun kind inner => ⟨rfl, rfl⟩)
  | inboxClosed located | controlClosed located =>
      refine Or.inr fun kind inner => ?_
      rcases located with located | located <;> rw [located] <;> exact ⟨rfl, rfl⟩
  | loopReady located | inboxReady located | controlReady located | luaReady located
  | batchGoesOn located | batchEnds located | luaClosed located | wakeInbox located
  | wakeControl located | popped located | poppedNone located | published located
  | finishLock located | shutdownStep located | lua located | notStarted located
  | started located =>
      exact Or.inr (apart located fun kind inner => ⟨rfl, rfl⟩)

/-- Any step is one of some `service_stop`, or changes nothing here. -/
theorem step_stops {kind : StopPc -> Bool} (inner : Inner kind) {self : ServiceId}
    {state next : State} {action : Action} (reachable : (machine self).Reachable state)
    (moved : (machine self).step state action = some next) :
    (Exists fun pc => Exists fun after => StopMove state.shared pc next.shared after ∧
      next.stops kind + (kind pc).toNat = state.stops kind + (kind after).toNat) ∨
    next.stops kind = state.stops kind := by
  rcases reachable_step_cases reachable moved with
    ⟨request, rfl⟩ | ⟨index, call, shared, after, present, callMoved, rfl⟩ | threadMoved
  · exact Or.inr (stops_request inner state request)
  · have exchange := @stops_advance kind state index call shared after present
    cases callMoved with
    | stop stopMoved => exact Or.inl ⟨_, _, stopMoved, exchange⟩
    | send | start | join | free => exact Or.inr exchange
  · simp only [State.stops, threadMoved.calls]
    rcases threadMoved.stops with ⟨pc, after, stopMoved, located⟩ | apart
    · refine Or.inl ⟨pc, after, stopMoved, ?_⟩
      rw [(located kind).1, (located kind).2]
      omega
    · rw [(apart kind inner).1, (apart kind inner).2]
      exact Or.inr rfl

/-! ## The inbox a stop closes -/

/-- Between the section that copies the inbox and `mailbox_close`. -/
def StopPc.closes : StopPc -> Bool
  | .close _ => true
  | .retire | .lock | .signal | .returned => false

/-- The next step of the call begins `mailbox_delete`. -/
def Call.beginsDelete : Call -> Bool
  | .join _ (.free .delete) | .free .delete => true
  | _ => false

/-- No `service_stop` is about to close an inbox whose deletion has begun. -/
def ClosesLiveInbox (state : State) : Prop :=
  state.shared.deleting = true -> state.stops StopPc.closes = 0

/-- `mailbox_delete` does not begin while some `service_stop` has copied the
inbox and not closed it yet. -/
def DeletesUnheld (state : State) : Action -> Prop
  | .advance index _ =>
      state.calls[index]?.any Call.beginsDelete = true -> state.stops StopPc.closes = 0
  | .call _ | .thread _ => True

instance (state : State) : (action : Action) -> Decidable (DeletesUnheld state action)
  | .advance index _ => inferInstanceAs (Decidable (state.calls[index]?.any Call.beginsDelete = true -> _))
  | .call _ | .thread _ => inferInstanceAs (Decidable True)

theorem inner_closes : Inner StopPc.closes := ⟨rfl, rfl⟩

/-- A service being deleted is past the states in which `service_stop` takes
the inbox. -/
structure Removes (state : State) : Prop where
  deleting : state.shared.deleting = true -> 3 ≤ state.shared.state.rank
  calls : forall (index : Nat) call, state.calls[index]? = some call -> call.beginsDelete = true ->
    3 ≤ state.shared.state.rank

theorem FreeMove.removes {shared next : Shared} {pc after : FreePc}
    (moved : FreeMove shared pc next after) (before : pc = .delete -> 3 ≤ shared.state.rank) :
    (after = .delete -> 3 ≤ next.state.rank) ∧
      (next.deleting = true -> shared.deleting = true ∨ 3 ≤ next.state.rank) := by
  cases moved with
  | free => exact ⟨fun _ => (by decide : 3 ≤ Phase.freed.rank), Or.inl⟩
  | delete => exact ⟨FreePc.noConfusion, fun _ => Or.inr (before rfl)⟩
  | retire | wait | busy | dispose | done => exact ⟨FreePc.noConfusion, Or.inl⟩

/-- What a step of a call does to the deletion of the inbox. -/
theorem CallMove.removes {shared next : Shared} {index : Nat} {call after : Call}
    (moved : CallMove shared index call next after)
    (before : call.beginsDelete = true -> 3 ≤ shared.state.rank) :
    (after.beginsDelete = true -> 3 ≤ next.state.rank) ∧
      (next.deleting = true -> shared.deleting = true ∨ 3 ≤ next.state.rank) := by
  have freed {pc : FreePc} {call : Call} (shape : call = .free pc ∨
      Exists fun fromThread => call = .join fromThread (.free pc)) :
      call.beginsDelete = true <-> pc = .delete := by
    rcases shape with rfl | ⟨fromThread, rfl⟩ <;>
      cases pc <;> simp only [Call.beginsDelete, reduceCtorEq]
  cases moved with
  | send moved => cases moved <;> exact ⟨Bool.noConfusion, Or.inl⟩
  | stop moved => cases moved <;> exact ⟨Bool.noConfusion, Or.inl⟩
  | start moved => cases moved <;> exact ⟨Bool.noConfusion, Or.inl⟩
  | free moved =>
      have result := moved.removes fun located => before ((freed (Or.inl rfl)).mpr located)
      exact ⟨fun deletes => result.1 ((freed (Or.inl rfl)).mp deletes), result.2⟩
  | join moved =>
      cases moved with
      | free moved =>
          have result := moved.removes fun located =>
            before ((freed (Or.inr ⟨_, rfl⟩)).mpr located)
          exact ⟨fun deletes => result.1 ((freed (Or.inr ⟨_, rfl⟩)).mp deletes), result.2⟩
      | deadlock | wait | past | refuse | claim | reap | publish | freed | finish =>
          exact ⟨Bool.noConfusion, Or.inl⟩

theorem ThreadMove.deleting {self : ServiceId} {state next : State}
    (moved : ThreadMove self state next) : next.shared.deleting = state.shared.deleting := by
  cases moved with
  | quitStep located moved | failStep located moved => cases moved <;> rfl
  | shutdownStep located moved | shutdownDone located moved => cases moved <;> rfl
  | _ => rfl

theorem reachable_removes {self : ServiceId} {state : State}
    (reachable : (machine self).Reachable state) : Removes state := by
  apply reachable.induction
  · rintro start ⟨capacity, cells, box, _sized, _created, rfl⟩
    exact ⟨Bool.noConfusion, fun index call present => by cases present⟩
  · intro state action next reachable removes moved
    have stable := fun stopping => step_stopping reachable stopping moved
    rcases reachable_step_cases reachable moved with
      ⟨request, rfl⟩ | ⟨index, call, shared, after, present, callMoved, rfl⟩ | threadMoved
    · refine ⟨removes.deleting, ?_⟩
      apply forall_append_singleton removes.calls
      cases request <;> exact Bool.noConfusion
    · have result := callMoved.removes (removes.calls index call present)
      constructor
      · intro deleting
        rcases result.2 deleting with before | late
        · exact stable (removes.deleting before)
        · exact late
      · apply forall_set (fun position member found deletes =>
          stable (removes.calls position member found deletes))
        intro _
        exact result.1
    · constructor
      · intro deleting
        exact stable (removes.deleting (threadMoved.deleting.symm.trans deleting))
      · intro index call present deletes
        rw [threadMoved.calls] at present
        exact stable (removes.calls index call present deletes)

/-- A service told to stop hands its inbox to no further `service_stop`. -/
theorem StopMove.closes_late {shared next : Shared} {pc after : StopPc}
    (moved : StopMove shared pc next after) (late : 3 ≤ shared.state.rank) :
    after.closes = false := by
  cases moved with
  | stopNew new =>
      rw [new] at late
      exact absurd late (by decide)
  | stop active =>
      rcases active with active | active <;> rw [active] at late <;> exact absurd late (by decide)
  | close place =>
      rw [place]
      split <;> rfl
  | retire | late | signal => rfl

/-- Only these steps begin a deletion; they are no steps of `service_stop`. -/
theorem step_begins_deletion {self : ServiceId} {state next : State} {action : Action}
    (reachable : (machine self).Reachable state)
    (moved : (machine self).step state action = some next)
    (before : state.shared.deleting = false) (after : next.shared.deleting = true) :
    Exists fun index => Exists fun outcome => action = .advance index outcome ∧
      state.calls[index]?.any Call.beginsDelete = true := by
  cases action with
  | call request =>
      cases moved
      cases before.symm.trans after
  | thread choice =>
      rw [(threadStep_move moved).deleting, before] at after
      cases after
  | advance index outcome =>
      rcases reachable_advance reachable moved with ⟨call, shared, later, present, callMoved, rfl⟩
      refine ⟨index, outcome, rfl, ?_⟩
      rw [present]
      have same (unchanged : shared.deleting = state.shared.deleting) : call.beginsDelete = true := by
        cases before.symm.trans (unchanged.symm.trans after)
      cases callMoved with
      | send sendMoved => cases sendMoved <;> exact same rfl
      | stop stopMoved => cases stopMoved <;> exact same rfl
      | start startMoved => cases startMoved <;> exact same rfl
      | free freeMoved =>
          cases freeMoved with
          | delete => rfl
          | retire | wait | free | busy | dispose | done => exact same rfl
      | join joinMoved =>
          cases joinMoved with
          | free freeMoved =>
              cases freeMoved with
              | delete => rfl
              | retire | wait | free | busy | dispose | done => exact same rfl
          | deadlock | wait | past | refuse | claim | reap | publish | freed | finish =>
              exact same rfl

/-- What such a step does. -/
theorem step_deletes {self : ServiceId} {state next : State} {index : Nat} {outcome : Outcome}
    (moved : (machine self).step state (.advance index outcome) = some next)
    (deletes : state.calls[index]?.any Call.beginsDelete = true) :
    next.shared.deleting = true ∧ next.stops StopPc.closes = state.stops StopPc.closes := by
  rcases advance_cases moved with ⟨call, shared, after, present, taken, rfl⟩
  have exchange := @stops_advance StopPc.closes state index call shared after present
  rw [present] at deletes
  have inside : call.beginsDelete = true := deletes
  cases call with
  | free pc =>
      cases pc with
      | delete =>
          cases taken
          exact ⟨rfl, exchange⟩
      | retire | wait | lock | dispose | returned => cases inside
  | join fromThread pc =>
      cases pc with
      | free pc =>
          cases pc with
          | delete =>
              cases taken
              exact ⟨rfl, exchange⟩
          | retire | wait | lock | dispose | returned => cases inside
      | enter | waiting | pthreadJoin | publish | finish | returned => cases inside
  | send | stop | start => cases inside

theorem step_closesLiveInbox {self : ServiceId} {state next : State} {action : Action}
    (reachable : (machine self).Reachable state) (live : ClosesLiveInbox state)
    (unheld : DeletesUnheld state action)
    (moved : (machine self).step state action = some next) : ClosesLiveInbox next := by
  intro deleting
  cases before : state.shared.deleting with
  | true =>
      have late := (reachable_removes reachable).deleting before
      have none := live before
      rcases step_stops inner_closes reachable moved with ⟨pc, after, stopMoved, exchange⟩ | same
      · rw [stopMoved.closes_late late, none] at exchange
        exact Nat.eq_zero_of_add_eq_zero_right exchange
      · exact same.trans none
  | false =>
      rcases step_begins_deletion reachable moved before deleting with
        ⟨index, outcome, rfl, deletes⟩
      exact (step_deletes moved deletes).2.trans (unheld deletes)

/-- A run never closes a deleted inbox exactly when it never begins a deletion
under a `service_stop` that has still to use its copy of the pointer. -/
theorem closesLiveInbox_iff_deletesUnheld (self : ServiceId) {start : State} (fresh : Fresh start)
    (schedule : List Action) :
    (machine self).Throughout ClosesLiveInbox start schedule <->
      (machine self).Obeys DeletesUnheld start schedule := by
  have begins : (machine self).Reachable start ∧ ClosesLiveInbox start := by
    refine ⟨⟨start, [], fresh, rfl⟩, ?_⟩
    rcases fresh with ⟨capacity, cells, box, _sized, _created, rfl⟩
    exact Bool.noConfusion
  apply (machine self).throughout_iff_obeys
    (fun state => (machine self).Reachable state ∧ ClosesLiveInbox state) _ _ _ begins
  · rintro state ⟨_, live⟩
    exact live
  · rintro state action next ⟨reachable, live⟩ unheld moved
    exact ⟨reachable.step moved, step_closesLiveInbox reachable live unheld moved⟩
  · rintro state action next ⟨reachable, live⟩ held moved broken
    cases action with
    | advance index outcome =>
        apply held
        intro deletes
        rcases step_deletes moved deletes with ⟨deleting, same⟩
        exact same.symm.trans (broken deleting)
    | call | thread => exact held trivial

/-- A service with the smallest mailbox, just registered. -/
def State.smallest : State :=
  .start
    { items := [⟨⟨0, 0, 0, .system, none⟩, 0⟩], capacity := 1, head := 0, tail := 0, count := 0,
      initialCapacity := 1, overload := 0, overloadThreshold := 1, closed := false,
      scheduled := false }

theorem fresh_smallest : Fresh .smallest :=
  ⟨1, [⟨⟨0, 0, 0, .system, none⟩, 0⟩], _, rfl, rfl, rfl⟩

/-- A service that was never started is stopped by one thread and joined by
another.  The stop is interrupted by the join before or after it has closed
the inbox. -/
def stopAndJoin (closesFirst : Bool) : List Action :=
  let free : Outcome := ⟨none, 0⟩
  List.flatten
    [[.call .stop, .advance 0 free, .advance 0 free],
      List.replicate closesFirst.toNat (.advance 0 free),
      [.call (.join false)],
      List.replicate 7 (.advance 1 free)]

theorem closesLiveInbox_orderly :
    (((machine 7).run .smallest (stopAndJoin true)).any fun final => final.shared.deleting) = true ∧
      (machine 7).Throughout ClosesLiveInbox .smallest (stopAndJoin true) := by
  have obeys : (machine 7).Obeys DeletesUnheld .smallest (stopAndJoin true) := by decide +kernel
  exact ⟨by decide +kernel, (closesLiveInbox_iff_deletesUnheld 7 fresh_smallest _).mpr obeys⟩

theorem stop_closes_deleted_inbox :
    Exists fun state => (machine 7).Reachable state ∧ state.shared.deleting = true ∧
      state.calls[0]? = some (.stop (.close false)) ∧ ¬ ClosesLiveInbox state := by
  have ends : ((machine 7).run .smallest (stopAndJoin false)).any (fun final => decide
      (final.shared.deleting = true ∧ final.calls[0]? = some (.stop (.close false)) ∧
        final.stops StopPc.closes = 1)) = true := by
    decide +kernel
  rcases (machine 7).exists_reachable fresh_smallest ends with ⟨state, reachable, deleting, stop, one⟩
  refine ⟨state, reachable, deleting, stop, fun live => ?_⟩
  cases one.symm.trans (live deleting)

end Service
end ServiceRuntime
