import ServiceRuntime.Service.Starting

namespace ServiceRuntime
namespace Service

open Lua (Letter Co)
open Foundation

/-!
# What `service_join` does

The admitted join waits for the thread, publishes JOINED and frees the
service; the others return when it is done.  The log shows one `pthread_join`,
on a thread that was created, and one `mailbox_delete`, after the thread has
ended.
-/

def Event.isReaped : Event -> Bool
  | .reaped _ => true
  | _ => false

def Event.isDeleted : Event -> Bool
  | .deleted _ _ => true
  | _ => false

/-- Inside `pthread_join`. -/
def Call.reaping : Call -> Nat
  | .join _ (.pthreadJoin true) => 1
  | _ => 0

/-- Back from it, with the result still to be published. -/
def Call.reaped : Call -> Nat
  | .join _ .publish => 1
  | _ => 0

def FreePc.ahead : FreePc -> Bool
  | .retire | .wait | .lock | .delete => true
  | .dispose | .returned _ => false

/-- Admitted, and `mailbox_delete` is still to come. -/
def Call.ahead : Call -> Bool
  | .join _ (.pthreadJoin _) | .join _ .publish => true
  | .join _ (.free pc) => pc.ahead
  | _ => false

theorem Call.critical_of_ahead {call : Call} (ahead : call.ahead = true) : call.critical = 1 := by
  cases call with
  | join fromThread pc =>
      cases pc with
      | pthreadJoin | publish | free => rfl
      | enter | waiting | finish | returned => cases ahead
  | send | stop | start | free => cases ahead

structure JoinHistory (state : State) (log : List Event) : Prop where
  reaps : log.countP Event.isReaped ≤
    weight Call.reaped state.calls + state.shared.threadJoined.toNat
  threads : forall created, Event.reaped created ∈ log -> created = true
  waits : forall (index : Nat) fromThread,
    state.calls[index]? = some (.join fromThread (.pthreadJoin true)) ->
      state.shared.threadCreated = true
  deletions : log.countP Event.isDeleted ≤ state.shared.deleting.toNat
  ahead : forall (index : Nat) call, state.calls[index]? = some call -> call.ahead = true ->
    state.shared.deleting = false
  deleted : state.shared.deleting = true -> state.shared.threadJoined = true
  outlived : forall created ended, Event.deleted created ended ∈ log -> created = true ->
    ended = true
  returned : forall (index : Nat) fromThread,
    state.calls[index]? = some (.join fromThread (.returned 0)) -> state.shared.state = .freed

/-- What a step of the call at `index` has to show. -/
structure JoinEffect (state : State) (shared : Shared) (index : Nat) (call after : Call)
    (extra : List Event) : Prop where
  reaps : extra.countP Event.isReaped + call.reaped + state.shared.threadJoined.toNat ≤
    after.reaped + shared.threadJoined.toNat
  threads : forall created, Event.reaped created ∈ extra -> created = true
  waits : forall fromThread, after = .join fromThread (.pthreadJoin true) ->
    shared.threadCreated = true
  deletions : extra.countP Event.isDeleted + state.shared.deleting.toNat ≤ shared.deleting.toNat
  others : forall (position : Nat) other, position ≠ index -> state.calls[position]? = some other ->
    other.ahead = true -> shared.deleting = false
  ahead : after.ahead = true -> shared.deleting = false
  deleted : shared.deleting = true -> shared.threadJoined = true
  outlived : forall created ended, Event.deleted created ended ∈ extra -> created = true ->
    ended = true
  returned : forall fromThread, after = .join fromThread (.returned 0) -> shared.state = .freed

theorem JoinHistory.advance {state : State} {log extra : List Event} (history : JoinHistory state log)
    {index : Nat} {call after : Call} {shared : Shared} (present : state.calls[index]? = some call)
    (created : state.shared.threadCreated = true -> shared.threadCreated = true)
    (freed : state.shared.state = .freed -> shared.state = .freed)
    (effect : JoinEffect state shared index call after extra) :
    JoinHistory { state with shared, calls := state.calls.set index after } (log ++ extra) := by
  have exchange := weight_set Call.reaped present after
  have reaps := history.reaps
  have reaping := effect.reaps
  have deletions := history.deletions
  have deleting := effect.deletions
  refine ⟨?_, ?_, ?_, ?_, ?_, effect.deleted, ?_, ?_⟩
  · rw [List.countP_append]
    show _ ≤ weight Call.reaped (state.calls.set index after) + shared.threadJoined.toNat
    omega
  · intro created member
    rcases List.mem_append.mp member with earlier | now
    · exact history.threads created earlier
    · exact effect.threads created now
  · have every : forall (position : Nat) other, (state.calls.set index after)[position]? = some other ->
        forall fromThread, other = .join fromThread (.pthreadJoin true) ->
          shared.threadCreated = true := by
      apply forall_set
      · intro position other found fromThread shape
        rw [shape] at found
        exact created (history.waits position fromThread found)
      · intro _
        exact effect.waits
    intro position fromThread found
    exact every position _ found fromThread rfl
  · rw [List.countP_append]
    show _ ≤ shared.deleting.toNat
    omega
  · apply forall_set_others
    · exact effect.others
    · intro _
      exact effect.ahead
  · intro created ended member
    rcases List.mem_append.mp member with earlier | now
    · exact history.outlived created ended earlier
    · exact effect.outlived created ended now
  · have every : forall (position : Nat) other, (state.calls.set index after)[position]? = some other ->
        forall fromThread, other = .join fromThread (.returned 0) -> shared.state = .freed := by
      apply forall_set
      · intro position other found fromThread shape
        rw [shape] at found
        exact freed (history.returned position fromThread found)
      · intro _
        exact effect.returned
    intro position fromThread found
    exact every position _ found fromThread rfl

/-! ## Steps that neither reap nor delete -/

def Event.Still (event : Event) : Prop :=
  event.isReaped = false ∧ event.isDeleted = false

section Still

variable {extra : List Event} (still : forall event, event ∈ extra -> event.Still)

include still

theorem countP_reaped_still : extra.countP Event.isReaped = 0 := by
  rw [List.countP_eq_zero]
  intro event member reaped
  cases (still event member).1.symm.trans reaped

theorem countP_deleted_still : extra.countP Event.isDeleted = 0 := by
  rw [List.countP_eq_zero]
  intro event member deleted
  cases (still event member).2.symm.trans deleted

/-- The step leaves `thread_joined` and the inbox alone. -/
theorem JoinHistory.plain {state : State} {log : List Event} (history : JoinHistory state log)
    {index : Nat} {call after : Call} {shared : Shared} (present : state.calls[index]? = some call)
    (joined : shared.threadJoined = state.shared.threadJoined)
    (deleting : shared.deleting = state.shared.deleting) (reaped : call.reaped ≤ after.reaped)
    (waits : forall fromThread, after ≠ .join fromThread (.pthreadJoin true))
    (ahead : after.ahead = true -> call.ahead = true)
    (returned : forall fromThread, after = .join fromThread (.returned 0) ->
      shared.state = .freed) : JoinEffect state shared index call after extra := by
  refine ⟨?_, ?_, ?_, ?_, ?_, ?_, ?_, ?_, returned⟩
  · rw [countP_reaped_still still, joined]
    omega
  · intro created member
    cases (still _ member).1
  · intro fromThread shape
    exact False.elim (waits fromThread shape)
  · rw [countP_deleted_still still, deleting, Nat.zero_add]
  · intro position other _ beside otherAhead
    rw [deleting]
    exact history.ahead position other beside otherAhead
  · intro isAhead
    rw [deleting]
    exact history.ahead index call present (ahead isAhead)
  · rw [deleting, joined]
    exact history.deleted
  · intro created ended member
    cases (still _ member).2

end Still

theorem phaseEvents_still (shared next : Shared) :
    forall event, event ∈ phaseEvents shared next -> event.Still := by
  intro event member
  unfold phaseEvents at member
  split at member
  · cases member
  · rw [List.mem_singleton.mp member]
    exact ⟨rfl, rfl⟩

theorem callEvents_still {shared : Shared} {index : Nat} {outcome : Outcome} {call : Call}
    (unreaped : forall fromThread, call ≠ .join fromThread (.pthreadJoin true))
    (undeleted : call.beginsDelete = false) :
    forall event, event ∈ callEvents shared index outcome call -> event.Still := by
  intro event member
  unfold callEvents at member
  split at member
  · split at member
    · split at member <;> rw [List.mem_singleton.mp member] <;> exact ⟨rfl, rfl⟩
    · cases member
  · exact False.elim (unreaped _ rfl)
  · cases undeleted
  · cases undeleted
  · rw [List.mem_singleton.mp member]
    exact ⟨rfl, rfl⟩
  · cases member

theorem advance_still {state next : State} {index : Nat} (outcome : Outcome) {call : Call}
    (present : state.calls[index]? = some call)
    (unreaped : forall fromThread, call ≠ .join fromThread (.pthreadJoin true))
    (undeleted : call.beginsDelete = false) :
    forall event, event ∈ events state (.advance index outcome) next -> event.Still := by
  intro event member
  rcases List.mem_append.mp member with phase | own
  · exact phaseEvents_still _ _ event phase
  · simp only [actionEvents, present] at own
    exact callEvents_still unreaped undeleted event own

/-! ## Steps of the admitted join -/

section Admitted

variable {state : State} {log : List Event} {index : Nat} {outcome : Outcome} {shared : Shared}
  {fromThread : Bool}

/-- Beside the admitted join nobody has a deletion ahead. -/
theorem JoinInvariant.nobody_ahead (invariant : JoinInvariant state) {call : Call}
    (present : state.calls[index]? = some call) (inside : call.critical = 1) :
    forall (position : Nat) other, position ≠ index -> state.calls[position]? = some other ->
      other.ahead = true -> shared.deleting = false := by
  intro position other distinct beside ahead
  have idle := (invariant.alone present inside).2 position other distinct beside
  cases idle.symm.trans (Call.critical_of_ahead ahead)

theorem JoinHistory.claim (history : JoinHistory state log) (life : Lifecycle state) {pc : JoinPc}
    {hasThread : Bool} {extra : List Event} (still : forall event, event ∈ extra -> event.Still)
    (present : state.calls[index]? = some (.join fromThread pc))
    (arrives : Arrives state.shared hasThread pc) (unjoined : state.shared.threadJoined ≠ true) :
    JoinEffect state { state.shared with joining := true } index (.join fromThread pc)
      (.join fromThread (.pthreadJoin hasThread)) extra := by
  have intact : state.shared.deleting = false :=
    (Bool.not_eq_true _).mp fun deleting => unjoined (history.deleted deleting)
  refine ⟨?_, ?_, ?_, ?_, ?_, fun _ => intact, ?_, ?_, ?_⟩
  · rw [countP_reaped_still still]
    rcases arrives.2 with ⟨rfl, _⟩ | rfl <;> exact Nat.le_refl _
  · intro created member
    cases (still _ member).1
  · intro other shape
    cases shape
    rcases arrives.2 with ⟨rfl, own⟩ | rfl
    · exact own.symm
    · exact (life.calls index _ present).1 rfl
  · rw [countP_deleted_still still, Nat.zero_add]
  · intro position other _ _ _
    exact intact
  · intro deleting
    cases intact.symm.trans deleting
  · intro created ended member
    cases (still _ member).2
  · intro other shape
    cases shape

/-- `pthread_join` returns. -/
theorem JoinHistory.reap (history : JoinHistory state log) (invariant : JoinInvariant state)
    (present : state.calls[index]? = some (.join fromThread (.pthreadJoin true))) :
    JoinEffect state state.shared index (.join fromThread (.pthreadJoin true))
      (.join fromThread .publish) [.reaped state.shared.threadCreated] := by
  have unjoined : state.shared.threadJoined = false := invariant.calls index _ present
  have intact := history.ahead index _ present rfl
  refine ⟨?_, ?_, ?_, ?_, ?_, fun _ => intact, history.deleted, ?_, ?_⟩
  · rw [unjoined]
    exact Nat.le_refl 1
  · intro created member
    cases List.mem_singleton.mp member
    exact history.waits index fromThread present
  · intro other shape
    cases shape
  · exact Nat.le_of_eq (Nat.zero_add _)
  · exact fun position other _ => history.ahead position other
  · intro created ended member
    cases List.mem_singleton.mp member
  · intro other shape
    cases shape

theorem JoinHistory.publish (history : JoinHistory state log) (invariant : JoinInvariant state)
    {extra : List Event} (still : forall event, event ∈ extra -> event.Still)
    (present : state.calls[index]? = some (.join fromThread .publish)) :
    JoinEffect state { state.shared with joinError := 0, threadJoined := true, state := .joined }
      index (.join fromThread .publish) (.join fromThread (.free .retire)) extra := by
  have unjoined : state.shared.threadJoined = false := invariant.calls index _ present
  have intact := history.ahead index _ present rfl
  refine ⟨?_, ?_, ?_, ?_, ?_, fun _ => intact, fun _ => rfl, ?_, ?_⟩
  · rw [countP_reaped_still still, unjoined]
    exact Nat.le_refl 1
  · intro created member
    cases (still _ member).1
  · intro other shape
    cases shape
  · rw [countP_deleted_still still, Nat.zero_add]
  · exact fun position other _ => history.ahead position other
  · intro created ended member
    cases (still _ member).2
  · intro other shape
    cases shape

theorem JoinHistory.delete (history : JoinHistory state log) (life : Lifecycle state)
    (invariant : JoinInvariant state)
    (present : state.calls[index]? = some (.join fromThread (.free .delete))) :
    JoinEffect state { state.shared with deleting := true, box := state.shared.box.close } index
      (.join fromThread (.free .delete)) (.join fromThread (.free .dispose))
      [.deleted state.shared.threadCreated state.shared.threadEnded] := by
  have freed : state.shared.state = .freed := invariant.calls index _ present
  have intact := history.ahead index _ present rfl
  refine ⟨?_, ?_, ?_, ?_, ?_, Bool.noConfusion, ?_, ?_, ?_⟩
  · exact Nat.le_refl _
  · intro created member
    cases List.mem_singleton.mp member
  · intro other shape
    cases shape
  · rw [intact]
    exact Nat.le_refl 1
  · exact invariant.nobody_ahead present rfl
  · intro _
    exact invariant.late (by rw [freed]; decide)
  · intro created ended member born
    cases List.mem_singleton.mp member
    rcases Stage.Fits.late life.stage (by rw [freed]; decide) with threadless | past
    · cases threadless.1.symm.trans born
    · exact past
  · intro other shape
    cases shape

/-- The steps of `service_free` within the join. -/
theorem JoinHistory.free (history : JoinHistory state log) (life : Lifecycle state)
    (invariant : JoinInvariant state) {pc after : FreePc}
    (present : state.calls[index]? = some (.join fromThread (.free pc)))
    (moved : FreeMove state.shared pc shared after) :
    JoinEffect state shared index (.join fromThread (.free pc)) (.join fromThread (.free after))
      (events state (.advance index outcome)
        { state with shared, calls := state.calls.set index (.join fromThread (.free after)) }) := by
  have plain (joined : shared.threadJoined = state.shared.threadJoined)
      (deleting : shared.deleting = state.shared.deleting) (elsewhere : pc ≠ .delete)
      (ahead : after.ahead = true -> pc.ahead = true) :
      JoinEffect state shared index (.join fromThread (.free pc)) (.join fromThread (.free after))
        (events state (.advance index outcome)
          { state with shared, calls := state.calls.set index (.join fromThread (.free after)) }) := by
    have undeleted : (Call.join fromThread (.free pc)).beginsDelete = false := by
      cases pc with
      | delete => exact False.elim (elsewhere rfl)
      | retire | wait | lock | dispose | returned => rfl
    refine JoinHistory.plain (advance_still outcome present ?_ undeleted) history present joined
      deleting (Nat.le_refl 0) ?_ ahead ?_
    · intro other shape
      cases shape
    · intro other shape
      cases shape
    · intro other shape
      cases shape
  cases moved with
  | retire | wait | free | busy => exact plain rfl rfl FreePc.noConfusion (fun _ => rfl)
  | dispose | done => exact plain rfl rfl FreePc.noConfusion Bool.noConfusion
  | delete =>
      have noted : events state (.advance index outcome)
          { state with
            shared := { state.shared with deleting := true, box := state.shared.box.close }
            calls := state.calls.set index (.join fromThread (.free .dispose)) } =
          [.deleted state.shared.threadCreated state.shared.threadEnded] := by
        simp only [events, phaseEvents, if_true, actionEvents, present, callEvents, List.nil_append]
      rw [noted]
      exact history.delete life invariant present

/-- The call is at no place where it reaps or deletes. -/
def JoinPc.calm : JoinPc -> Bool
  | .pthreadJoin true | .free _ => false
  | .enter | .waiting _ | .pthreadJoin false | .publish | .finish _ | .returned _ => true

theorem calm_still {next : State} {pc : JoinPc}
    (present : state.calls[index]? = some (.join fromThread pc)) (calm : pc.calm = true) :
    forall event, event ∈ events state (.advance index outcome) next -> event.Still := by
  apply advance_still outcome present
  · intro other shape
    cases shape
    cases calm
  · cases pc with
    | free => cases calm
    | enter | waiting | pthreadJoin | publish | finish | returned => rfl

theorem JoinHistory.join (history : JoinHistory state log) (life : Lifecycle state)
    (invariant : JoinInvariant state) {pc after : JoinPc}
    (present : state.calls[index]? = some (.join fromThread pc))
    (moved : JoinMove state.shared fromThread pc shared after) :
    JoinEffect state shared index (.join fromThread pc) (.join fromThread after)
      (events state (.advance index outcome)
        { state with shared, calls := state.calls.set index (.join fromThread after) }) := by
  -- The call returns, or waits for another.
  have leaves (calm : pc.calm = true) (joined : shared.threadJoined = state.shared.threadJoined)
      (deleting : shared.deleting = state.shared.deleting)
      (unpublished : (Call.join fromThread pc).reaped = 0)
      (place : (Exists fun error => after = .returned error) ∨
        Exists fun hasThread => after = .waiting hasThread)
      (returned : after = .returned 0 -> shared.state = .freed) :
      JoinEffect state shared index (.join fromThread pc) (.join fromThread after)
        (events state (.advance index outcome)
          { state with shared, calls := state.calls.set index (.join fromThread after) }) := by
    refine JoinHistory.plain (calm_still present calm) history present joined deleting ?_ ?_ ?_ ?_
    · rw [unpublished]
      exact Nat.zero_le _
    · intro other shape
      rcases place with ⟨error, rfl⟩ | ⟨hasThread, rfl⟩ <;> cases shape
    · intro ahead
      rcases place with ⟨error, rfl⟩ | ⟨hasThread, rfl⟩ <;> cases ahead
    · intro other shape
      cases shape
      exact returned rfl
  cases moved with
  | deadlock =>
      refine leaves rfl rfl rfl rfl (Or.inl ⟨_, rfl⟩) fun zero => ?_
      cases zero
  | wait =>
      refine leaves rfl rfl rfl rfl (Or.inr ⟨_, rfl⟩) fun impossible => ?_
      cases impossible
  | past arrives done =>
      have before : pc.calm = true ∧ (Call.join fromThread pc).reaped = 0 := by
        rcases arrives.2 with ⟨rfl, _⟩ | rfl <;> exact ⟨rfl, rfl⟩
      refine leaves before.1 rfl rfl before.2 (Or.inl ⟨_, rfl⟩) fun _ => ?_
      rcases done with joined | freed
      · exact invariant.settled joined arrives.1
      · exact freed
  | refuse arrives =>
      have before : pc.calm = true ∧ (Call.join fromThread pc).reaped = 0 := by
        rcases arrives.2 with ⟨rfl, _⟩ | rfl <;> exact ⟨rfl, rfl⟩
      refine leaves before.1 rfl rfl before.2 (Or.inl ⟨_, rfl⟩) fun zero => ?_
      cases zero
  | claim arrives unjoined allowed =>
      have calm : pc.calm = true := by
        rcases arrives.2 with ⟨rfl, _⟩ | rfl <;> rfl
      exact history.claim life (calm_still present calm) present arrives
        fun joined => unjoined (Or.inl joined)
  | reap gone =>
      rename_i hasThread
      cases hasThread with
      | true =>
          have noted : events state (.advance index outcome)
              { state with calls := state.calls.set index (.join fromThread .publish) } =
              [.reaped state.shared.threadCreated] := by
            simp only [events, phaseEvents, if_true, actionEvents, present, callEvents, List.nil_append]
          rw [noted]
          exact history.reap invariant present
      | false =>
          refine JoinHistory.plain (calm_still present rfl) history present rfl rfl (Nat.zero_le _)
            ?_ (fun _ => rfl) ?_
          · intro other shape
            cases shape
          · intro other shape
            cases shape
  | publish => exact history.publish invariant (calm_still present rfl) present
  | free moved => exact history.free life invariant present moved
  | freed =>
      refine JoinHistory.plain (advance_still outcome present ?_ rfl) history present rfl rfl
        (Nat.le_refl 0) ?_ Bool.noConfusion ?_
      · intro other shape
        cases shape
      · intro other shape
        cases shape
      · intro other shape
        cases shape
  | finish =>
      have joins := invariant.calls index _ present
      exact leaves rfl rfl rfl rfl (Or.inl ⟨_, rfl⟩) fun _ => joins.1

end Admitted

/-! ## All steps -/

theorem JoinHistory.request {state : State} {log : List Event} (history : JoinHistory state log)
    (request : Request) :
    JoinHistory { state with calls := state.calls ++ [request.call] } log := by
  refine ⟨?_, history.threads, ?_, history.deletions, ?_, history.deleted, history.outlived, ?_⟩
  · have reaps := history.reaps
    simp only [weight_append, weight_cons, weight_nil]
    omega
  · have every : forall (index : Nat) call, (state.calls ++ [request.call])[index]? = some call ->
        forall fromThread, call = .join fromThread (.pthreadJoin true) ->
          state.shared.threadCreated = true := by
      apply forall_append_singleton
      · rintro index call present fromThread rfl
        exact history.waits index fromThread present
      · intro fromThread shape
        cases request <;> cases shape
    intro index fromThread present
    exact every index _ present fromThread rfl
  · apply forall_append_singleton history.ahead
    cases request <;> exact Bool.noConfusion
  · have every : forall (index : Nat) call, (state.calls ++ [request.call])[index]? = some call ->
        forall fromThread, call = .join fromThread (.returned 0) -> state.shared.state = .freed := by
      apply forall_append_singleton
      · rintro index call present fromThread rfl
        exact history.returned index fromThread present
      · intro fromThread shape
        cases request <;> cases shape
    intro index fromThread present
    exact every index _ present fromThread rfl

theorem thread_still (state next : State) (choice : ThreadChoice) :
    forall event, event ∈ events state (.thread choice) next -> event.Still := by
  intro event member
  rcases List.mem_append.mp member with phase | signal
  · exact phaseEvents_still _ _ event phase
  · rw [List.eq_of_mem_replicate signal]
    exact ⟨rfl, rfl⟩

theorem JoinHistory.thread {self : ServiceId} {state next : State} {log extra : List Event}
    (history : JoinHistory state log) (life : Lifecycle state) (moved : ThreadMove self state next)
    (still : forall event, event ∈ extra -> event.Still) : JoinHistory next (log ++ extra) := by
  have same := moved.sameJoin life
  have frame := threadMove_frame moved
  constructor
  · rw [List.countP_append, countP_reaped_still still, moved.calls, same.joined]
    exact history.reaps
  · intro created member
    rcases List.mem_append.mp member with earlier | now
    · exact history.threads created earlier
    · cases (still _ now).1
  · rw [moved.calls, frame.1]
    exact history.waits
  · rw [List.countP_append, countP_deleted_still still, moved.deleting]
    exact history.deletions
  · rw [moved.calls, moved.deleting]
    exact history.ahead
  · rw [moved.deleting, same.joined]
    exact history.deleted
  · intro created ended member
    rcases List.mem_append.mp member with earlier | now
    · exact history.outlived created ended earlier
    · cases (still _ now).2
  · intro index fromThread present
    rw [moved.calls] at present
    exact same.keeps_freed (history.returned index fromThread present)

theorem step_joinHistory {self : ServiceId} {state next : State} {action : Action}
    {log : List Event} (reachable : (machine self).Reachable state) (invariant : JoinInvariant state)
    (history : JoinHistory state log) (moved : (machine self).step state action = some next) :
    JoinHistory next (log ++ events state action next) := by
  have life := reachable_lifecycle reachable
  cases action with
  | call request =>
      cases moved
      rw [events_call, List.append_nil]
      exact history.request request
  | thread choice =>
      have threadMoved := threadStep_move moved
      exact history.thread life threadMoved (thread_still state next choice)
  | advance index outcome =>
      rcases reachable_advance reachable moved with ⟨call, shared, after, present, callMoved, rfl⟩
      have phase := (callMoved.phase (life.calls index call present)
        (Stage.Fits.late life.stage) life.joining).1
      apply history.advance present phase.created (callMoved.freed invariant present)
      -- A call that is no join.
      have other (outside : forall fromThread pc, call ≠ .join fromThread pc)
          (outsideAfter : forall fromThread pc, after ≠ .join fromThread pc)
          (undeleted : call.beginsDelete = false) (unreaped : call.reaped = 0)
          (ahead : after.ahead = false) (same : SameJoin state.shared shared)
          (deleting : shared.deleting = state.shared.deleting) :
          JoinEffect state shared index call after (events state (.advance index outcome)
            { state with shared, calls := state.calls.set index after }) := by
        refine JoinHistory.plain (advance_still outcome present (fun _ => outside _ _) undeleted)
          history present same.joined deleting ?_ (fun _ => outsideAfter _ _) ?_ ?_
        · rw [unreaped]
          exact Nat.zero_le _
        · intro isAhead
          cases ahead.symm.trans isAhead
        · intro fromThread shape
          exact False.elim (outsideAfter _ _ shape)
      cases callMoved with
      | join joinMoved => exact history.join life invariant present joinMoved
      | free freeMoved => exact False.elim (invariant.calls index _ present)
      | send sendMoved =>
          exact other (fun _ _ => Call.noConfusion) (fun _ _ => Call.noConfusion) rfl rfl rfl
            sendMoved.sameJoin (by cases sendMoved <;> rfl)
      | stop stopMoved =>
          exact other (fun _ _ => Call.noConfusion) (fun _ _ => Call.noConfusion) rfl rfl rfl
            stopMoved.sameJoin (by cases stopMoved <;> rfl)
      | start startMoved =>
          exact other (fun _ _ => Call.noConfusion) (fun _ _ => Call.noConfusion) rfl rfl rfl
            startMoved.sameJoin (by cases startMoved <;> rfl)

/-! ## The lifecycle -/

/-- What the state of a service and its log show at any moment. -/
structure Orderly (state : State) (log : List Event) : Prop where
  /-- The state only rises; what was entered last is what it is. -/
  rising : (log.filterMap Event.phase).Pairwise fun earlier later => earlier.rank < later.rank
  current : state.shared.state = (log.filterMap Event.phase).getLast?.getD .new
  /-- RUNNING is not entered once a stop has been requested. -/
  unrequested : Event.entered .running true ∉ log
  createdOnce : log.countP Event.isCreated ≤ 1
  /-- `pthread_join` is in progress or has returned at most once. -/
  joinedOnce : log.countP Event.isReaped + weight Call.reaping state.calls ≤ 1
  joinedThread : Event.reaped false ∉ log ∧
    (0 < weight Call.reaping state.calls -> state.shared.threadCreated = true)
  /-- What the creator of the thread returns. -/
  creator : forall (index : Nat) error, Event.created index ∈ log ->
    state.calls[index]? = some (.start (.returned error)) ->
      (error = 0 <-> Started log) ∧ (error = ECANCELED -> state.shared.stopRequested = true)
  /-- What the others return. -/
  others : forall (index : Nat) error, Event.created index ∉ log ->
    state.calls[index]? = some (.start (.returned error)) ->
      error = EALREADY ∨ Event.notCreated index error ∈ log
  deletedOnce : log.countP Event.isDeleted ≤ 1
  outlived : Event.deleted true false ∉ log
  joined : forall (index : Nat) fromThread,
    state.calls[index]? = some (.join fromThread (.returned 0)) -> state.shared.state = .freed

structure Histories (state : State) (log : List Event) : Prop where
  phases : PhaseHistory state log
  starts : StartHistory state log
  joins : JoinHistory state log

theorem fresh_histories (state : State) (fresh : Fresh state) : Histories state [] := by
  rcases fresh with ⟨capacity, cells, box, _sized, _created, rfl⟩
  have nobody {property : Prop} (index : Nat) (call : Call)
      (present : (State.start box).calls[index]? = some call) : property := by cases present
  have nothing {property : Prop} (event : Event) (member : event ∈ []) : property := by cases member
  refine ⟨⟨List.Pairwise.nil, ?_, rfl, ?_⟩, ⟨rfl, ?_, ?_, Bool.noConfusion, ?_, ?_, ?_, ?_⟩,
    ⟨Nat.le_refl 0, ?_, ?_, Nat.le_refl 0, ?_, Bool.noConfusion, ?_, ?_⟩⟩
  · intro phase member
    cases member
  · exact fun requested => nothing _
  · exact fun index => nothing _
  · exact fun index call => nobody index call
  · exact fun _ => Bool.noConfusion
  · rintro _ ⟨requested, member⟩
    exact nothing _ member
  · show (0 : Errno) ≠ ECANCELED
    decide
  · exact fun _ => rfl
  · exact fun created => nothing _
  · exact fun index fromThread => nobody index _
  · exact fun index call => nobody index call
  · exact fun created ended => nothing _
  · exact fun index fromThread => nobody index _

theorem proper_histories {self : ServiceId} {state : State} {log : List Event}
    (reachable : (((machine self).restrict Proper).observe events).Reachable (state, log)) :
    Histories state log := by
  apply reachable.observed
  · exact fresh_histories
  · intro state log action next reachable histories moved
    have invariant := proper_joinInvariant reachable
    rcases Machine.restrict_step_eq_some moved with ⟨proper, taken⟩
    have plain := reachable.of_restrict
    exact ⟨step_phaseHistory plain invariant histories.phases taken,
      step_startHistory plain invariant histories.starts proper taken,
      step_joinHistory plain invariant histories.joins taken⟩

theorem reaped_reaping_le_critical (call : Call) : call.reaped + call.reaping ≤ call.critical := by
  cases call with
  | join fromThread pc =>
      cases pc with
      | pthreadJoin hasThread =>
          cases hasThread with
          | true => exact Nat.le_refl 1
          | false => exact Nat.zero_le 1
      | publish => exact Nat.le_refl 1
      | free | finish => exact Nat.zero_le 1
      | enter | waiting | returned => exact Nat.le_refl 0
  | send | stop | start | free => exact Nat.le_refl 0

/-- Once the thread is joined nobody is inside or back from `pthread_join`. -/
theorem JoinInvariant.settled_reaps {state : State} (invariant : JoinInvariant state)
    (joined : state.shared.threadJoined = true) :
    weight Call.reaped state.calls = 0 ∧ weight Call.reaping state.calls = 0 := by
  have unjoined {index : Nat} {fromThread : Bool} {pc : JoinPc}
      (present : state.calls[index]? = some (.join fromThread pc))
      (place : pc = .publish ∨ Exists fun hasThread => pc = .pthreadJoin hasThread) : False := by
    have joins := invariant.calls index _ present
    rcases place with rfl | ⟨hasThread, rfl⟩ <;> cases joined.symm.trans joins
  constructor
  · apply weight_eq_zero
    intro index call present
    cases call with
    | join fromThread pc =>
        cases pc with
        | publish => exact False.elim (unjoined present (Or.inl rfl))
        | enter | waiting | pthreadJoin | free | finish | returned => rfl
    | send | stop | start | free => rfl
  · apply weight_eq_zero
    intro index call present
    cases call with
    | join fromThread pc =>
        cases pc with
        | pthreadJoin hasThread => exact False.elim (unjoined present (Or.inr ⟨_, rfl⟩))
        | enter | waiting | publish | free | finish | returned => rfl
    | send | stop | start | free => rfl

/-- Any number of threads may start, stop and join a service in any order. -/
theorem lifecycle_orderly {self : ServiceId} {state : State} {log : List Event}
    (reachable : (((machine self).restrict Proper).observe events).Reachable (state, log)) :
    Orderly state log := by
  have invariant : JoinInvariant state := proper_joinInvariant reachable.of_observe
  rcases proper_histories reachable with ⟨phases, starts, joins⟩
  refine ⟨phases.rising, phases.last, ?_, ?_, ?_, ⟨?_, ?_⟩, ?_, ?_, ?_, ?_, joins.returned⟩
  · intro entered
    cases phases.unrequested true entered
  · rw [starts.creation]
    exact Bool.toNat_le _
  · have reaps := joins.reaps
    cases joined : state.shared.threadJoined with
    | true =>
        have settled := invariant.settled_reaps joined
        rw [settled.1, joined] at reaps
        rw [settled.2]
        exact reaps
    | false =>
        have together := weight_add_le state.calls reaped_reaping_le_critical
        have one := Bool.toNat_le state.shared.joining
        rw [invariant.single] at together
        rw [joined, Bool.toNat_false] at reaps
        omega
  · intro reaped
    cases joins.threads false reaped
  · intro reaping
    by_contra uncreated
    have none : weight Call.reaping state.calls = 0 := by
      apply weight_eq_zero
      intro index call present
      cases call with
      | join fromThread pc =>
          cases pc with
          | pthreadJoin hasThread =>
              cases hasThread with
              | true => exact False.elim (uncreated (joins.waits index fromThread present))
              | false => rfl
          | enter | waiting | publish | free | finish | returned => rfl
      | send | stop | start | free => rfl
    omega
  · intro index error created present
    have born : state.shared.threadCreated = true := by
      by_contra uncreated
      exact starts.nobody ((Bool.not_eq_true _).mp uncreated) index created
    rcases starts.creator index created with waiting | ⟨done, returned⟩
    · cases present.symm.trans waiting
    · cases present.symm.trans returned
      exact starts.outcome born done
  · intro index error uncreated present
    rcases starts.calls index _ present with created | rest
    · exact False.elim (uncreated created)
    · exact rest
  · exact Nat.le_trans joins.deletions (Bool.toNat_le _)
  · intro deleted
    cases joins.outlived true false deleted rfl

/-- A whole life: two threads start the service, a third stops it, and two
more join it. -/
def wholeLife : List Action :=
  let free : Outcome := ⟨none, 0⟩
  List.flatten
    [[.call .start, .call .start, .advance 0 free, .advance 1 free],
      List.replicate 11 (.thread .next),
      [.advance 0 free, .call .stop],
      List.replicate 4 (.advance 2 free),
      .thread .wakeControl :: List.replicate 6 (.thread .next),
      [.thread .inboxClosed, .thread .controlClosed, .thread .exit],
      List.replicate 5 (.thread .next),
      [.thread (.visit []), .thread (.lua .next)],
      List.replicate 5 (.thread .next),
      .call (.join false) :: List.replicate 10 (.advance 3 free),
      [.call (.join false), .advance 4 free]]

theorem lifecycle_orderly_whole :
    Exists fun state => Exists fun log =>
      (((machine 7).restrict Proper).observe events).Reachable (state, log) ∧
      log.filterMap Event.phase = [.starting, .running, .stopping, .stopped, .joined, .freed] ∧
      state.calls = [.start (.returned 0), .start (.returned EALREADY), .stop .returned,
        .join false (.returned 0), .join false (.returned 0)] ∧ Orderly state log := by
  have ends : ((((machine 7).restrict Proper).observe events).run (.smallest, []) wholeLife).any
      (fun final => decide
        (final.2.filterMap Event.phase =
            [.starting, .running, .stopping, .stopped, .joined, .freed] ∧
          final.1.calls = [.start (.returned 0), .start (.returned EALREADY), .stop .returned,
            .join false (.returned 0), .join false (.returned 0)])) = true := by
    decide +kernel
  have initial : (((machine 7).restrict Proper).observe events).initial (.smallest, []) :=
    ⟨fresh_smallest, rfl⟩
  rcases (((machine 7).restrict Proper).observe events).exists_reachable initial ends with
    ⟨⟨state, log⟩, reachable, phases, calls⟩
  exact ⟨state, log, reachable, phases, calls, lifecycle_orderly reachable⟩

end Service
end ServiceRuntime
