import ServiceRuntime.Service.Lifetime

namespace ServiceRuntime
namespace Service

open Lua (Letter Co)
open Foundation

/-!
# What `service_start` returns

One `service_start` finds the service NEW and creates the thread.  It waits
until the thread has published how the start ended, and returns that.  The
others have nothing to wait for.
-/

/-! ## The error of a failed start -/

def ThreadPc.error : ThreadPc -> Errno
  | .readStop error | .publish error => error
  | _ => 0

/-- Where an initialisation may fail. -/
def ThreadPc.initialises : ThreadPc -> Bool
  | .loopInit | .inboxInit | .controlInit | .luaInit => true
  | _ => false

theorem ThreadMove.error {self : ServiceId} {state next : State} (moved : ThreadMove self state next) :
    next.thread.error = 0 ∨ next.thread.error = state.thread.error ∨
      state.thread.initialises = true := by
  cases moved with
  | walk located walked =>
      rw [located]
      cases walked with
      | loopFailed | inboxFailed | controlFailed | luaFailed => exact Or.inr (Or.inr rfl)
      | giveUp => exact Or.inr (Or.inl rfl)
      | notifyNobody _ place | stopDone place => rcases place with rfl | rfl <;> exact Or.inl rfl
      | _ => exact Or.inl rfl
  | inboxClosed | controlClosed => exact Or.inr (Or.inl rfl)
  | overloaded located place =>
      left
      rw [place]
      split
      · rfl
      · split <;> rfl
  | shutdownDone located moved =>
      rename_i caller pc shared
      cases caller <;> exact Or.inl rfl
  | closeHandles located =>
      rename_i caller
      cases caller <;> exact Or.inl rfl
  | _ => exact Or.inl rfl

theorem threadStep_error {self : ServiceId} {state next : State} {choice : ThreadChoice}
    (moved : threadStep self state choice = some next)
    (proper : Proper state (.thread choice)) (before : state.thread.error ≠ ECANCELED) :
    next.thread.error ≠ ECANCELED := by
  have zero : (0 : Errno) ≠ ECANCELED := by decide
  rcases (threadStep_move moved).error with none | same | initialises
  · rw [none]
    exact zero
  · rw [same]
    exact before
  · -- The error is the one the environment has chosen.
    have chosen {place : ThreadPc} (located : state.thread = place)
        (cases : place = .loopInit ∨ place = .inboxInit ∨ place = .controlInit ∨ place = .luaInit) :
        next.thread.error ≠ ECANCELED := by
      cases choice with
      | next =>
          rcases cases with rfl | rfl | rfl | rfl <;> simp only [threadStep, located] at moved <;>
            cases moved <;> exact zero
      | fail error =>
          have uncancelled : error ≠ ECANCELED := proper
          rcases cases with rfl | rfl | rfl | rfl <;> simp only [threadStep, located] at moved <;>
            split at moved <;> cases moved <;> exact uncancelled
      | wakeInbox | wakeControl | callback | exit | inboxClosed | controlClosed | lua | visit =>
          rcases cases with rfl | rfl | rfl | rfl <;> simp only [threadStep, located] at moved <;>
            cases moved
    cases located : state.thread with
    | loopInit => exact chosen located (Or.inl rfl)
    | inboxInit => exact chosen located (Or.inr (Or.inl rfl))
    | controlInit => exact chosen located (Or.inr (Or.inr (Or.inl rfl)))
    | luaInit => exact chosen located (Or.inr (Or.inr (Or.inr rfl)))
    | _ =>
        rw [located] at initialises
        cases initialises

/-- The thread does not go back to its start. -/
theorem ThreadMove.part_early {self : ServiceId} {state next : State}
    (moved : ThreadMove self state next) (early : next.thread.part.early = true) :
    state.thread.part.early = true := by
  have failed (error : Errno) : (if error = 0 then Part.armed else .failed).early = true := by
    split <;> rfl
  cases moved with
  | walk located walked =>
      rw [located]
      cases walked with
      | giveUp => exact failed _
      | notifyNobody _ place | stopDone place => rcases place with rfl | rfl <;> cases early
      | born | loopMade | loopFailed | inboxMade | inboxFailed | controlMade | controlFailed
      | goOn | luaFailed => rfl
      | _ => cases early
  | inboxClosed located | controlClosed located => exact early
  | overloaded located place =>
      rw [place] at early
      split at early
      · cases early
      · split at early <;> cases early
  | lua located internal internal' moved =>
      simp only [ThreadPc.part] at early
      split at early <;> cases early
  | quitDone located =>
      simp only [ThreadPc.part] at early
      split at early <;> cases early
  | shutdownStep located moved =>
      rename_i caller pc shared later
      cases caller <;> cases early
  | shutdownDone located moved =>
      rename_i caller pc shared
      cases caller <;> cases early
  | closeHandles located =>
      rename_i caller
      cases caller <;> cases early
  | loopReady located | inboxReady located | controlReady located | luaReady located =>
      rw [located]
      rfl
  | _ => cases early

/-! ## What `service_start` returns -/

def Event.isCreated : Event -> Bool
  | .created _ => true
  | _ => false

/-- The thread has entered RUNNING. -/
def Started (log : List Event) : Prop :=
  Exists fun requested => Event.entered .running requested ∈ log

/-- A `service_start` has created the thread, or has failed to, or came after
another. -/
def StartPc.Noted (log : List Event) (index : Nat) : StartPc -> Prop
  | .lock => True
  | .failRetire error | .failClose error => Event.notCreated index error ∈ log
  | .waiting => Event.created index ∈ log
  | .returned error =>
      Event.created index ∈ log ∨ error = EALREADY ∨ Event.notCreated index error ∈ log

def Call.Noted (log : List Event) (index : Nat) : Call -> Prop
  | .start pc => pc.Noted log index
  | _ => True

theorem Call.Noted.grow {log : List Event} {index : Nat} {call : Call} (noted : call.Noted log index)
    (extra : List Event) : call.Noted (log ++ extra) index := by
  have later {event : Event} (member : event ∈ log) : event ∈ log ++ extra :=
    List.mem_append_left extra member
  cases call with
  | start pc =>
      cases pc with
      | lock => trivial
      | failRetire error | failClose error | waiting => exact later noted
      | returned error =>
          rcases noted with created | already | failed
          · exact Or.inl (later created)
          · exact Or.inr (Or.inl already)
          · exact Or.inr (Or.inr (later failed))
  | send | stop | join | free => trivial

structure StartHistory (state : State) (log : List Event) : Prop where
  creation : log.countP Event.isCreated = state.shared.threadCreated.toNat
  creator : forall index, Event.created index ∈ log ->
    state.calls[index]? = some (.start .waiting) ∨
      (state.shared.startDone = true ∧
        state.calls[index]? = some (.start (.returned state.shared.startError)))
  calls : forall (index : Nat) call, state.calls[index]? = some call -> call.Noted log index
  outcome : state.shared.threadCreated = true -> state.shared.startDone = true ->
    (state.shared.startError = 0 <-> Started log) ∧
      (state.shared.startError = ECANCELED -> state.shared.stopRequested = true)
  pending : state.thread.part.early = true -> state.shared.threadCreated = true ->
    state.shared.startDone = false
  unstarted : state.thread.part.early = true -> ¬ Started log
  errors : state.thread.error ≠ ECANCELED
  fresh : state.shared.state = .new -> state.shared.startDone = false

/-- Nothing about the start happens. -/
def Event.Idle (event : Event) : Prop :=
  event.isCreated = false ∧ event.phase ≠ some .running

theorem countP_idle {extra : List Event} (idle : forall event, event ∈ extra -> event.Idle) :
    extra.countP Event.isCreated = 0 := by
  rw [List.countP_eq_zero]
  intro event member created
  cases (idle event member).1.symm.trans created

theorem started_idle {log extra : List Event} (idle : forall event, event ∈ extra -> event.Idle) :
    Started (log ++ extra) <-> Started log := by
  constructor
  · rintro ⟨requested, member⟩
    rcases List.mem_append.mp member with earlier | now
    · exact ⟨requested, earlier⟩
    · exact False.elim ((idle _ now).2 rfl)
  · rintro ⟨requested, member⟩
    exact ⟨requested, List.mem_append_left extra member⟩

theorem created_idle {log extra : List Event} (idle : forall event, event ∈ extra -> event.Idle)
    {index : Nat} (member : Event.created index ∈ log ++ extra) : Event.created index ∈ log := by
  rcases List.mem_append.mp member with earlier | now
  · exact earlier
  · cases (idle _ now).1

/-- A step that leaves the start alone. -/
structure StartFrame (state next : State) : Prop where
  done : next.shared.startDone = state.shared.startDone
  error : next.shared.startError = state.shared.startError
  created : next.shared.threadCreated = state.shared.threadCreated
  requested : state.shared.stopRequested = true -> next.shared.stopRequested = true
  new : next.shared.state = .new -> state.shared.state = .new
  early : next.thread.part.early = true -> state.thread.part.early = true

theorem StartFrame.history {state next : State} {log extra : List Event}
    (frame : StartFrame state next) (history : StartHistory state log)
    (idle : forall event, event ∈ extra -> event.Idle)
    (creators : forall index, Event.created index ∈ log ->
      next.calls[index]? = state.calls[index]?)
    (calls : forall (index : Nat) call, next.calls[index]? = some call ->
      call.Noted (log ++ extra) index)
    (errors : next.thread.error ≠ ECANCELED) : StartHistory next (log ++ extra) := by
  refine ⟨?_, ?_, calls, ?_, ?_, ?_, errors, ?_⟩
  · rw [List.countP_append, countP_idle idle, frame.created]
    exact history.creation
  · intro index member
    have earlier := created_idle idle member
    rw [creators index earlier, frame.done, frame.error]
    exact history.creator index earlier
  · intro created done
    rw [frame.created] at created
    rw [frame.done] at done
    rw [frame.error, started_idle idle]
    have before := history.outcome created done
    exact ⟨before.1, fun cancelled => frame.requested (before.2 cancelled)⟩
  · intro early created
    rw [frame.done]
    exact history.pending (frame.early early) (frame.created.symm.trans created)
  · intro early
    rw [started_idle idle]
    exact history.unstarted (frame.early early)
  · intro new
    rw [frame.done]
    exact history.fresh (frame.new new)

theorem StartHistory.nobody {state : State} {log : List Event} (history : StartHistory state log)
    (uncreated : state.shared.threadCreated = false) (index : Nat) : Event.created index ∉ log := by
  have none := history.creation
  rw [uncreated, Bool.toNat_false, List.countP_eq_zero] at none
  intro member
  exact none _ member rfl

/-- The service will never have a thread. -/
theorem StartHistory.abandon {state next : State} {log extra : List Event}
    (history : StartHistory state log) (idle : forall event, event ∈ extra -> event.Idle)
    (before : state.shared.threadCreated = false) (after : next.shared.threadCreated = false)
    (thread : next.thread = state.thread) (late : next.shared.state ≠ .new)
    (calls : forall (index : Nat) call, next.calls[index]? = some call ->
      call.Noted (log ++ extra) index) : StartHistory next (log ++ extra) := by
  refine ⟨?_, ?_, calls, ?_, ?_, ?_, ?_, fun new => False.elim (late new)⟩
  · rw [List.countP_append, countP_idle idle, after, history.creation, before]
    rfl
  · intro index member
    exact False.elim (history.nobody before index (created_idle idle member))
  · intro created
    cases after.symm.trans created
  · intro _ created
    cases after.symm.trans created
  · rw [thread, started_idle idle]
    exact history.unstarted
  · rw [thread]
    exact history.errors

theorem Rises.new {shared next : Shared} (rises : Rises shared next) (new : next.state = .new) :
    shared.state = .new := by
  rcases rises with same | up
  · exact same.symm.trans new
  · rw [new] at up
    exact absurd up (Nat.not_lt_zero _)

theorem phaseEvents_idle {shared next : Shared}
    (running : next.state = .running -> shared.state = .running) :
    forall event, event ∈ phaseEvents shared next -> event.Idle := by
  intro event member
  unfold phaseEvents at member
  split at member
  · cases member
  · rename_i changed
    cases List.mem_singleton.mp member
    refine ⟨rfl, fun entered => changed ?_⟩
    have now : next.state = .running := Option.some.inj entered
    exact now.trans (running now).symm

/-- Only the section of `service_start` that finds the service NEW notes
something about the start. -/
theorem callEvents_idle {shared : Shared} {index : Nat} {outcome : Outcome} {call : Call}
    (begun : call = .start .lock -> shared.state ≠ .new) :
    forall event, event ∈ callEvents shared index outcome call -> event.Idle := by
  intro event member
  unfold callEvents at member
  split at member
  · rw [if_neg (begun rfl)] at member
    cases member
  all_goals
    first
    | (rw [List.mem_singleton.mp member]; exact ⟨rfl, fun entered => by cases entered⟩)
    | cases member

theorem advance_idle {state : State} {index : Nat} (outcome : Outcome) {call after : Call}
    {shared : Shared} (present : state.calls[index]? = some call)
    (moved : CallMove state.shared index call shared after)
    (begun : call = .start .lock -> state.shared.state ≠ .new) :
    forall event, event ∈ events state (.advance index outcome)
      { state with shared, calls := state.calls.set index after } -> event.Idle := by
  intro event member
  rcases List.mem_append.mp member with phase | call
  · exact phaseEvents_idle moved.running event phase
  · simp only [actionEvents, present] at call
    exact callEvents_idle begun event call

theorem thread_idle {self : ServiceId} {state next : State} {choice : ThreadChoice}
    (moved : ThreadMove self state next) (begun : state.thread ≠ .publish 0) :
    forall event, event ∈ events state (.thread choice) next -> event.Idle := by
  intro event member
  rcases List.mem_append.mp member with phase | signal
  · refine phaseEvents_idle (fun running => ?_) event phase
    by_contra before
    exact begun (moved.enters_running running before).1
  · rw [List.eq_of_mem_replicate signal]
    exact ⟨rfl, fun entered => by cases entered⟩

/-- The call that moves is not the one that created the thread, unless it is
waiting for it. -/
theorem StartHistory.beside {state : State} {log : List Event} (history : StartHistory state log)
    {index : Nat} {call : Call} (present : state.calls[index]? = some call) (after : Call)
    (resting : call ≠ .start .waiting)
    (unreturned : forall error, call ≠ .start (.returned error)) :
    forall position, Event.created position ∈ log ->
      (state.calls.set index after)[position]? = state.calls[position]? := by
  intro position member
  apply List.getElem?_set_ne
  rintro rfl
  rcases history.creator index member with waiting | returned
  · exact resting (Option.some.inj (present.symm.trans waiting))
  · exact unreturned _ (Option.some.inj (present.symm.trans returned.2))

/-- The part of a frame that is about the shared state. -/
structure SameStart (shared next : Shared) : Prop where
  done : next.startDone = shared.startDone
  error : next.startError = shared.startError
  created : next.threadCreated = shared.threadCreated
  requested : shared.stopRequested = true -> next.stopRequested = true

theorem SendMove.sameStart {shared next : Shared} {letter : Letter} {pc after : SendPc}
    (moved : SendMove shared letter pc next after) : SameStart shared next := by
  cases moved <;> exact ⟨rfl, rfl, rfl, id⟩

theorem FreeMove.sameStart {shared next : Shared} {pc after : FreePc}
    (moved : FreeMove shared pc next after) : SameStart shared next := by
  cases moved <;> exact ⟨rfl, rfl, rfl, id⟩

theorem JoinMove.sameStart {shared next : Shared} {fromThread : Bool} {pc after : JoinPc}
    (moved : JoinMove shared fromThread pc next after) : SameStart shared next := by
  cases moved with
  | free moved => exact moved.sameStart
  | _ => exact ⟨rfl, rfl, rfl, id⟩

theorem ShutdownMove.sameStart {self : ServiceId} {shared next : Shared} {pc : ShutdownPc}
    {after : Option ShutdownPc} (moved : ShutdownMove self shared pc next after) :
    SameStart shared next := by
  cases moved <;> exact ⟨rfl, rfl, rfl, id⟩

/-- A `service_stop` of a NEW service is the only one that ends the start. -/
theorem StopMove.sameStart {shared next : Shared} {pc after : StopPc}
    (moved : StopMove shared pc next after) :
    SameStart shared next ∨ (shared.state = .new ∧ next.state = .stopped ∧
      next.threadCreated = shared.threadCreated) := by
  cases moved with
  | stopNew new => exact Or.inr ⟨new, rfl, rfl⟩
  | stop => exact Or.inl ⟨rfl, rfl, rfl, fun _ => rfl⟩
  | retire | late | close | signal => exact Or.inl ⟨rfl, rfl, rfl, id⟩

section Advance

variable {self : ServiceId} {state : State} {log : List Event} {index : Nat} {outcome : Outcome}
  {shared : Shared}

/-- A step of a call that is no `service_start`. -/
theorem StartHistory.other (reachable : (machine self).Reachable state)
    (history : StartHistory state log) {call after : Call}
    (present : state.calls[index]? = some call)
    (moved : CallMove state.shared index call shared after) (rises : Rises state.shared shared)
    (other : forall pc, call ≠ .start pc) (otherAfter : forall pc, after ≠ .start pc)
    (same : SameStart state.shared shared ∨ (state.shared.state = .new ∧ shared.state = .stopped ∧
      shared.threadCreated = state.shared.threadCreated)) :
    StartHistory { state with shared, calls := state.calls.set index after }
      (log ++ events state (.advance index outcome)
        { state with shared, calls := state.calls.set index after }) := by
  have idle := advance_idle outcome present moved fun start => False.elim (other _ start)
  have calls : forall (position : Nat) call, (state.calls.set index after)[position]? = some call ->
      call.Noted (log ++ events state (.advance index outcome)
        { state with shared, calls := state.calls.set index after }) position := by
    apply forall_set (fun position member found => (history.calls position member found).grow _)
    intro _
    cases after with
    | start pc => exact False.elim (otherAfter pc rfl)
    | send | stop | join | free => trivial
  rcases same with same | ⟨new, stopped, created⟩
  · have frame : StartFrame state { state with shared, calls := state.calls.set index after } :=
      ⟨same.done, same.error, same.created, same.requested, rises.new, id⟩
    exact frame.history history idle
      (history.beside present after (other _) fun error => other _) calls history.errors
  · have uncreated := (Stage.Fits.fits_new (reachable_lifecycle reachable).stage new).2.2.1
    refine history.abandon idle uncreated (created.trans uncreated) rfl ?_ calls
    intro impossible
    cases stopped.symm.trans impossible

/-- `service_start` creates the thread. -/
theorem StartHistory.create (history : StartHistory state log)
    (present : state.calls[index]? = some (.start .lock)) (new : state.shared.state = .new)
    (uncreated : state.shared.threadCreated = false) :
    StartHistory
      { state with
        shared := { state.shared with state := .starting, threadCreated := true }
        calls := state.calls.set index (.start .waiting) }
      (log ++ [.entered .starting state.shared.stopRequested, .created index]) := by
  have undone := history.fresh new
  have unstarted : Started (log ++ [.entered .starting state.shared.stopRequested, .created index]) ->
      Started log := by
    rintro ⟨requested, member⟩
    rcases List.mem_append.mp member with earlier | now
    · exact ⟨requested, earlier⟩
    · rcases List.mem_pair.mp now with impossible | impossible <;> cases impossible
  refine ⟨?_, ?_, ?_, ?_, fun _ _ => undone, fun early started => ?_, history.errors, ?_⟩
  · rw [List.countP_append, history.creation, uncreated]
    rfl
  · intro position member
    rcases List.mem_append.mp member with earlier | now
    · exact False.elim (history.nobody uncreated position earlier)
    · rcases List.mem_pair.mp now with impossible | own
      · cases impossible
      · cases own
        exact Or.inl (List.getElem?_set_self (length_of_getElem? present))
  · apply forall_set (fun position member found => (history.calls position member found).grow _)
    intro _
    exact List.mem_append_right log (List.mem_cons_of_mem _ (List.mem_singleton_self _))
  · intro _ done
    cases undone.symm.trans done
  · exact history.unstarted early (unstarted started)
  · intro impossible
    cases impossible

/-- The `service_start` that created the thread returns. -/
theorem StartHistory.finish (history : StartHistory state log)
    (present : state.calls[index]? = some (.start .waiting)) (done : state.shared.startDone = true) :
    StartHistory
      { state with calls := state.calls.set index (.start (.returned state.shared.startError)) }
      log := by
  have own : Event.created index ∈ log := history.calls index _ present
  refine ⟨history.creation, ?_, ?_, history.outcome, history.pending, history.unstarted,
    history.errors, history.fresh⟩
  · intro position member
    by_cases same : index = position
    · subst same
      exact Or.inr ⟨done, List.getElem?_set_self (length_of_getElem? present)⟩
    · have rests : (state.calls.set index (.start (.returned state.shared.startError)))[position]? =
          state.calls[position]? := List.getElem?_set_ne same
      rw [rests]
      exact history.creator position member
  · apply forall_set history.calls
    intro _
    exact Or.inl own

theorem StartHistory.start (reachable : (machine self).Reachable state)
    (history : StartHistory state log) {pc after : StartPc}
    (present : state.calls[index]? = some (.start pc))
    (taken : startStep state.shared outcome.error pc = some (shared, after)) :
    StartHistory { state with shared, calls := state.calls.set index (.start after) }
      (log ++ events state (.advance index outcome)
        { state with shared, calls := state.calls.set index (.start after) }) := by
  have moved : CallMove state.shared index (.start pc) shared (.start after) :=
    .start (startStep_move taken)
  -- A step that is not the first section and not the return of the creator.
  have rests (begun : pc = .lock -> state.shared.state ≠ .new) (resting : pc ≠ .waiting)
      (own : Call.Noted log index (.start after)) (same : SameStart state.shared shared)
      (rises : Rises state.shared shared) :
      StartHistory { state with shared, calls := state.calls.set index (.start after) }
        (log ++ events state (.advance index outcome)
          { state with shared, calls := state.calls.set index (.start after) }) := by
    have frame : StartFrame state
        { state with shared, calls := state.calls.set index (.start after) } :=
      ⟨same.done, same.error, same.created, same.requested, rises.new, id⟩
    refine frame.history history (advance_idle outcome present moved ?_)
      (history.beside present _ ?_ ?_) ?_ history.errors
    · intro start
      cases start
      exact begun rfl
    · intro waiting
      cases waiting
      exact resting rfl
    · intro error returned
      cases returned
      cases taken
    · apply forall_set (fun position member found => (history.calls position member found).grow _)
      intro _
      exact own.grow _
  cases pc with
  | lock =>
      simp only [startStep, startLocked, Option.some.injEq] at taken
      split at taken
      · rename_i new
        have uncreated := (Stage.Fits.fits_new (reachable_lifecycle reachable).stage new).2.2.1
        have noted : actionEvents state (.advance index outcome) =
            [if outcome.error = 0 then .created index else .notCreated index outcome.error] := by
          simp only [actionEvents, present, callEvents, if_pos new]
        split at taken <;> rename_i created <;> cases taken
        · have added : events state (.advance index outcome)
              { state with
                shared := { state.shared with state := .starting, threadCreated := true }
                calls := state.calls.set index (.start .waiting) } =
              [.entered .starting state.shared.stopRequested, .created index] := by
            simp only [events, noted, if_pos created, phaseEvents, new, reduceCtorEq, if_false]
            rfl
          rw [added]
          exact history.create present new uncreated
        · have added : events state (.advance index outcome)
              { state with
                shared := { state.shared with
                  state := .stopped, startDone := true, startError := outcome.error }
                calls := state.calls.set index (.start (.failRetire outcome.error)) } =
              [.entered .stopped state.shared.stopRequested,
                .notCreated index outcome.error] := by
            simp only [events, noted, if_neg created, phaseEvents, new, reduceCtorEq, if_false]
            rfl
          rw [added]
          refine history.abandon ?_ uncreated uncreated rfl Phase.noConfusion ?_
          · intro event member
            rcases List.mem_pair.mp member with rfl | rfl <;>
              exact ⟨rfl, fun entered => by cases entered⟩
          · apply forall_set (fun position member found =>
              (history.calls position member found).grow _)
            intro _
            exact List.mem_append_right log (List.mem_cons_of_mem _ (List.mem_singleton_self _))
      · rename_i begun
        cases taken
        exact rests (fun _ => begun) StartPc.noConfusion (Or.inr (Or.inl rfl)) ⟨rfl, rfl, rfl, id⟩
          (Or.inl rfl)
  | failRetire code =>
      have own : Event.notCreated index code ∈ log := history.calls index _ present
      cases taken
      exact rests StartPc.noConfusion StartPc.noConfusion own ⟨rfl, rfl, rfl, id⟩ (Or.inl rfl)
  | failClose code =>
      have own : Event.notCreated index code ∈ log := history.calls index _ present
      cases taken
      exact rests StartPc.noConfusion StartPc.noConfusion (Or.inr (Or.inr own)) ⟨rfl, rfl, rfl, id⟩
        (Or.inl rfl)
  | waiting =>
      simp only [startStep] at taken
      split at taken <;> rename_i done <;> cases taken
      have added : events state (.advance index outcome)
          { state with
            calls := state.calls.set index (.start (.returned state.shared.startError)) } = [] := by
        simp only [events, phaseEvents, if_true, actionEvents, present, callEvents, List.append_nil]
      rw [added, List.append_nil]
      exact history.finish present done
  | returned code => cases taken

end Advance

section Publish

variable {state next : State} {log extra : List Event} {error : Errno}

theorem ThreadPc.publish_early (error : Errno) : (ThreadPc.publish error).part.early = true := by
  simp only [ThreadPc.part]
  split <;> rfl

/-- The thread ends the start.  The caller that created it still waits. -/
theorem StartHistory.publish (history : StartHistory state log) (life : Lifecycle state)
    (located : state.thread = .publish error)
    (calls : next.calls = state.calls) (late : next.thread.part.early = false)
    (created : next.shared.threadCreated = state.shared.threadCreated)
    (uncreated : extra.countP Event.isCreated = 0) (begun : next.shared.state ≠ .new)
    (unfailed : next.thread.error = 0)
    (outcome : (next.shared.startError = 0 <-> Started (log ++ extra)) ∧
      (next.shared.startError = ECANCELED -> next.shared.stopRequested = true)) :
    StartHistory next (log ++ extra) := by
  have early : state.thread.part.early = true := by
    rw [located]
    exact ThreadPc.publish_early error
  have born : state.shared.threadCreated = true := by
    have fits := life.stage
    rw [located] at fits
    exact fits.2.1
  have undone := history.pending early born
  refine ⟨?_, ?_, ?_, fun _ _ => outcome, ?_, ?_, ?_, fun new => False.elim (begun new)⟩
  · rw [List.countP_append, uncreated, history.creation, created, Nat.add_zero]
  · intro index member
    rw [calls]
    rcases List.mem_append.mp member with earlier | now
    · rcases history.creator index earlier with waiting | returned
      · exact Or.inl waiting
      · cases undone.symm.trans returned.1
    · exact absurd rfl (List.countP_eq_zero.mp uncreated _ now)
  · intro index call present
    rw [calls] at present
    exact (history.calls index call present).grow _
  · intro impossible
    cases late.symm.trans impossible
  · intro impossible
    cases late.symm.trans impossible
  · rw [unfailed]
    decide

theorem StartHistory.publishStart {self : ServiceId} {choice : ThreadChoice}
    (history : StartHistory state log) (life : Lifecycle state)
    (located : state.thread = .publish error) (moved : threadStep self state choice = some next) :
    StartHistory next (log ++ events state (.thread choice) next) := by
  have fits := life.stage
  rw [located] at fits
  have early : state.thread.part.early = true := by
    rw [located]
    exact ThreadPc.publish_early error
  have silent : actionEvents state (.thread choice) = [] := by
    simp only [actionEvents, located, ThreadPc.stopsAt, List.replicate_zero]
  simp only [events, silent, List.append_nil]
  cases choice with
  | next =>
      simp only [threadStep, located, Option.some.injEq] at moved
      subst moved
      simp only [publishStart]
      split
      · rename_i guard
        have starting : state.shared.state = .starting := by
          rcases fits.2.2 with starting | stopping
          · exact starting.1
          · cases guard.2.symm.trans stopping.2
        have noted : phaseEvents state.shared
            { state.shared with state := .running, startError := 0, startDone := true } =
            [.entered .running state.shared.stopRequested] := by
          simp only [phaseEvents, starting, reduceCtorEq, if_false]
        rw [noted]
        refine history.publish life located rfl rfl rfl rfl Phase.noConfusion rfl ⟨?_, ?_⟩
        · refine ⟨fun _ => ⟨_, List.mem_append_right log (List.mem_singleton_self _)⟩, fun _ => rfl⟩
        · intro impossible
          have zero : (0 : Errno) = ECANCELED := impossible
          exact absurd zero (by decide)
      · rename_i guard
        have idle : forall event, event ∈ phaseEvents state.shared
            { state.shared with
              state := .stopping
              startError := if error = 0 then ECANCELED else error
              startDone := true } -> event.Idle :=
          phaseEvents_idle fun running => by cases running
        refine history.publish life located rfl rfl rfl (countP_idle idle) Phase.noConfusion rfl ⟨?_, ?_⟩
        · rw [started_idle idle]
          constructor
          · intro zero
            have failed : (if error = 0 then ECANCELED else error) = 0 := zero
            split at failed
            · exact absurd failed (by decide)
            · contradiction
          · intro started
            exact False.elim (history.unstarted early started)
        · intro cancelled
          have code : (if error = 0 then ECANCELED else error) = ECANCELED := cancelled
          split at code
          · rename_i zero
            exact (Bool.not_eq_false _).mp fun unrequested => guard ⟨zero, unrequested⟩
          · have uncancelled := history.errors
            rw [located] at uncancelled
            exact False.elim (uncancelled code)
  | fail | wakeInbox | wakeControl | callback | exit | inboxClosed | controlClosed | lua | visit =>
      simp only [threadStep, located] at moved
      cases moved

end Publish

theorem ThreadMove.sameStart {self : ServiceId} {state next : State}
    (moved : ThreadMove self state next) (life : Lifecycle state)
    (elsewhere : forall error, state.thread ≠ .publish error) :
    SameStart state.shared next.shared := by
  have own {shared : Shared} {pc after : StopPc} (moved : StopMove state.shared pc shared after)
      (inside : state.thread.part = .loop) : SameStart state.shared shared := by
    rcases moved.sameStart with same | ⟨new, _, _⟩
    · exact same
    · have outside := life.new_part new
      rw [inside] at outside
      cases outside
  cases moved with
  | started located | notStarted located => exact False.elim (elsewhere _ located)
  | quitStep located moved | failStep located moved => exact own moved (by rw [located]; rfl)
  | shutdownStep located moved | shutdownDone located moved => exact moved.sameStart
  | _ => exact ⟨rfl, rfl, rfl, id⟩

theorem StartHistory.thread {self : ServiceId} {state next : State} {log : List Event}
    {choice : ThreadChoice} (reachable : (machine self).Reachable state)
    (history : StartHistory state log) (proper : Proper state (.thread choice))
    (moved : threadStep self state choice = some next) :
    StartHistory next (log ++ events state (.thread choice) next) := by
  have life := reachable_lifecycle reachable
  have threadMoved := threadStep_move moved
  by_cases publishing : Exists fun error => state.thread = .publish error
  · rcases publishing with ⟨error, located⟩
    exact history.publishStart life located moved
  · have elsewhere (error : Errno) : state.thread ≠ .publish error := by
      intro located
      exact publishing ⟨error, located⟩
    have same := threadMoved.sameStart life elsewhere
    have frame : StartFrame state next :=
      ⟨same.done, same.error, same.created, same.requested, (threadMoved.rises life).new,
        threadMoved.part_early⟩
    refine frame.history history (thread_idle threadMoved (elsewhere 0)) ?_ ?_
      (threadStep_error moved proper history.errors)
    · intro index member
      rw [threadMoved.calls]
    · intro index call present
      rw [threadMoved.calls] at present
      exact (history.calls index call present).grow _

theorem step_startHistory {self : ServiceId} {state next : State} {action : Action}
    {log : List Event} (reachable : (machine self).Reachable state) (invariant : JoinInvariant state)
    (history : StartHistory state log) (proper : Proper state action)
    (moved : (machine self).step state action = some next) :
    StartHistory next (log ++ events state action next) := by
  cases action with
  | call request =>
      cases moved
      have frame : StartFrame state { state with calls := state.calls ++ [request.call] } :=
        ⟨rfl, rfl, rfl, id, id, id⟩
      rw [events_call]
      refine frame.history history (fun event member => by cases member) ?_ ?_ history.errors
      · intro index member
        apply List.getElem?_append_left
        rcases history.creator index member with waiting | returned
        · exact length_of_getElem? waiting
        · exact length_of_getElem? returned.2
      · apply forall_append_singleton
        · intro index call present
          exact (history.calls index call present).grow _
        · cases request <;> trivial
  | thread choice => exact history.thread reachable proper moved
  | advance index outcome =>
      have inbox := reachable_inbox reachable
      rcases advance_cases moved with ⟨call, shared, after, present, taken, rfl⟩
      have callMoved := callStep_move inbox.valid (inbox.spares index call present) taken
      have rises := callMoved.rises invariant present
      cases callMoved with
      | start startMoved =>
          rcases Option.map_eq_some_iff.mp taken with ⟨⟨later, pc⟩, started, result⟩
          cases result
          exact history.start reachable present started
      | send sendMoved =>
          exact history.other reachable present (.send sendMoved) rises (fun _ => Call.noConfusion)
            (fun _ => Call.noConfusion) (Or.inl sendMoved.sameStart)
      | stop stopMoved =>
          exact history.other reachable present (.stop stopMoved) rises (fun _ => Call.noConfusion)
            (fun _ => Call.noConfusion) stopMoved.sameStart
      | join joinMoved =>
          exact history.other reachable present (.join joinMoved) rises (fun _ => Call.noConfusion)
            (fun _ => Call.noConfusion) (Or.inl joinMoved.sameStart)
      | free freeMoved =>
          exact history.other reachable present (.free freeMoved) rises (fun _ => Call.noConfusion)
            (fun _ => Call.noConfusion) (Or.inl freeMoved.sameStart)

end Service
end ServiceRuntime
