import ServiceRuntime.Service.History

namespace ServiceRuntime
namespace Service

open Lua (Letter Co)
open Foundation

/-!
# What the history of a service shows

`service_start`, `service_stop` and `service_join` are called by any number of
threads.  The log shows that the state only ever rises, and that RUNNING is
not entered once a stop has been requested.

`service_free` is left to `service_join`, its only caller.  The errors of an
initialisation are those of libuv, which are negative, and the `EINVAL` and
`ENOMEM` of `service_init_lua`; none of them is `ECANCELED`.
-/

def Proper (_ : State) : Action -> Prop
  | .call .free => False
  | .thread (.fail error) => error ≠ ECANCELED
  | _ => True

instance (state : State) (action : Action) : Decidable (Proper state action) :=
  match action with
  | .call .free => inferInstanceAs (Decidable False)
  | .thread (.fail error) => inferInstanceAs (Decidable (error ≠ ECANCELED))
  | .call (.send _) | .call .stop | .call .start | .call (.join _) | .advance _ _
  | .thread .next | .thread .wakeInbox | .thread .wakeControl | .thread .callback | .thread .exit
  | .thread .inboxClosed | .thread .controlClosed | .thread (.lua _) | .thread (.visit _) =>
      inferInstanceAs (Decidable True)

theorem Proper.indirect {state : State} {action : Action} (proper : Proper state action) :
    action ≠ .call .free := by
  rintro rfl
  exact proper

theorem proper_joinInvariant {self : ServiceId} {state : State}
    (reachable : ((machine self).restrict Proper).Reachable state) : JoinInvariant state := by
  apply reachable.induction
  · rintro start ⟨capacity, cells, box, _sized, _created, rfl⟩
    exact fresh_joinInvariant box
  · intro state action next reachable invariant moved
    rcases Machine.restrict_step_eq_some moved with ⟨proper, taken⟩
    exact step_joinInvariant reachable.of_restrict invariant proper.indirect taken

/-! ## The state rises -/

/-- The state stays or moves up. -/
def Rises (shared next : Shared) : Prop :=
  next.state = shared.state ∨ shared.state.rank < next.state.rank

theorem Rises.of_phases {shared next : Shared} {before : Phase} (after : Phase)
    (old : shared.state = before) (new : next.state = after) (up : before.rank < after.rank) : Rises shared next := by
  right
  rw [old, new]
  exact up

theorem StopMove.rises {shared next : Shared} {pc after : StopPc}
    (moved : StopMove shared pc next after) : Rises shared next := by
  cases moved with
  | stopNew new => exact .of_phases .stopped new rfl (by decide)
  | stop active => rcases active with active | active <;> exact .of_phases .stopping active rfl (by decide)
  | retire | late | close | signal => exact Or.inl rfl

theorem StartMove.rises {shared next : Shared} {pc after : StartPc}
    (moved : StartMove shared pc next after) : Rises shared next := by
  cases moved with
  | start new => exact .of_phases .starting new rfl (by decide)
  | fail new => exact .of_phases .stopped new rfl (by decide)
  | already | failRetire | failClose | done => exact Or.inl rfl

theorem FreeMove.rises {shared next : Shared} {pc after : FreePc}
    (moved : FreeMove shared pc next after) : Rises shared next := by
  cases moved with
  | free joined => exact .of_phases .freed joined rfl (by decide)
  | retire | wait | busy | delete | dispose | done => exact Or.inl rfl

theorem CallMove.rises {state : State} (invariant : JoinInvariant state) {index : Nat}
    {call after : Call} {shared : Shared} (present : state.calls[index]? = some call)
    (moved : CallMove state.shared index call shared after) : Rises state.shared shared := by
  cases moved with
  | send moved => cases moved <;> exact Or.inl rfl
  | stop moved => exact moved.rises
  | start moved => exact moved.rises
  | free moved => exact moved.rises
  | join moved =>
      cases moved with
      | publish =>
          have unjoined : state.shared.threadJoined = false := invariant.calls index _ present
          right
          by_contra late
          cases unjoined.symm.trans (invariant.late (Nat.le_of_not_lt late))
      | free moved => exact moved.rises
      | deadlock | wait | past | refuse | claim | reap | freed | finish => exact Or.inl rfl

theorem ThreadMove.rises {self : ServiceId} {state next : State}
    (moved : ThreadMove self state next) (life : Lifecycle state) :
    Rises state.shared next.shared := by
  have fits := life.stage
  cases moved with
  | quitStep located moved | failStep located moved => exact moved.rises
  | shutdownStep located moved | shutdownDone located moved => exact Or.inl moved.phase.1.state
  | started located wanted =>
      rw [located] at fits
      rcases fits.2.2 with starting | stopping
      · exact .of_phases .running starting.1 rfl (by decide)
      · cases wanted.symm.trans stopping.2
  | notStarted located =>
      rw [located] at fits
      rcases fits.2.2 with starting | stopping
      · exact .of_phases .stopping starting.1 rfl (by decide)
      · exact Or.inl stopping.1.symm
  | finishLock located =>
      rw [located] at fits
      rcases fits.2.2 with running | stopping
      · have down : (if state.shared.state.rank < Phase.stopping.rank then Phase.stopping
            else state.shared.state) = .stopping := by
          rw [running.1]
          rfl
        exact .of_phases .stopping running.1 down (by decide)
      · left
        simp only [stopping]
        rfl
  | published located =>
      rw [located] at fits
      exact .of_phases .stopped fits.2.2 rfl (by decide)
  | _ => exact Or.inl rfl

theorem step_rises {self : ServiceId} {state next : State} {action : Action}
    (reachable : (machine self).Reachable state) (invariant : JoinInvariant state)
    (moved : (machine self).step state action = some next) : Rises state.shared next.shared := by
  rcases reachable_step_cases reachable moved with
    ⟨request, rfl⟩ | ⟨index, call, shared, after, present, callMoved, rfl⟩ | threadMoved
  · exact Or.inl rfl
  · exact callMoved.rises invariant present
  · exact threadMoved.rises (reachable_lifecycle reachable)

def Event.phase : Event -> Option Phase
  | .entered phase _ => some phase
  | _ => none

theorem callEvents_phase (shared : Shared) (index : Nat) (outcome : Outcome) (call : Call) :
    (callEvents shared index outcome call).filterMap Event.phase = [] := by
  unfold callEvents
  split
  · split
    · split <;> rfl
    · rfl
  all_goals rfl

theorem actionEvents_phase (state : State) (action : Action) :
    (actionEvents state action).filterMap Event.phase = [] := by
  cases action with
  | call request => rfl
  | thread choice =>
      rw [List.filterMap_eq_nil_iff]
      intro event member
      rw [List.eq_of_mem_replicate member]
      rfl
  | advance index outcome =>
      simp only [actionEvents]
      split
      · exact callEvents_phase _ _ _ _
      · rfl

/-- Only a change of the state is noted as one. -/
theorem entered_mem_events {state next : State} {action : Action} {phase : Phase} {requested : Bool}
    (noted : Event.entered phase requested ∈ events state action next) :
    next.shared.state = phase ∧ next.shared.state ≠ state.shared.state ∧
      requested = state.shared.stopRequested := by
  rcases List.mem_append.mp noted with member | member
  · unfold phaseEvents at member
    split at member
    · cases member
    · rename_i changed
      cases List.mem_singleton.mp member
      exact ⟨rfl, changed, rfl⟩
  · have impossible : phase ∈ (actionEvents state action).filterMap Event.phase :=
      List.mem_filterMap.mpr ⟨_, member, rfl⟩
    rw [actionEvents_phase] at impossible
    cases impossible

theorem CallMove.running {shared next : Shared} {index : Nat} {call after : Call}
    (moved : CallMove shared index call next after) (running : next.state = .running) :
    shared.state = .running := by
  cases moved with
  | send moved => cases moved <;> exact running
  | stop moved =>
      cases moved with
      | stopNew | stop => cases running
      | retire | late | close | signal => exact running
  | start moved =>
      cases moved with
      | start | fail => cases running
      | already | failRetire | failClose | done => exact running
  | free moved =>
      cases moved with
      | free => cases running
      | retire | wait | busy | delete | dispose | done => exact running
  | join moved =>
      cases moved with
      | publish => cases running
      | free moved =>
          cases moved with
          | free => cases running
          | retire | wait | busy | delete | dispose | done => exact running
      | deadlock | wait | past | refuse | claim | reap | freed | finish => exact running

/-- RUNNING is entered by the thread, in the section that ends the start. -/
theorem ThreadMove.enters_running {self : ServiceId} {state next : State}
    (moved : ThreadMove self state next) (running : next.shared.state = .running)
    (before : state.shared.state ≠ .running) :
    state.thread = .publish 0 ∧ state.shared.stopRequested = false ∧
      next.shared.startError = 0 ∧ next.shared.startDone = true := by
  cases moved with
  | started located wanted => exact ⟨located, wanted, rfl, rfl⟩
  | quitStep located moved | failStep located moved =>
      cases moved with
      | stopNew | stop => cases running
      | retire | late | close | signal => exact False.elim (before running)
  | shutdownStep located moved | shutdownDone located moved =>
      exact False.elim (before (moved.phase.1.state.symm.trans running))
  | notStarted | published => cases running
  | finishLock located =>
      have same : (if state.shared.state.rank < Phase.stopping.rank then Phase.stopping
          else state.shared.state) = .running := running
      split at same
      · cases same
      · exact False.elim (before same)
  | _ => exact False.elim (before running)

structure PhaseHistory (state : State) (log : List Event) : Prop where
  rising : (log.filterMap Event.phase).Pairwise fun earlier later => earlier.rank < later.rank
  below : forall phase, phase ∈ log.filterMap Event.phase -> phase.rank ≤ state.shared.state.rank
  last : state.shared.state = (log.filterMap Event.phase).getLast?.getD .new
  unrequested : forall requested, Event.entered .running requested ∈ log -> requested = false

theorem step_phaseHistory {self : ServiceId} {state next : State} {action : Action}
    {log : List Event} (reachable : (machine self).Reachable state) (invariant : JoinInvariant state)
    (history : PhaseHistory state log) (moved : (machine self).step state action = some next) :
    PhaseHistory next (log ++ events state action next) := by
  have rises := step_rises reachable invariant moved
  have noted : (log ++ events state action next).filterMap Event.phase =
      log.filterMap Event.phase ++ (phaseEvents state.shared next.shared).filterMap Event.phase := by
    simp only [events, List.filterMap_append, actionEvents_phase, List.append_nil]
  have requested : forall requested,
      Event.entered .running requested ∈ log ++ events state action next -> requested = false := by
    intro requested member
    rcases List.mem_append.mp member with earlier | now
    · exact history.unrequested requested earlier
    · rcases entered_mem_events now with ⟨running, changed, same⟩
      rw [running] at changed
      rw [same]
      rcases reachable_step_cases reachable moved with
        ⟨request, rfl⟩ | ⟨index, call, shared, after, present, callMoved, rfl⟩ | threadMoved
      · exact False.elim (changed running.symm)
      · exact False.elim (changed (callMoved.running running).symm)
      · exact (threadMoved.enters_running running (Ne.symm changed)).2.1
  rcases rises with same | up
  · have nothing : phaseEvents state.shared next.shared = [] := if_pos same
    rw [nothing, List.filterMap_nil, List.append_nil] at noted
    refine ⟨?_, ?_, ?_, requested⟩
    · rw [noted]
      exact history.rising
    · rw [noted, same]
      exact history.below
    · rw [noted, same]
      exact history.last
  · have changed : next.shared.state ≠ state.shared.state := by
      intro same
      rw [same] at up
      exact Nat.lt_irrefl _ up
    have entered : phaseEvents state.shared next.shared =
        [.entered next.shared.state state.shared.stopRequested] := if_neg changed
    rw [entered] at noted
    refine ⟨?_, ?_, ?_, requested⟩
    · rw [noted]
      refine List.pairwise_append.mpr ⟨history.rising, List.pairwise_singleton _ _, ?_⟩
      intro earlier before later now
      cases List.mem_singleton.mp now
      exact Nat.lt_of_le_of_lt (history.below earlier before) up
    · rw [noted]
      intro phase member
      rcases List.mem_append.mp member with earlier | now
      · exact Nat.le_trans (history.below phase earlier) (Nat.le_of_lt up)
      · cases List.mem_singleton.mp now
        exact Nat.le_refl _
    · rw [noted]
      simp only [List.filterMap_cons, List.filterMap_nil, Event.phase, List.getLast?_append,
        List.getLast?_singleton, Option.some_or, Option.getD_some]

end Service
end ServiceRuntime
