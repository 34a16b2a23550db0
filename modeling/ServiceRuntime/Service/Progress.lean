import ServiceRuntime.Service.Settling

namespace ServiceRuntime
namespace Service

open Lua (Letter Co)
open Foundation

/-!
# A stop comes to an end

`service_stop` only asks.  What follows takes the threads of other callers,
the loop and the service thread through three waits.  None of them waits for
another in a circle: as long as the handlers return, the calls in progress and
the thread can always finish, without help from a new call.
-/

/-- All calls have returned, and the thread has ended. -/
def AtRest (state : State) : Prop :=
  (forall (index : Nat) call, state.calls[index]? = some call -> call.left = 0) ∧ ThreadDone state

/-- A send or a stop that has not returned can always go on. -/
theorem unheld_of_stuck {self : ServiceId} {state : State}
    (reachable : (machine self).Reachable state)
    (stuck : forall (index : Nat) call, state.calls[index]? = some call -> call.left ≠ 0 ->
      call.waits state.shared = none ->
      (forall fromThread, call = .join fromThread (.pthreadJoin true) ->
        state.shared.threadEnded = true) -> False) :
    state.shared.sendPins = 0 ∧ weight (Call.stopsAt StopPc.signals) state.calls = 0 := by
  constructor
  · rw [(reachable_pinInvariant reachable).counted]
    apply weight_eq_zero
    intro index call present
    cases call with
    | send message pc =>
        cases pc with
        | pin | refused | returned => rfl
        | _ => exact False.elim (stuck index _ present (by simp [Call.left, SendPc.left]) rfl nofun)
    | _ => rfl
  · apply weight_eq_zero
    intro index call present
    cases call with
    | stop pc =>
        cases pc with
        | retire | lock | returned => rfl
        | _ => exact False.elim (stuck index _ present (by simp [Call.left, StopPc.left]) rfl nofun)
    | _ => rfl

/-- Once the thread is done there is only one wait left, the one for another
join. -/
theorem awake_of_done {self : ServiceId} {state : State} (reachable : (machine self).Reachable state)
    (done : ThreadDone state) (pins : state.shared.sendPins = 0) {index : Nat} {call : Call}
    (present : state.calls[index]? = some call) :
    call.waits state.shared = none ∨ (state.shared.joining = true ∧ call.critical = 0) := by
  have unpinned : waitPins state.shared = none := if_pos pins
  have free (pc : FreePc) : pc.waits state.shared = none := by
    cases pc with
    | wait => exact unpinned
    | _ => rfl
  cases call with
  | send message pc | stop pc => exact Or.inl rfl
  | start pc =>
      cases pc with
      | waiting =>
          have created : state.shared.threadCreated = true :=
            (reachable_startSound reachable).calls index _ present
          have published : state.shared.startDone = true := by
            rcases done with ended | ⟨_, absent⟩
            · apply (reachable_waitInvariant reachable).published
              rw [ended]
              rfl
            · cases created.symm.trans absent
          left
          simp only [Call.waits, StartPc.waits, published, if_true]
      | _ => exact Or.inl rfl
  | join fromThread pc =>
      cases pc with
      | waiting hasThread =>
          cases joining : state.shared.joining with
          | true => exact Or.inr ⟨rfl, rfl⟩
          | false =>
              left
              simp only [Call.waits, JoinPc.waits, joining, Bool.false_eq_true, if_false]
      | free pc => exact Or.inl (free pc)
      | _ => exact Or.inl rfl
  | free pc => exact Or.inl (free pc)

/-- A join that waits for the thread of a finished service finds it ended. -/
theorem reaped_of_done {self : ServiceId} {state : State} (reachable : (machine self).Reachable state)
    (done : ThreadDone state) {index : Nat} {call : Call}
    (present : state.calls[index]? = some call) (fromThread : Bool)
    (place : call = .join fromThread (.pthreadJoin true)) : state.shared.threadEnded = true := by
  subst place
  have created : state.shared.threadCreated = true :=
    (reachable_waitInvariant reachable).waited index _ present
  rcases done with ended | ⟨_, absent⟩
  · have fits := (reachable_lifecycle reachable).stage
    rw [ended] at fits
    exact fits.1
  · cases created.symm.trans absent

theorem Call.critical_left {call : Call} (critical : call.critical ≠ 0) : call.left ≠ 0 := by
  cases call with
  | join fromThread pc =>
      cases pc with
      | free pc =>
          intro none
          simp only [Call.left, JoinPc.left] at none
          omega
      | pthreadJoin | publish | finish => simp [Call.left, JoinPc.left]
      | enter | waiting | returned => exact absurd rfl critical
  | send | stop | start | free => exact absurd rfl critical

/-- In a service that is told to stop somebody can always take a step that
brings the end closer, until all is at rest. -/
theorem stopping_progress {self : ServiceId} {state : State}
    (reachable : (machine self).Reachable state) (stopping : 3 ≤ state.shared.state.rank)
    (busy : ¬ AtRest state) :
    Exists fun action => Exists fun next => Settling state action ∧
      (machine self).step state action = some next ∧ next.left < state.left := by
  by_contra halted
  have stuck : forall (index : Nat) call, state.calls[index]? = some call -> call.left ≠ 0 ->
      call.waits state.shared = none ->
      (forall fromThread, call = .join fromThread (.pthreadJoin true) ->
        state.shared.threadEnded = true) -> False := by
    intro index call present unfinished awake reaped
    rcases call_progress reachable present unfinished awake reaped with ⟨next, taken, less⟩
    exact halted ⟨.advance index plainOutcome, next, trivial, taken, less⟩
  rcases unheld_of_stuck reachable stuck with ⟨pins, signals⟩
  by_cases done : ThreadDone state
  · -- A join that waits for another leads to the one that does not wait.
    have critical : state.shared.joining = false := by
      cases joining : state.shared.joining with
      | false => rfl
      | true =>
          have held := (reachable_waitInvariant reachable).joiner joining
          have nobody : weight Call.critical state.calls = 0 := by
            apply weight_eq_zero
            intro index call present
            by_contra inside
            rcases awake_of_done reachable done pins present with awake | ⟨_, outside⟩
            · exact stuck index call present (Call.critical_left inside) awake
                (reaped_of_done reachable done present)
            · exact inside outside
          omega
    apply busy
    refine ⟨?_, done⟩
    intro index call present
    by_contra unfinished
    rcases awake_of_done reachable done pins present with awake | ⟨joining, _⟩
    · exact stuck index call present unfinished awake (reaped_of_done reachable done present)
    · cases critical.symm.trans joining
  · rcases thread_progress reachable stopping pins signals done with
      ⟨choice, next, settling, taken, less⟩
    refine halted ⟨.thread choice, next, settling, taken, ?_⟩
    have calls := (threadStep_move taken).calls
    simp only [State.left, calls]
    omega

theorem settles {self : ServiceId} {state : State} (reachable : (machine self).Reachable state)
    (stopping : 3 ≤ state.shared.state.rank) :
    Exists fun schedule => Exists fun final => (machine self).Obeys Settling state schedule ∧
      (machine self).run state schedule = some final ∧ 3 ≤ final.shared.state.rank ∧ AtRest final := by
  apply reachable.leads State.left _ stopping
  intro current here told busy
  rcases stopping_progress here told busy with ⟨action, next, settling, moved, less⟩
  exact ⟨action, next, settling, moved, step_stopping here told moved, less⟩

/-- What is known at rest. -/
theorem atRest_stopped {self : ServiceId} {state : State} (reachable : (machine self).Reachable state)
    (stopping : 3 ≤ state.shared.state.rank) (rest : AtRest state) :
    4 ≤ state.shared.state.rank ∧ state.shared.sendPins = 0 := by
  constructor
  · have fits := (reachable_lifecycle reachable).stage
    rcases rest.2 with ended | ⟨unborn, absent⟩
    · rw [ended] at fits
      exact fits.2.2
    · rw [unborn] at fits
      rcases fits.2 with created | new | threadless
      · cases created.1.symm.trans absent
      · rw [new.2.1] at stopping
        exact absurd stopping (by decide)
      · exact threadless.2
  · apply (unheld_of_stuck reachable _).1
    intro index call present unfinished
    exact absurd (rest.1 index call present) unfinished

theorem stopLocked_stopping (shared : Shared) : 3 ≤ (stopLocked shared).1.state.rank := by
  unfold stopLocked
  split <;> rename_i phase
  · exact (by decide : 3 ≤ Phase.stopped.rank)
  · exact (by decide : 3 ≤ Phase.stopping.rank)
  · exact (by decide : 3 ≤ Phase.stopping.rank)
  all_goals
    rw [phase]
    decide

/-- A caller of `service_stop` gets as far as telling the service. -/
theorem stop_tells {self : ServiceId} {state : State} (reachable : (machine self).Reachable state)
    {index : Nat} {pc : StopPc} (present : state.calls[index]? = some (Call.stop pc)) :
    Exists fun schedule => Exists fun next => (machine self).Obeys Settling state schedule ∧
      (machine self).run state schedule = some next ∧ 3 ≤ next.shared.state.rank := by
  have locked {state : State} (reachable : (machine self).Reachable state)
      (present : state.calls[index]? = some (.stop .lock)) :
      Exists fun next => (machine self).step state (.advance index plainOutcome) = some next ∧
        3 ≤ next.shared.state.rank := by
    refine ⟨{ state with
        shared := (stopLocked state.shared).1
        calls := state.calls.set index (.stop (stopLocked state.shared).2) }, ?_, ?_⟩
    · show advance state index plainOutcome = _
      simp only [advance, present, callStep, stopStep, Option.map_some]
    · exact stopLocked_stopping state.shared
  cases pc with
  | retire =>
      have retires : (machine self).step state (.advance index plainOutcome) =
          some { state with
            shared := { state.shared with routable := false }
            calls := state.calls.set index (.stop .lock) } := by
        show advance state index plainOutcome = _
        simp only [advance, present, callStep, stopStep, Option.map_some]
      rcases locked (reachable.step retires) (List.getElem?_set_self (length_of_getElem? present)) with
        ⟨next, moved, told⟩
      refine ⟨[.advance index plainOutcome, .advance index plainOutcome], next, ?_, ?_, told⟩
      · exact ((machine self).obeys_cons_of_some _ retires).mpr
          ⟨trivial, ((machine self).obeys_cons_of_some [] moved).mpr ⟨trivial, trivial⟩⟩
      · exact (machine self).run_cons_eq_some.mpr
          ⟨_, retires, (machine self).run_cons_eq_some.mpr ⟨next, moved, rfl⟩⟩
  | lock =>
      rcases locked reachable present with ⟨next, moved, told⟩
      refine ⟨[.advance index plainOutcome], next, ?_, ?_, told⟩
      · exact ((machine self).obeys_cons_of_some [] moved).mpr ⟨trivial, trivial⟩
      · exact (machine self).run_cons_eq_some.mpr ⟨next, moved, rfl⟩
  | close | signal | returned =>
      exact ⟨[], state, trivial, rfl, reachable_told reachable index _ present⟩

/-- A stop comes to an end.  From every reachable state in which the service is
told to stop, or somebody is inside `service_stop`, the calls in progress and
the thread can finish by themselves: without a new call, as soon as handlers
return, and with `uv_run` returning only when the handles are closed.  In the
end every call has returned, the thread has ended if there ever was one, and
the service is STOPPED or later, retired and without pins. -/
theorem stop_completes {self : ServiceId} {state : State}
    (reachable : (machine self).Reachable state)
    (requested : 3 ≤ state.shared.state.rank ∨
      Exists fun index : Nat => Exists fun pc => state.calls[index]? = some (.stop pc)) :
    Exists fun schedule => Exists fun final => (machine self).Obeys Settling state schedule ∧
      (machine self).run state schedule = some final ∧ AtRest final ∧
      4 ≤ final.shared.state.rank ∧ final.shared.sendPins = 0 := by
  have told : Exists fun schedule => Exists fun next =>
      (machine self).Obeys Settling state schedule ∧
        (machine self).run state schedule = some next ∧ 3 ≤ next.shared.state.rank := by
    rcases requested with stopping | ⟨index, pc, present⟩
    · exact ⟨[], state, trivial, rfl, stopping⟩
    · exact stop_tells reachable present
  rcases told with ⟨first, next, obeys, taken, stopping⟩
  have here : (machine self).Reachable next := reachable.run taken
  rcases settles here stopping with ⟨second, final, obeysLater, takenLater, late, rest⟩
  have stopped := atRest_stopped (here.run takenLater) late rest
  exact ⟨first ++ second, final, ((machine self).obeys_append taken).mpr ⟨obeys, obeysLater⟩,
    (machine self).run_append_eq_some.mpr ⟨next, taken, takenLater⟩, rest, stopped⟩

/-- A service with a running thread: one caller sends, one joins and two stop. -/
def stopBeside : List Action :=
  let free : Outcome := ⟨none, 0⟩
  List.flatten
    [[.call .start, .advance 0 free],
      List.replicate 11 (.thread .next),
      [.call (.send ⟨1, 7, 5, .request, some 3⟩), .call (.join false), .call .stop, .call .stop,
        .advance 1 free, .advance 2 free]]

theorem stop_completes_beside :
    Exists fun state => (machine 7).Reachable state ∧ state.shared.state = .running ∧
      Exists fun schedule => Exists fun final => (machine 7).Obeys Settling state schedule ∧
        (machine 7).run state schedule = some final ∧ AtRest final ∧
        4 ≤ final.shared.state.rank ∧ final.shared.sendPins = 0 := by
  have ends : ((machine 7).run .smallest stopBeside).any (fun state => decide
      (state.shared.state = .running ∧ state.calls[3]? = some (.stop .retire))) = true := by
    decide +kernel
  rcases (machine 7).exists_reachable fresh_smallest ends with ⟨state, reachable, running, present⟩
  exact ⟨state, reachable, running, stop_completes reachable (Or.inr ⟨3, .retire, present⟩)⟩

end Service
end ServiceRuntime
