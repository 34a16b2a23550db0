import ServiceRuntime.Foundation.Monitor
import ServiceRuntime.Service.Stops

namespace ServiceRuntime
namespace Service

open Lua (Letter Co)
open Foundation

/-!
# Nobody sleeps through the end of a wait

`service_start` waits for `start_done` and `service_join` for the end of
another join, both on `state_changed`; `service_wait_pins` waits for
`send_pins` on `pins_changed`.  `Service.Thread` only says when such a wait is
over.  Here the threads sleep, and are woken where the source broadcasts.
-/

/-- Who may wait: a call into the service, and its own thread. -/
inductive Waiter where
  | call (index : Nat)
  | thread
  deriving DecidableEq, Repr

/-- `service_t.state_changed` and `service_pool_t.pins_changed`. -/
inductive Cond where
  | stateChanged
  | pinsChanged
  deriving DecidableEq, Repr

/-! ## Where the source waits -/

/-- The loop of `service_wait_pins`. -/
def waitPins (shared : Shared) : Option Cond :=
  if shared.sendPins = 0 then none else some .pinsChanged

/-- The loop of `service_start`. -/
def StartPc.waits (shared : Shared) : StartPc -> Option Cond
  | .waiting => if shared.startDone then none else some .stateChanged
  | _ => none

def FreePc.waits (shared : Shared) : FreePc -> Option Cond
  | .wait => waitPins shared
  | _ => none

/-- The loop of `service_join`. -/
def JoinPc.waits (shared : Shared) : JoinPc -> Option Cond
  | .waiting _ => if shared.joining then some .stateChanged else none
  | .free pc => pc.waits shared
  | _ => none

def Call.waits (shared : Shared) : Call -> Option Cond
  | .start pc => pc.waits shared
  | .join _ pc => pc.waits shared
  | .free pc => pc.waits shared
  | .send _ _ | .stop _ => none

def ThreadPc.waits (shared : Shared) : ThreadPc -> Option Cond
  | .shutdown _ .waitPins => waitPins shared
  | _ => none

def State.waits (state : State) : Waiter -> Option Cond
  | .call index => (state.calls[index]?).bind (Call.waits state.shared)
  | .thread => state.thread.waits state.shared

/-! ## Where the source broadcasts -/

/-- `service_unpin` broadcasts when the last pin goes. -/
def SendPc.broadcasts (shared : Shared) : SendPc -> Cond -> Bool
  | .unpin _, .pinsChanged => shared.sendPins = 1
  | _, _ => false

/-- `service_stop` broadcasts in every state of the service. -/
def StopPc.broadcasts : StopPc -> Cond -> Bool
  | .lock, .stateChanged => true
  | _, _ => false

/-- `service_start` broadcasts when `pthread_create` has failed. -/
def StartPc.broadcasts (shared : Shared) (error : Errno) : StartPc -> Cond -> Bool
  | .lock, .stateChanged => shared.state = .new && error ≠ 0
  | _, _ => false

def FreePc.broadcasts (shared : Shared) : FreePc -> Cond -> Bool
  | .lock, .stateChanged => shared.state = .joined
  | _, _ => false

def JoinPc.broadcasts (shared : Shared) : JoinPc -> Cond -> Bool
  | .free pc, cond => pc.broadcasts shared cond
  | .finish _, .stateChanged => true
  | _, _ => false

def Call.broadcasts (shared : Shared) (outcome : Outcome) : Call -> Cond -> Bool
  | .send _ pc => pc.broadcasts shared
  | .stop pc => pc.broadcasts
  | .start pc => pc.broadcasts shared outcome.error
  | .join _ pc => pc.broadcasts shared
  | .free pc => pc.broadcasts shared

/-- The end of the start and the end of the thread, and its own calls of
`service_stop`. -/
def ThreadPc.broadcasts : ThreadPc -> Cond -> Bool
  | .publish _, .stateChanged | .finishPublish, .stateChanged => true
  | .quitting _ pc, cond | .failStop pc, cond => pc.broadcasts cond
  | _, _ => false

/-- The waits and the broadcasts of the machine of one service. -/
def waitPlaces : Waits State Action Waiter Cond where
  mover
    | .call _ => none
    | .advance index _ => some (.call index)
    | .thread _ => some .thread
  waits := State.waits
  broadcasts state action cond :=
    match action with
    | .call _ => false
    | .advance index outcome =>
        (state.calls[index]?).any fun call => call.broadcasts state.shared outcome cond
    | .thread _ => state.thread.broadcasts cond

/-! ## A wait that is over has been broadcast -/

/-- The waits on a variable go on. -/
def Unheard (shared next : Shared) : Cond -> Prop
  | .stateChanged =>
      (shared.startDone = false -> next.startDone = false) ∧
        (shared.joining = true -> next.joining = true)
  | .pinsChanged => shared.sendPins ≠ 0 -> next.sendPins ≠ 0

section Steps

variable {shared next : Shared} {cond : Cond}

theorem Unheard.of_same (started : next.startDone = shared.startDone)
    (joining : next.joining = shared.joining) (pins : next.sendPins = shared.sendPins)
    (cond : Cond) : Unheard shared next cond := by
  cases cond with
  | stateChanged => exact ⟨started.trans, joining.trans⟩
  | pinsChanged =>
      intro held
      rw [pins]
      exact held

theorem SendMove.unheard {letter : Letter} {pc after : SendPc}
    (moved : SendMove shared letter pc next after) (quiet : pc.broadcasts shared cond = false) :
    Unheard shared next cond := by
  cases moved with
  | pinned routable =>
      cases cond with
      | stateChanged => exact ⟨id, id⟩
      | pinsChanged => exact fun _ => Nat.succ_ne_zero _
  | unpinned =>
      cases cond with
      | stateChanged => exact ⟨id, id⟩
      | pinsChanged =>
          have more : shared.sendPins ≠ 1 := by simpa [SendPc.broadcasts] using quiet
          intro held
          show shared.sendPins - 1 ≠ 0
          omega
  | _ => exact .of_same rfl rfl rfl cond

theorem StopMove.unheard {pc after : StopPc} (moved : StopMove shared pc next after)
    (quiet : pc.broadcasts cond = false) : Unheard shared next cond := by
  cases moved with
  | stopNew new =>
      cases cond with
      | stateChanged => cases quiet
      | pinsChanged => exact id
  | _ => exact .of_same rfl rfl rfl cond

theorem startStep_unheard {error : Errno} {pc after : StartPc}
    (moved : startStep shared error pc = some (next, after))
    (quiet : pc.broadcasts shared error cond = false) : Unheard shared next cond := by
  have effect := startStep_move moved
  cases effect with
  | fail new failed =>
      cases cond with
      | stateChanged =>
          -- The failure is the one that `pthread_create` reports in this step.
          simp only [startStep, startLocked, new, if_true, Option.some.injEq] at moved
          split at moved
          · cases moved
          · rename_i reported
            simp [StartPc.broadcasts, new, reported] at quiet
      | pinsChanged => exact id
  | _ => exact .of_same rfl rfl rfl cond

theorem FreeMove.unheard {pc after : FreePc} (moved : FreeMove shared pc next after) :
    Unheard shared next cond := by
  cases moved <;> exact .of_same rfl rfl rfl cond

theorem JoinMove.unheard {fromThread : Bool} {pc after : JoinPc}
    (moved : JoinMove shared fromThread pc next after)
    (quiet : pc.broadcasts shared cond = false) : Unheard shared next cond := by
  cases moved with
  | claim =>
      cases cond with
      | stateChanged => exact ⟨id, fun _ => rfl⟩
      | pinsChanged => exact id
  | free moved => exact moved.unheard
  | finish =>
      cases cond with
      | stateChanged => cases quiet
      | pinsChanged => exact id
  | _ => exact .of_same rfl rfl rfl cond

theorem callStep_unheard {index : Nat} {outcome : Outcome} {call after : Call}
    (valid : shared.box.WellFormed) (spare : call.SpareFits)
    (moved : callStep shared index outcome call = some (next, after))
    (quiet : call.broadcasts shared outcome cond = false) : Unheard shared next cond := by
  cases callStep_move valid spare moved with
  | start _ =>
      rcases Option.map_eq_some_iff.mp moved with ⟨⟨later, there⟩, taken, result⟩
      cases result
      exact startStep_unheard taken quiet
  | send sent => exact sent.unheard quiet
  | stop stopped => exact stopped.unheard quiet
  | join joined => exact joined.unheard quiet
  | free freed => exact freed.unheard

end Steps

theorem ThreadMove.unheard {self : ServiceId} {state next : State} {cond : Cond}
    (moved : ThreadMove self state next) (quiet : state.thread.broadcasts cond = false) :
    Unheard state.shared next.shared cond := by
  cases moved with
  | started located | notStarted located =>
      rw [located] at quiet
      cases cond with
      | stateChanged => cases quiet
      | pinsChanged => exact id
  | quitStep located moved | failStep located moved =>
      rw [located] at quiet
      exact moved.unheard quiet
  | shutdownStep located moved | shutdownDone located moved =>
      cases moved <;> exact .of_same rfl rfl rfl cond
  | _ => exact .of_same rfl rfl rfl cond

/-! ## Who waits takes no step -/

section Blocked

variable {shared : Shared}

theorem callStep_blocked {index : Nat} {outcome : Outcome} {call : Call}
    (enabled : (callStep shared index outcome call).isSome = true) : call.waits shared = none := by
  have free (pc : FreePc) (moves : (freeStep shared pc).isSome = true) : pc.waits shared = none := by
    cases pc with
    | wait =>
        by_cases settled : shared.sendPins = 0
        · exact if_pos settled
        · simp [freeStep, settled] at moves
    | _ => rfl
  cases call with
  | send message pc | stop pc => rfl
  | start pc =>
      cases pc with
      | waiting =>
          cases done : shared.startDone with
          | true => simp [Call.waits, StartPc.waits, done]
          | false => simp [callStep, startStep, done] at enabled
      | _ => rfl
  | join fromThread pc =>
      cases pc with
      | waiting hasThread =>
          cases joining : shared.joining with
          | true => simp [callStep, joinStep, joining] at enabled
          | false => simp [Call.waits, JoinPc.waits, joining]
      | free pc =>
          cases pc with
          | wait => exact free .wait (by simpa [callStep, joinStep] using enabled)
          | _ => rfl
      | _ => rfl
  | free pc =>
      apply free
      simpa [callStep] using enabled

end Blocked

theorem threadStep_blocked {self : ServiceId} {state next : State} {choice : ThreadChoice}
    (moved : threadStep self state choice = some next) :
    state.thread.waits state.shared = none := by
  cases located : state.thread with
  | shutdown caller pc =>
      cases pc with
      | waitPins =>
          by_cases settled : state.shared.sendPins = 0
          · exact if_pos settled
          · have refused : shutdownStep self state.shared .waitPins = none := if_neg settled
            cases choice with
            | next =>
                simp only [threadStep, located, refused, Option.map_none] at moved
                cases moved
            | _ =>
                simp only [threadStep, located] at moved
                cases moved
      | _ => rfl
  | _ => rfl

/-! ## The waits are sound -/

section Unheard

variable {shared next : Shared} {cond : Cond}

theorem waitPins_unheard (unheard : Unheard shared next cond)
    (waiting : waitPins shared = some cond) : waitPins next = some cond := by
  unfold waitPins at waiting ⊢
  split at waiting <;> rename_i held <;> cases waiting
  exact if_neg (unheard held)

theorem FreePc.waits_unheard {pc : FreePc} (unheard : Unheard shared next cond)
    (waiting : pc.waits shared = some cond) : pc.waits next = some cond := by
  cases pc with
  | wait => exact waitPins_unheard unheard waiting
  | _ => cases waiting

theorem Call.waits_unheard {call : Call} (unheard : Unheard shared next cond)
    (waiting : call.waits shared = some cond) : call.waits next = some cond := by
  cases call with
  | send message pc | stop pc => cases waiting
  | start pc =>
      cases pc with
      | waiting =>
          simp only [Call.waits, StartPc.waits] at waiting ⊢
          split at waiting <;> rename_i begun <;> cases waiting
          rw [unheard.1 ((Bool.not_eq_true _).mp begun)]
          rfl
      | _ => cases waiting
  | join fromThread pc =>
      cases pc with
      | waiting hasThread =>
          simp only [Call.waits, JoinPc.waits] at waiting ⊢
          split at waiting <;> rename_i joining <;> cases waiting
          rw [unheard.2 joining]
          rfl
      | free pc => exact FreePc.waits_unheard unheard waiting
      | _ => cases waiting
  | free pc => exact FreePc.waits_unheard unheard waiting

theorem ThreadPc.waits_unheard {pc : ThreadPc} (unheard : Unheard shared next cond)
    (waiting : pc.waits shared = some cond) : pc.waits next = some cond := by
  cases pc with
  | shutdown caller pc =>
      cases pc with
      | waitPins => exact waitPins_unheard unheard waiting
      | _ => cases waiting
  | _ => cases waiting

end Unheard

/-- A waiter that the step leaves where it is waits on if it hears nothing. -/
theorem State.waits_unheard {state next : State} {waiter : Waiter} {cond : Cond}
    (unheard : Unheard state.shared next.shared cond)
    (rests : match waiter with
      | .call index => forall call, state.calls[index]? = some call -> next.calls[index]? = some call
      | .thread => next.thread = state.thread)
    (waiting : state.waits waiter = some cond) : next.waits waiter = some cond := by
  cases waiter with
  | call index =>
      rcases Option.bind_eq_some_iff.mp waiting with ⟨call, present, stands⟩
      exact Option.bind_eq_some_iff.mpr ⟨call, rests call present, Call.waits_unheard unheard stands⟩
  | thread =>
      show next.thread.waits next.shared = some cond
      rw [rests]
      exact ThreadPc.waits_unheard unheard waiting

theorem waitPlaces_sound (self : ServiceId) : waitPlaces.Sound (machine self) where
  stuck := by
    intro state action next waiter moved mover
    cases action with
    | call request => cases mover
    | advance index outcome =>
        cases mover
        rcases advance_cases moved with ⟨call, shared, after, present, taken, _⟩
        show (state.calls[index]?).bind _ = none
        rw [present, Option.bind_some]
        exact callStep_blocked (Option.isSome_iff_exists.mpr ⟨_, taken⟩)
    | thread choice =>
        cases mover
        exact threadStep_blocked moved
  told := by
    intro state action next waiter cond reachable moved waiting quiet
    have inbox := reachable_inbox reachable
    cases action with
    | call request =>
        cases moved
        show State.waits { state with calls := state.calls ++ [request.call] } waiter = some cond
        refine State.waits_unheard ?_ ?_ waiting
        · exact .of_same rfl rfl rfl cond
        · cases waiter with
          | call index =>
              intro call present
              exact (List.getElem?_append_left (length_of_getElem? present)).trans present
          | thread => rfl
    | advance index outcome =>
        rcases advance_cases moved with ⟨call, shared, after, present, taken, rfl⟩
        have unheard : Unheard state.shared shared cond := by
          apply callStep_unheard inbox.valid (inbox.spares index call present) taken
          simpa only [waitPlaces, present, Option.any_some] using quiet
        show State.waits { state with shared, calls := state.calls.set index after } waiter = some cond
        apply State.waits_unheard unheard _ waiting
        cases waiter with
        | call position =>
            intro other beside
            by_cases own : index = position
            · -- The caller that waits is the one that moves.
              subst own
              cases present.symm.trans beside
              have stands : (state.calls[index]?).bind (Call.waits state.shared) = some cond := waiting
              rw [present, Option.bind_some,
                callStep_blocked (Option.isSome_iff_exists.mpr ⟨_, taken⟩)] at stands
              cases stands
            · exact (List.getElem?_set_ne own).trans beside
        | thread => rfl
    | thread choice =>
        have threadMoved := threadStep_move moved
        show State.waits next waiter = some cond
        apply State.waits_unheard (threadMoved.unheard quiet) _ waiting
        cases waiter with
        | call index =>
            intro call present
            rw [threadMoved.calls]
            exact present
        | thread =>
            have free := threadStep_blocked moved
            exact absurd (free.symm.trans waiting) (Option.some_ne_none cond).symm

/-- A service whose threads sleep on `state_changed` and `pins_changed` and are
woken by the broadcasts of the source, or spuriously, reaches exactly the
states of the model in which a wait is a step that is not enabled.  Whoever
sleeps has a condition that still fails, so that nobody sleeps through the end
of a wait, and every step of the model can be taken without waking anybody
first. -/
theorem sleeping_is_blocking {self : ServiceId} {state : Monitor.State State Waiter Cond}
    (reachable : (Monitor.monitored waitPlaces (machine self)).Reachable state) :
    (forall entry, entry ∈ state.asleep -> state.model.waits entry.1 = some entry.2) ∧
    (forall action next, step self state.model action = some next -> Exists fun asleep =>
      (Monitor.monitored waitPlaces (machine self)).step state (.move action) =
        some ⟨next, asleep⟩) ∧
    (forall model, (machine self).Reachable model <-> Exists fun asleep =>
      (Monitor.monitored waitPlaces (machine self)).Reachable ⟨model, asleep⟩) :=
  ⟨Monitor.asleep_waits (waitPlaces_sound self) reachable,
    fun _ _ taken => Monitor.enabled (waitPlaces_sound self) reachable taken,
    fun _ => Monitor.reachable_iff (waitPlaces_sound self)⟩

/-- A start that sleeps while the thread fails to make its loop. -/
def startAsleep : List (Monitor.Action Action Waiter) :=
  [.move (.call .start), .move (.advance 0 ⟨none, 0⟩), .sleep (.call 0), .move (.thread .next),
    .move (.thread (.fail 12)), .move (.thread .next)]

theorem sleeping_is_blocking_start :
    Exists fun state => (Monitor.monitored waitPlaces (machine 7)).Reachable state ∧
      state.asleep = [(.call 0, .stateChanged)] ∧
      state.model.waits (.call 0) = some .stateChanged ∧
      Exists fun later => (Monitor.monitored waitPlaces (machine 7)).run state
          [.move (.thread .next), .move (.advance 0 ⟨none, 0⟩)] = some later ∧
        later.model.calls = [.start (.returned 12)] := by
  have ends : ((Monitor.monitored waitPlaces (machine 7)).run ⟨.smallest, []⟩ startAsleep).any
      (fun final => decide (final.asleep = [(.call 0, .stateChanged)] ∧
        ((Monitor.monitored waitPlaces (machine 7)).run final
          [.move (.thread .next), .move (.advance 0 ⟨none, 0⟩)]).any
            (fun later => later.model.calls = [.start (.returned 12)]) = true)) = true := by
    decide +kernel
  have initial : (Monitor.monitored waitPlaces (machine 7)).initial ⟨.smallest, []⟩ :=
    ⟨fresh_smallest, rfl⟩
  rcases (Monitor.monitored waitPlaces (machine 7)).exists_reachable initial ends with
    ⟨state, reachable, sleeps, wakes⟩
  rcases (Option.any_eq_true _ _).mp wakes with ⟨later, taken, returned⟩
  have entered : (Waiter.call 0, Cond.stateChanged) ∈ state.asleep := by
    rw [sleeps]
    exact List.mem_singleton_self _
  have waits := (sleeping_is_blocking reachable).1 _ entered
  exact ⟨state, reachable, sleeps, waits, later, taken, of_decide_eq_true returned⟩

end Service
end ServiceRuntime
