import ServiceRuntime.Service.Calls

namespace ServiceRuntime
namespace Service

open Lua (Letter Co)

/-!
# Everything a call can do

The steps of the calls, one constructor each, with their guards and with the
ring replaced by the queue it stands for.  A region of `mailbox_try_push` is
only described this way on a well-formed ring, which every reachable service
has.
-/

/-! ## `service_send` -/

/-- A sender that holds a spare buffer holds one of the promised size. -/
def SendPc.SpareFits : SendPc -> Prop
  | .relock capacity grown =>
      grown.length = capacity * 2 ∧ capacity ≤ sizeMax / 2 / messageSize
  | _ => True

/-- `service_send` on the queue of the mailbox. -/
inductive SendMove (shared : Shared) (letter : Letter) : SendPc -> Shared -> SendPc -> Prop where
  | pinned (routable : shared.routable = true) :
      SendMove shared letter .pin { shared with sendPins := shared.sendPins + 1 } .push
  | refused (retired : shared.routable = false) : SendMove shared letter .pin shared .refused
  | reported :
      SendMove shared letter .refused shared (.returned (inactiveSendResult shared.state))
  | stored {pc : SendPc} {box : Mailbox Letter} {notify : Bool}
      (entering : pc = .push ∨ Exists fun capacity => Exists fun grown => pc = .relock capacity grown)
      (valid : box.WellFormed) (isOpen : shared.box.closed = false) (stays : box.closed = false)
      (contents : box.contents = shared.box.contents ++ [letter]) (scheduled : box.scheduled = true)
      (first : notify = !shared.box.scheduled) :
      SendMove shared letter pc
        { shared with
          box
          accepted := shared.accepted ++ [letter]
          notices := if notify then shared.notices + 1 else shared.notices }
        (if notify then .readReady else .unpin .ok)
  | shut {pc : SendPc}
      (entering : pc = .push ∨ Exists fun capacity => Exists fun grown => pc = .relock capacity grown)
      (closed : shared.box.closed = true) : SendMove shared letter pc shared .closedResult
  | full {pc : SendPc}
      (entering : pc = .push ∨ Exists fun capacity => Exists fun grown => pc = .relock capacity grown) :
      SendMove shared letter pc shared (.allocate shared.box.capacity)
  | allocated {capacity : Nat} {grown : List Letter} (twice : grown.length = capacity * 2)
      (fits : capacity ≤ sizeMax / 2 / messageSize) :
      SendMove shared letter (.allocate capacity) shared (.relock capacity grown)
  | exhausted {capacity : Nat} : SendMove shared letter (.allocate capacity) shared (.unpin .full)
  | ready (ready : shared.inboxAsyncReady = true) : SendMove shared letter .readReady shared .notify
  | notReady (unready : shared.inboxAsyncReady = false) :
      SendMove shared letter .readReady shared (.unpin .ok)
  | notified : SendMove shared letter .notify { shared with inboxPending := true } (.unpin .ok)
  | tooLate :
      SendMove shared letter .closedResult shared (.unpin (inactiveSendResult shared.state))
  | unpinned {result : SendResult} :
      SendMove shared letter (.unpin result) { shared with sendPins := shared.sendPins - 1 }
        (.returned result)

theorem afterPush_move {shared next : Shared} {letter : Letter} {spare : Option (List Letter)}
    {pc after : SendPc} (valid : shared.box.WellFormed) (fits : shared.box.SpareFits spare)
    (entering : pc = .push ∨ Exists fun capacity => Exists fun grown => pc = .relock capacity grown)
    (moved : afterPush shared letter (shared.box.tryPush spare letter) = (next, after)) :
    SendMove shared letter pc next after := by
  rcases pushed : shared.box.tryPush spare letter with ⟨box, region⟩
  rcases Mailbox.tryPush_spec valid fits letter pushed with ⟨boxValid, closed, _initial, outcome⟩
  rw [pushed] at moved
  rcases outcome with ⟨rfl, isOpen, contents, scheduled⟩ | ⟨rfl, shut, rfl⟩ | ⟨rfl, isOpen, rfl⟩
  · cases moved
    exact .stored entering boxValid isOpen (closed.trans isOpen) contents scheduled rfl
  · cases moved
    exact .shut entering shut
  · cases moved
    exact .full entering

theorem sendStep_move {shared next : Shared} {letter : Letter} {malloc : Option (List Letter)}
    {pc after : SendPc} (valid : shared.box.WellFormed) (spare : pc.SpareFits)
    (moved : sendStep shared letter malloc pc = some (next, after)) :
    SendMove shared letter pc next after := by
  cases pc with
  | pin =>
      simp only [sendStep] at moved
      split at moved <;> rename_i routable <;> cases moved
      · exact .pinned routable
      · exact .refused ((Bool.not_eq_true _).mp routable)
  | refused =>
      cases moved
      exact .reported
  | push =>
      have nothing : shared.box.SpareFits none := by
        intro grown absent
        cases absent
      exact afterPush_move valid nothing (Or.inl rfl) (Option.some.inj moved)
  | allocate capacity =>
      simp only [sendStep] at moved
      split at moved
      · rename_i sized
        unfold Mailbox.allocateSpare at moved
        split at moved
        · rename_i grown present
          split at present
          · rename_i fits
            cases moved
            exact .allocated (sized grown present) fits
          · cases present
        · cases moved
          exact .exhausted
      · cases moved
  | relock capacity grown =>
      apply afterPush_move valid _ (Or.inr ⟨capacity, grown, rfl⟩) (Option.some.inj moved)
      intro buffer present
      split at present
      · rename_i same
        cases present
        rw [same]
        exact spare
      · cases present
  | readReady =>
      simp only [sendStep, Option.some.injEq, Prod.mk.injEq] at moved
      rcases moved with ⟨rfl, rfl⟩
      split <;> rename_i ready
      · exact .ready ready
      · exact .notReady ((Bool.not_eq_true _).mp ready)
  | notify =>
      cases moved
      exact .notified
  | closedResult =>
      cases moved
      exact .tooLate
  | unpin result =>
      cases moved
      exact .unpinned
  | returned result => cases moved

/-! ## `service_stop` and `service_start` -/

theorem Phase.ne_running {phase : Phase} (stopping : 3 ≤ phase.rank) : phase ≠ .running := by
  intro running
  rw [running] at stopping
  exact absurd stopping (by decide)

inductive StopMove (shared : Shared) : StopPc -> Shared -> StopPc -> Prop where
  | retire : StopMove shared .retire { shared with routable := false } .lock
  | stopNew (new : shared.state = .new) :
      StopMove shared .lock
        { shared with
          stopRequested := true
          startDone := true
          startError := ECANCELED
          state := .stopped }
        (.close false)
  | stop {signal : Bool} (active : shared.state = .starting ∨ shared.state = .running)
      (decided : signal = (!shared.stopRequested && shared.controlAsyncReady)) :
      StopMove shared .lock { shared with stopRequested := true, state := .stopping } (.close signal)
  | late (inactive : 3 ≤ shared.state.rank) : StopMove shared .lock shared .returned
  | close {signal : Bool} {after : StopPc} (place : after = if signal then .signal else .returned) :
      StopMove shared (.close signal) { shared with box := shared.box.close } after
  | signal : StopMove shared .signal { shared with controlPending := true } .returned

theorem stopStep_move {shared next : Shared} {pc after : StopPc}
    (moved : stopStep shared pc = some (next, after)) : StopMove shared pc next after := by
  cases pc with
  | retire =>
      cases moved
      exact .retire
  | lock =>
      simp only [stopStep, stopLocked, Option.some.injEq] at moved
      split at moved <;> rename_i phase <;> cases moved
      · exact .stopNew phase
      · exact .stop (Or.inl phase) rfl
      · exact .stop (Or.inr phase) rfl
      all_goals
        apply StopMove.late
        rw [phase]
        decide
  | close signal =>
      cases moved
      exact .close rfl
  | signal =>
      cases moved
      exact .signal
  | returned => cases moved

inductive StartMove (shared : Shared) : StartPc -> Shared -> StartPc -> Prop where
  | start (new : shared.state = .new) :
      StartMove shared .lock { shared with state := .starting, threadCreated := true } .waiting
  | fail {error : Errno} (new : shared.state = .new) (failed : error ≠ 0) :
      StartMove shared .lock
        { shared with state := .stopped, startDone := true, startError := error } (.failRetire error)
  | already (begun : shared.state ≠ .new) : StartMove shared .lock shared (.returned EALREADY)
  | failRetire {error : Errno} :
      StartMove shared (.failRetire error) { shared with routable := false } (.failClose error)
  | failClose {error : Errno} :
      StartMove shared (.failClose error) { shared with box := shared.box.close } (.returned error)
  | done (published : shared.startDone = true) :
      StartMove shared .waiting shared (.returned shared.startError)

theorem startStep_move {shared next : Shared} {error : Errno} {pc after : StartPc}
    (moved : startStep shared error pc = some (next, after)) : StartMove shared pc next after := by
  cases pc with
  | lock =>
      simp only [startStep, startLocked, Option.some.injEq] at moved
      split at moved
      · rename_i new
        split at moved <;> rename_i created <;> cases moved
        · exact .start new
        · exact .fail new created
      · rename_i begun
        cases moved
        exact .already begun
  | failRetire code =>
      cases moved
      exact .failRetire
  | failClose code =>
      cases moved
      exact .failClose
  | waiting =>
      simp only [startStep] at moved
      split at moved <;> rename_i published <;> cases moved
      exact .done published
  | returned code => cases moved

/-! ## `service_free` and `service_join` -/

inductive FreeMove (shared : Shared) : FreePc -> Shared -> FreePc -> Prop where
  | retire : FreeMove shared .retire { shared with routable := false } .wait
  | wait (settled : shared.sendPins = 0) : FreeMove shared .wait shared .lock
  | free (joined : shared.state = .joined) :
      FreeMove shared .lock { shared with inboxPresent := false, state := .freed } .delete
  | busy (unjoined : shared.state ≠ .joined) : FreeMove shared .lock shared (.returned EBUSY)
  | delete :
      FreeMove shared .delete { shared with deleting := true, box := shared.box.close } .dispose
  | dispose {letter : Letter} (found : (popInbox shared).2 = some letter) :
      FreeMove shared .dispose
        { (popInbox shared).1 with disposed := shared.disposed ++ [letter] } .dispose
  | done (empty : (popInbox shared).2 = none) :
      FreeMove shared .dispose (popInbox shared).1 (.returned 0)

theorem freeStep_move {shared next : Shared} {pc after : FreePc}
    (moved : freeStep shared pc = some (next, after)) : FreeMove shared pc next after := by
  cases pc with
  | retire =>
      cases moved
      exact .retire
  | wait =>
      simp only [freeStep] at moved
      split at moved <;> rename_i settled <;> cases moved
      exact .wait settled
  | lock =>
      simp only [freeStep] at moved
      split at moved <;> rename_i joined <;> cases moved
      · exact .free joined
      · exact .busy joined
  | delete =>
      cases moved
      exact .delete
  | dispose =>
      simp only [freeStep] at moved
      split at moved <;> rename_i found <;> cases moved
      · exact .dispose found
      · exact .done found
  | returned error => cases moved

/-- The join stands before its first section, with nobody else joining. -/
def Arrives (shared : Shared) (hasThread : Bool) (pc : JoinPc) : Prop :=
  shared.joining = false ∧
    ((pc = .enter ∧ hasThread = shared.threadCreated) ∨ pc = .waiting hasThread)

inductive JoinMove (shared : Shared) (fromThread : Bool) : JoinPc -> Shared -> JoinPc -> Prop where
  | deadlock (own : fromThread = true) : JoinMove shared fromThread .enter shared (.returned EDEADLK)
  | wait (joining : shared.joining = true) :
      JoinMove shared fromThread .enter shared (.waiting shared.threadCreated)
  | past {pc : JoinPc} {hasThread : Bool} (arrives : Arrives shared hasThread pc)
      (done : shared.threadJoined = true ∨ shared.state = .freed) :
      JoinMove shared fromThread pc shared (.returned shared.joinError)
  | refuse {pc : JoinPc} (arrives : Arrives shared false pc)
      (unjoined : ¬ (shared.threadJoined = true ∨ shared.state = .freed))
      (active : shared.state ≠ .stopped) :
      JoinMove shared fromThread pc shared (.returned EINVAL)
  | claim {pc : JoinPc} {hasThread : Bool} (arrives : Arrives shared hasThread pc)
      (unjoined : ¬ (shared.threadJoined = true ∨ shared.state = .freed))
      (allowed : hasThread = false -> shared.state = .stopped) :
      JoinMove shared fromThread pc { shared with joining := true } (.pthreadJoin hasThread)
  | reap {hasThread : Bool} (gone : hasThread = false ∨ shared.threadEnded = true) :
      JoinMove shared fromThread (.pthreadJoin hasThread) shared .publish
  | publish :
      JoinMove shared fromThread .publish
        { shared with joinError := 0, threadJoined := true, state := .joined } (.free .retire)
  | free {pc after : FreePc} {next : Shared} (moved : FreeMove shared pc next after) :
      JoinMove shared fromThread (.free pc) next (.free after)
  | freed {error : Errno} : JoinMove shared fromThread (.free (.returned error)) shared (.finish error)
  | finish {error : Errno} :
      JoinMove shared fromThread (.finish error) { shared with joining := false } (.returned error)

theorem joinLocked_move {shared next : Shared} {hasThread fromThread : Bool} {pc after : JoinPc}
    (arrives : Arrives shared hasThread pc) (moved : joinLocked shared hasThread = (next, after)) :
    JoinMove shared fromThread pc next after := by
  unfold joinLocked at moved
  split at moved
  · rename_i done
    cases moved
    exact .past arrives done
  · rename_i unjoined
    split at moved
    · rename_i refused
      cases moved
      rw [refused.1] at arrives
      exact .refuse arrives unjoined refused.2
    · rename_i allowed
      cases moved
      apply JoinMove.claim arrives unjoined
      intro absent
      by_contra active
      exact allowed ⟨absent, active⟩

theorem joinStep_move {shared next : Shared} {fromThread : Bool} {pc after : JoinPc}
    (moved : joinStep shared fromThread pc = some (next, after)) :
    JoinMove shared fromThread pc next after := by
  cases pc with
  | enter =>
      simp only [joinStep] at moved
      split at moved
      · rename_i own
        cases moved
        exact .deadlock (Bool.and_eq_true_iff.mp own).2
      · split at moved
        · rename_i joining
          cases moved
          exact .wait joining
        · rename_i alone
          exact joinLocked_move ⟨(Bool.not_eq_true _).mp alone, Or.inl ⟨rfl, rfl⟩⟩
            (Option.some.inj moved)
  | waiting hasThread =>
      simp only [joinStep] at moved
      split at moved
      · cases moved
      · rename_i alone
        exact joinLocked_move ⟨(Bool.not_eq_true _).mp alone, Or.inr rfl⟩ (Option.some.inj moved)
  | pthreadJoin hasThread =>
      simp only [joinStep] at moved
      split at moved <;> rename_i gone <;> cases moved
      exact .reap gone
  | publish =>
      cases moved
      exact .publish
  | free inner =>
      cases inner with
      | returned error =>
          cases moved
          exact .freed
      | retire | wait | lock | delete | dispose =>
          simp only [joinStep] at moved
          rcases Option.map_eq_some_iff.mp moved with ⟨⟨freed, later⟩, taken, result⟩
          cases result
          exact .free (freeStep_move taken)
  | finish error =>
      cases moved
      exact .finish
  | returned error => cases moved

/-! ## All calls -/

def Call.SpareFits : Call -> Prop
  | .send _ pc => pc.SpareFits
  | _ => True

inductive CallMove (shared : Shared) (index : Nat) : Call -> Shared -> Call -> Prop where
  | send {message : Message} {pc after : SendPc} {next : Shared}
      (moved : SendMove shared ⟨message, index⟩ pc next after) :
      CallMove shared index (.send message pc) next (.send message after)
  | stop {pc after : StopPc} {next : Shared} (moved : StopMove shared pc next after) :
      CallMove shared index (.stop pc) next (.stop after)
  | start {pc after : StartPc} {next : Shared} (moved : StartMove shared pc next after) :
      CallMove shared index (.start pc) next (.start after)
  | join {fromThread : Bool} {pc after : JoinPc} {next : Shared}
      (moved : JoinMove shared fromThread pc next after) :
      CallMove shared index (.join fromThread pc) next (.join fromThread after)
  | free {pc after : FreePc} {next : Shared} (moved : FreeMove shared pc next after) :
      CallMove shared index (.free pc) next (.free after)

theorem callStep_move {shared next : Shared} {index : Nat} {outcome : Outcome} {call after : Call}
    (valid : shared.box.WellFormed) (spare : call.SpareFits)
    (moved : callStep shared index outcome call = some (next, after)) :
    CallMove shared index call next after := by
  cases call with
  | send message pc =>
      rcases Option.map_eq_some_iff.mp moved with ⟨⟨sent, later⟩, taken, result⟩
      cases result
      exact .send (sendStep_move valid spare taken)
  | stop pc =>
      rcases Option.map_eq_some_iff.mp moved with ⟨⟨sent, later⟩, taken, result⟩
      cases result
      exact .stop (stopStep_move taken)
  | start pc =>
      rcases Option.map_eq_some_iff.mp moved with ⟨⟨sent, later⟩, taken, result⟩
      cases result
      exact .start (startStep_move taken)
  | join fromThread pc =>
      rcases Option.map_eq_some_iff.mp moved with ⟨⟨sent, later⟩, taken, result⟩
      cases result
      exact .join (joinStep_move taken)
  | free pc =>
      rcases Option.map_eq_some_iff.mp moved with ⟨⟨sent, later⟩, taken, result⟩
      cases result
      exact .free (freeStep_move taken)

end Service
end ServiceRuntime
