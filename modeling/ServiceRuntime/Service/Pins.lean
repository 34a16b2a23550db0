import ServiceRuntime.Service.Inbox

namespace ServiceRuntime
namespace Service

open Lua (Letter Co)
open Foundation

/-!
# Send pins

A sender counts itself in `send_pins` before it touches the target and leaves
the count when it is done.  Shutting down and freeing both clear `routable`
first and then wait for the count to reach zero.  Once both have happened the
service is quiet, and it stays quiet: that single fact is what later stages
rely on, whichever thread runs them.

Every program point has a demand on the shared state: nothing, that the
service is retired, or that it is quiet.  The invariant is that all demands
are met.
-/

/-! ## Who holds a pin -/

/-- The sender stands between a successful pin and its unpin. -/
def SendPc.Pinned : SendPc -> Bool
  | .pin | .refused | .returned _ => false
  | .push | .allocate _ | .relock _ _ | .readReady | .notify | .closedResult | .unpin _ => true

/-- The sender is inside `mailbox_try_push`, or about to enter it. -/
def SendPc.InInbox : SendPc -> Bool
  | .push | .allocate _ | .relock _ _ => true
  | _ => false

def Call.pins : Call -> Nat
  | .send _ pc => pc.Pinned.toNat
  | _ => 0

/-- No sender can reach the service any more, and none is left inside. -/
def Quiet (shared : Shared) : Prop :=
  shared.routable = false ∧ shared.sendPins = 0

/-- The target is being taken apart: its mailbox deleted or its inbox handle
closed. -/
def Dismantled (shared : Shared) : Prop :=
  shared.deleting = true ∨ shared.inboxPresent = false ∨ shared.inboxClosing = true

/-! ## Demands -/

inductive Demand where
  | nothing
  | retired
  | quiet
  deriving DecidableEq, Repr

def Demand.Met (shared : Shared) : Demand -> Prop
  | .nothing => True
  | .retired => shared.routable = false
  | .quiet => Quiet shared

def FreePc.demand : FreePc -> Demand
  | .retire | .returned _ => .nothing
  | .wait => .retired
  | .lock | .delete | .dispose => .quiet

def JoinPc.demand : JoinPc -> Demand
  | .free pc => pc.demand
  | _ => .nothing

def Call.demand : Call -> Demand
  | .join _ pc => pc.demand
  | .free pc => pc.demand
  | _ => .nothing

def ShutdownPc.demand : ShutdownPc -> Demand
  | .retire => .nothing
  | .close | .waitPins => .retired
  | .drain | .drained _ => .quiet

/-- The demand after a step of the shutdown; `none` is its end. -/
def shutdownDemand : Option ShutdownPc -> Demand
  | some pc => pc.demand
  | none => .quiet

def ThreadPc.demand : ThreadPc -> Demand
  | .shutdown _ pc => pc.demand
  | .closeHandles _ | .notifyStop | .finishRun | .luaClose | .finishPublish | .ended => .quiet
  | .lua pc => if pc.Stopping then .quiet else .nothing
  | _ => .nothing

/-- Neither the pins nor what protects them has changed. -/
structure SamePins (shared next : Shared) : Prop where
  pins : next.sendPins = shared.sendPins
  routable : next.routable = shared.routable
  deleting : next.deleting = shared.deleting
  present : next.inboxPresent = shared.inboxPresent
  closing : next.inboxClosing = shared.inboxClosing

/-- What one step may do to the pins, when the thread that moves held
`before` pins and holds `after`. -/
structure PinStep (shared next : Shared) (before after : Nat) : Prop where
  balanced : next.sendPins + before = shared.sendPins + after
  retired : shared.routable = false -> next.routable = false ∧ after ≤ before
  dismantled : Dismantled next -> Dismantled shared ∨ Quiet next

namespace PinStep

variable {shared next : Shared} {before after : Nat}

theorem quiet (moved : PinStep shared next before after) (settled : Quiet shared) : Quiet next := by
  have later := moved.retired settled.1
  have pins := moved.balanced
  have none := settled.2
  exact ⟨later.1, by omega⟩

theorem met (moved : PinStep shared next before after) {demand : Demand}
    (holds : demand.Met shared) : demand.Met next := by
  cases demand with
  | nothing => trivial
  | retired => exact (moved.retired holds).1
  | quiet => exact moved.quiet holds

theorem of_same {held : Nat} (same : SamePins shared next) : PinStep shared next held held where
  balanced := by rw [same.pins]
  retired := fun retired => ⟨same.routable.trans retired, Nat.le_refl held⟩
  dismantled := fun gone => by
    unfold Dismantled at gone ⊢
    rw [same.deleting, same.present, same.closing] at gone
    exact Or.inl gone

/-- Clearing `routable` and nothing else. -/
theorem of_retire (held : Nat) : PinStep shared { shared with routable := false } held held where
  balanced := rfl
  retired := fun _ => ⟨rfl, Nat.le_refl held⟩
  dismantled := fun gone => Or.inl gone

end PinStep

/-! ## The calls -/

theorem SendMove.pins {shared next : Shared} {letter : Letter} {pc after : SendPc}
    (moved : SendMove shared letter pc next after) (held : pc.Pinned.toNat ≤ shared.sendPins) :
    PinStep shared next pc.Pinned.toNat after.Pinned.toNat := by
  cases moved with
  | pinned routable =>
      refine ⟨rfl, fun retired => ?_, fun gone => Or.inl gone⟩
      cases routable.symm.trans retired
  | stored entering =>
      rename_i box notify valid isOpen stays contents scheduled first
      have pinned : pc.Pinned = true := by
        rcases entering with rfl | ⟨capacity, grown, rfl⟩ <;> rfl
      have still : (if notify then SendPc.readReady else .unpin .ok).Pinned = true := by
        split <;> rfl
      rw [pinned, still]
      exact PinStep.of_same ⟨rfl, rfl, rfl, rfl, rfl⟩
  | shut entering | full entering =>
      rcases entering with rfl | ⟨capacity, grown, rfl⟩ <;>
        exact PinStep.of_same ⟨rfl, rfl, rfl, rfl, rfl⟩
  | unpinned =>
      have positive : 0 < shared.sendPins := held
      refine ⟨?_, fun retired => ⟨retired, Nat.zero_le _⟩, fun gone => Or.inl gone⟩
      simp only [SendPc.Pinned, Bool.toNat_true, Bool.toNat_false]
      omega
  | _ => exact PinStep.of_same ⟨rfl, rfl, rfl, rfl, rfl⟩

theorem StopMove.pins {shared next : Shared} {pc after : StopPc}
    (moved : StopMove shared pc next after) : PinStep shared next 0 0 := by
  cases moved with
  | retire => exact PinStep.of_retire 0
  | _ => exact PinStep.of_same ⟨rfl, rfl, rfl, rfl, rfl⟩

theorem StartMove.pins {shared next : Shared} {pc after : StartPc}
    (moved : StartMove shared pc next after) : PinStep shared next 0 0 := by
  cases moved with
  | failRetire => exact PinStep.of_retire 0
  | _ => exact PinStep.of_same ⟨rfl, rfl, rfl, rfl, rfl⟩

/-- Freeing is where the wait pays: after it the service is quiet. -/
theorem FreeMove.pins {shared next : Shared} {pc after : FreePc}
    (moved : FreeMove shared pc next after) (holds : pc.demand.Met shared) :
    PinStep shared next 0 0 ∧ after.demand.Met next := by
  have same {later : Shared} (equal : SamePins shared later) : PinStep shared later 0 0 :=
    PinStep.of_same equal
  cases moved with
  | retire => exact ⟨PinStep.of_retire 0, rfl⟩
  | wait settled => exact ⟨same ⟨rfl, rfl, rfl, rfl, rfl⟩, holds, settled⟩
  | free | delete =>
      exact ⟨⟨rfl, fun retired => ⟨retired, Nat.le_refl 0⟩, fun _ => Or.inr holds⟩, holds⟩
  | dispose => exact ⟨same ⟨rfl, rfl, rfl, rfl, rfl⟩, holds⟩
  | busy | done => exact ⟨same ⟨rfl, rfl, rfl, rfl, rfl⟩, trivial⟩

theorem JoinMove.pins {shared next : Shared} {fromThread : Bool} {pc after : JoinPc}
    (moved : JoinMove shared fromThread pc next after) (holds : pc.demand.Met shared) :
    PinStep shared next 0 0 ∧ after.demand.Met next := by
  cases moved with
  | free moved => exact moved.pins holds
  | _ => exact ⟨PinStep.of_same ⟨rfl, rfl, rfl, rfl, rfl⟩, trivial⟩

/-- One step of any call. -/
theorem CallMove.pinStep {shared next : Shared} {index : Nat} {call after : Call}
    (moved : CallMove shared index call next after) (held : call.pins ≤ shared.sendPins)
    (holds : call.demand.Met shared) :
    PinStep shared next call.pins after.pins ∧ after.demand.Met next := by
  cases moved with
  | send moved => exact ⟨moved.pins held, trivial⟩
  | stop moved => exact ⟨moved.pins, trivial⟩
  | start moved => exact ⟨moved.pins, trivial⟩
  | join moved => exact moved.pins holds
  | free moved => exact moved.pins holds

/-! ## The service thread -/

theorem ShutdownMove.pins {self : ServiceId} {shared next : Shared} {pc : ShutdownPc}
    {after : Option ShutdownPc} (moved : ShutdownMove self shared pc next after)
    (holds : pc.demand.Met shared) :
    PinStep shared next 0 0 ∧ (shutdownDemand after).Met next := by
  have same {later : Shared} (equal : SamePins shared later) : PinStep shared later 0 0 :=
    PinStep.of_same equal
  cases moved with
  | retire => exact ⟨PinStep.of_retire 0, rfl⟩
  | waited settled => exact ⟨same ⟨rfl, rfl, rfl, rfl, rfl⟩, holds, settled⟩
  | _ => exact ⟨same ⟨rfl, rfl, rfl, rfl, rfl⟩, holds⟩

/-- A walk never moves to a point with a demand that was not met before. -/
theorem Walk.demand {state : State} {before after : ThreadPc} (walked : Walk state before after)
    (holds : before.demand.Met state.shared) : after.demand.Met state.shared := by
  cases walked with
  | notify | loopClosed | loopBusy => exact holds
  | notifyNobody _ place | stopDone place => rcases place with rfl | rfl <;> exact holds
  | _ => trivial

theorem threadMove_pins {self : ServiceId} {state next : State} (moved : ThreadMove self state next)
    (holds : state.thread.demand.Met state.shared) :
    PinStep state.shared next.shared 0 0 ∧ next.thread.demand.Met next.shared := by
  have same {shared : Shared} (equal : SamePins state.shared shared) :
      PinStep state.shared shared 0 0 := PinStep.of_same equal
  cases moved with
  | walk located walked =>
      rw [located] at holds
      exact ⟨same ⟨rfl, rfl, rfl, rfl, rfl⟩, walked.demand holds⟩
  | lua located internal internal' moved =>
      refine ⟨same ⟨rfl, rfl, rfl, rfl, rfl⟩, ?_⟩
      rename_i pc choice vm after
      have kept := moved.stopping
      rw [located] at holds
      simp only [ThreadPc.demand] at holds ⊢
      cases stopping : after.Stopping with
      | false => trivial
      | true =>
          rw [kept stopping] at holds
          exact holds
  | quitStep located moved | failStep located moved =>
      exact ⟨moved.pins, trivial⟩
  | quitDone located =>
      refine ⟨same ⟨rfl, rfl, rfl, rfl, rfl⟩, ?_⟩
      simp only [ThreadPc.demand, Lua.AfterQuit.pc_stopping]
      trivial
  | overloaded located place =>
      refine ⟨same ⟨rfl, rfl, rfl, rfl, rfl⟩, ?_⟩
      rw [place]
      split
      · trivial
      · split <;> trivial
  | shutdownStep located moved =>
      rw [located] at holds
      have result := moved.pins holds
      exact ⟨result.1, result.2⟩
  | shutdownDone located moved =>
      rename_i caller pc shared
      rw [located] at holds
      have result := moved.pins holds
      refine ⟨result.1, ?_⟩
      cases caller <;> exact result.2
  | closeHandles located =>
      rename_i caller
      rw [located] at holds
      refine ⟨⟨rfl, fun retired => ⟨retired, Nat.le_refl 0⟩, fun _ => Or.inr holds⟩, ?_⟩
      cases caller with
      | control => trivial
      | finish => exact holds
  | inboxClosed | controlClosed =>
      exact ⟨same ⟨rfl, rfl, rfl, rfl, rfl⟩, holds⟩
  | luaClosed located | published located =>
      rw [located] at holds
      exact ⟨same ⟨rfl, rfl, rfl, rfl, rfl⟩, holds⟩
  | _ => exact ⟨same ⟨rfl, rfl, rfl, rfl, rfl⟩, trivial⟩

/-! ## The invariant -/

structure PinInvariant (state : State) : Prop where
  counted : state.shared.sendPins = weight Call.pins state.calls
  threadDemand : state.thread.demand.Met state.shared
  callDemand : forall (index : Nat) call, state.calls[index]? = some call ->
    call.demand.Met state.shared
  quiet : Dismantled state.shared -> Quiet state.shared

namespace PinInvariant

variable {state : State}

theorem held (invariant : PinInvariant state) {index : Nat} {call : Call}
    (present : state.calls[index]? = some call) : call.pins ≤ state.shared.sendPins := by
  rw [invariant.counted]
  exact quantity_le_weight Call.pins present

/-- In a quiet service nobody holds a pin. -/
theorem unpinned (invariant : PinInvariant state) (quiet : Quiet state.shared) {index : Nat}
    {message : Message} {pc : SendPc} (present : state.calls[index]? = some (.send message pc)) :
    pc.Pinned = false := by
  have bound := invariant.held present
  rw [quiet.2] at bound
  cases pinned : pc.Pinned with
  | false => rfl
  | true =>
      simp only [Call.pins, pinned, Bool.toNat_true] at bound
      exact False.elim (Nat.not_succ_le_zero 0 bound)

end PinInvariant

theorem PinStep.dismantled_quiet {shared next : Shared} {before after : Nat}
    (moved : PinStep shared next before after) (before_quiet : Dismantled shared -> Quiet shared)
    (gone : Dismantled next) : Quiet next := by
  rcases moved.dismantled gone with earlier | quiet
  · exact moved.quiet (before_quiet earlier)
  · exact quiet

theorem step_pinInvariant (self : ServiceId) (state : State) (action : Action) (next : State)
    (reachable : (machine self).Reachable state) (invariant : PinInvariant state)
    (moved : (machine self).step state action = some next) : PinInvariant next := by
  rcases reachable_step_cases reachable moved with
    ⟨request, rfl⟩ | ⟨index, call, shared, after, present, callMoved, rfl⟩ | threadMoved
  · refine ⟨?_, invariant.threadDemand, ?_, invariant.quiet⟩
    · rw [weight_append, ← invariant.counted]
      cases request <;> rfl
    · apply forall_append_singleton invariant.callDemand
      cases request <;> trivial
  · have result := callMoved.pinStep (invariant.held present)
      (invariant.callDemand index call present)
    refine ⟨?_, result.1.met invariant.threadDemand, ?_,
      result.1.dismantled_quiet invariant.quiet⟩
    · have exchanged := weight_set Call.pins present after
      have balanced := result.1.balanced
      have counted := invariant.counted
      simp only
      omega
    · apply forall_set (fun position member found =>
        result.1.met (invariant.callDemand position member found))
      intro _
      exact result.2
  · have result := threadMove_pins threadMoved invariant.threadDemand
    refine ⟨?_, result.2, ?_, result.1.dismantled_quiet invariant.quiet⟩
    · have balanced := result.1.balanced
      rw [threadMoved.calls, ← invariant.counted]
      omega
    · intro index call present
      rw [threadMoved.calls] at present
      exact result.1.met (invariant.callDemand index call present)

theorem fresh_pinInvariant (state : State) (fresh : Fresh state) : PinInvariant state := by
  rcases fresh with ⟨capacity, cells, box, _sized, _created, rfl⟩
  refine ⟨rfl, trivial, ?_, ?_⟩
  · intro index call present
    cases present
  · intro gone
    rcases gone with deleting | absent | closing
    · cases deleting
    · cases absent
    · cases closing

theorem reachable_pinInvariant {self : ServiceId} {state : State}
    (reachable : (machine self).Reachable state) : PinInvariant state :=
  reachable.induction fresh_pinInvariant (step_pinInvariant self)

/-! ## Pins protect the target -/

/-- No step lets a waiting sender pin a retired service. -/
theorem step_refuses_pin {self : ServiceId} {state next : State} {action : Action}
    (reachable : (machine self).Reachable state) (retired : state.shared.routable = false)
    (moved : (machine self).step state action = some next) {index : Nat} {message : Message}
    {pc : SendPc} (before : state.calls[index]? = some (.send message .pin))
    (after : next.calls[index]? = some (.send message pc)) : pc = .pin ∨ pc = .refused := by
  have unmoved (same : next.calls[index]? = state.calls[index]?) : pc = .pin ∨ pc = .refused := by
    rw [same, before] at after
    cases after
    exact Or.inl rfl
  rcases reachable_step_cases reachable moved with
    ⟨request, rfl⟩ | ⟨position, call, shared, later, present, callMoved, rfl⟩ | threadMoved
  · exact unmoved (List.getElem?_append_left (length_of_getElem? before))
  · by_cases same : position = index
    · subst same
      rw [before] at present
      cases present
      rw [List.getElem?_set_self (length_of_getElem? before)] at after
      cases after
      cases callMoved with
      | send sendMoved =>
          cases sendMoved with
          | pinned routable => cases routable.symm.trans retired
          | refused => exact Or.inr rfl
          | stored entering | shut entering | full entering =>
              rcases entering with impossible | ⟨capacity, grown, impossible⟩ <;> cases impossible
    · exact unmoved (List.getElem?_set_ne same)
  · exact unmoved (by rw [threadMoved.calls])

/-- A cleared `routable` stays cleared. -/
theorem step_retired {self : ServiceId} {state next : State} {action : Action}
    (reachable : (machine self).Reachable state) (retired : state.shared.routable = false)
    (moved : (machine self).step state action = some next) : next.shared.routable = false := by
  have invariant := reachable_pinInvariant reachable
  rcases reachable_step_cases reachable moved with
    ⟨request, rfl⟩ | ⟨index, call, shared, later, present, callMoved, rfl⟩ | threadMoved
  · exact retired
  · have result := callMoved.pinStep (invariant.held present)
      (invariant.callDemand index call present)
    exact (result.1.retired retired).1
  · exact ((threadMove_pins threadMoved invariant.threadDemand).1.retired retired).1

/-- Whatever senders, stops, joins and frees are in progress: `send_pins`
counts the senders between pin and unpin; a cleared `routable` stays cleared
and lets nobody pin; nobody is inside the mailbox once it is being deleted;
and nobody is about to wake the inbox handle once it is being closed. -/
theorem pins_protect_target {self : ServiceId} {state : State}
    (reachable : (machine self).Reachable state) :
    state.shared.sendPins = weight Call.pins state.calls ∧
    (state.shared.routable = false ->
      forall action next, (machine self).step state action = some next ->
        next.shared.routable = false ∧
        forall (index : Nat) message pc, state.calls[index]? = some (.send message .pin) ->
          next.calls[index]? = some (.send message pc) -> pc = .pin ∨ pc = .refused) ∧
    (state.shared.deleting = true ∨ state.shared.inboxPresent = false ->
      forall (index : Nat) message pc, state.calls[index]? = some (.send message pc) ->
        pc.InInbox = false) ∧
    (state.shared.inboxClosing = true ->
      forall (index : Nat) message pc, state.calls[index]? = some (.send message pc) ->
        pc ≠ .notify) := by
  have invariant := reachable_pinInvariant reachable
  refine ⟨invariant.counted, ?_, ?_, ?_⟩
  · intro retired action next moved
    exact ⟨step_retired reachable retired moved,
      fun index message pc => step_refuses_pin reachable retired moved⟩
  · intro gone index message pc present
    have quiet : Quiet state.shared := by
      apply invariant.quiet
      rcases gone with deleting | absent
      · exact Or.inl deleting
      · exact Or.inr (Or.inl absent)
    have unpinned := invariant.unpinned quiet present
    cases pc with
    | push | allocate capacity | relock capacity grown => cases unpinned
    | _ => rfl
  · intro closing index message pc present notifying
    have quiet : Quiet state.shared := invariant.quiet (Or.inr (Or.inr closing))
    have unpinned := invariant.unpinned quiet present
    rw [notifying] at unpinned
    cases unpinned

/-- One sender has pinned a running service and pushed; a stop then retires
it, and a second sender comes too late. -/
def pinnedRun : List Action :=
  let free : Outcome := ⟨none, 0⟩
  let request : Message := ⟨1, 7, 5, .request, some 0⟩
  List.flatten
    [[.call .start, .advance 0 free],
      List.replicate 9 (.thread .next),
      [.call (.send request), .advance 1 free, .advance 1 free, .advance 1 free],
      [.call .stop, .advance 2 free],
      [.call (.send request), .advance 3 free]]

theorem pins_protect_target_contended :
    Exists fun state => (machine 7).Reachable state ∧ state.shared.routable = false ∧
      (state.calls[1]?).map Call.pins = some 1 ∧ (state.calls[3]?).map Call.pins = some 0 ∧
      weight Call.pins state.calls = 1 ∧ state.shared.sendPins = weight Call.pins state.calls := by
  let box : Mailbox Letter :=
    { items := [⟨⟨0, 0, 0, .system, none⟩, 0⟩], capacity := 1, head := 0, tail := 0, count := 0,
      initialCapacity := 1, overload := 0, overloadThreshold := 1, closed := false,
      scheduled := false }
  have fresh : (machine 7).initial (.start box) := ⟨1, box.items, box, rfl, by decide, rfl⟩
  have ends : ((machine 7).run (.start box) pinnedRun).any (fun final => decide
      (final.shared.routable = false ∧ (final.calls[1]?).map Call.pins = some 1 ∧
        (final.calls[3]?).map Call.pins = some 0 ∧ weight Call.pins final.calls = 1)) = true := by
    decide +kernel
  rcases (machine 7).exists_reachable fresh ends with
    ⟨state, reachable, retired, first, second, total⟩
  exact ⟨state, reachable, retired, first, second, total, (pins_protect_target reachable).1⟩

end Service
end ServiceRuntime
