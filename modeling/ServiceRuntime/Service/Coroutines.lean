import ServiceRuntime.Lua.Coroutines
import ServiceRuntime.Service.Letters

namespace ServiceRuntime
namespace Service

open Lua (Letter Co)
open Foundation

/-!
# The coroutines of one service

What the dispatcher knows about its coroutines holds in every state of the
service, also while its thread is inside C.  A coroutine belongs to one letter
the Lua code has popped, and letters are popped once, so no coroutine is in
two places.
-/

/-- Where the Lua code stands while the thread is anywhere. -/
def ThreadPc.control : ThreadPc -> Lua.Pc
  | .lua pc => pc
  | .quitting after _ => .quitting after
  | _ => .callbackDone

/-- Points at which no coroutine has control and nothing is sent. -/
def resting : Lua.Pc -> Bool
  | .head _ | .receiving _ | .roundEnd _ | .user (.hooks _) | .user .callback | .replyPending _
  | .callbackDone => true
  | _ => false

/-- What a step of the thread is for the Lua code. -/
inductive ControlFlow (self : ServiceId) (state next : State) : Prop where
  | runs {choice : Lua.Choice}
      (moved : Lua.Move self state.vm state.thread.control choice next.vm next.thread.control)
      (internal : forall tag, choice.brings tag = 0)
      (popped : next.shared.popped = state.shared.popped)
  | rests (vm : next.vm = state.vm) (popped : next.shared.popped = state.shared.popped)
      (place : next.thread.control = state.thread.control ∨ resting next.thread.control = true)
  | delivers {processed : Nat} {letter : Letter} (vm : next.vm = state.vm)
      (place : next.thread.control = .got processed letter)
      (popped : next.shared.popped = state.shared.popped ++ [letter])

theorem Walk.rests {state : State} {before after : ThreadPc} (walked : Walk state before after) :
    after.control = before.control ∨ resting after.control = true := by
  cases walked with
  | quit => exact Or.inl rfl
  | notifyNobody _ place | stopDone place => rcases place with rfl | rfl <;> exact Or.inr rfl
  | _ => exact Or.inr rfl

theorem ThreadMove.control {self : ServiceId} {state next : State}
    (moved : ThreadMove self state next) : ControlFlow self state next := by
  cases moved with
  | walk located walked =>
      refine .rests rfl rfl ?_
      rw [located]
      exact walked.rests
  | lua located internal internal' moved =>
      refine .runs ?_ (moved.brings_eq_zero internal) rfl
      rw [located]
      exact moved
  | popped located found => exact .delivers rfl rfl rfl
  | quitStep located moved =>
      refine .rests rfl moved.sameLetters.popped (Or.inl ?_)
      rw [located]
      rfl
  | quitDone located =>
      rename_i after
      have stopped : Lua.Move self state.vm state.thread.control .stopped state.vm after.pc := by
        rw [located]
        exact .stopped
      exact .runs stopped (fun _ => rfl) rfl
  | failStep located moved => exact .rests rfl moved.sameLetters.popped (Or.inr rfl)
  | shutdownStep located moved => exact .rests rfl moved.keepsPopped (Or.inr rfl)
  | shutdownDone located moved =>
      rename_i caller pc shared
      refine .rests rfl moved.keepsPopped (Or.inr ?_)
      cases caller <;> rfl
  | closeHandles located =>
      rename_i caller
      refine .rests rfl rfl (Or.inr ?_)
      cases caller <;> rfl
  | overloaded located place =>
      refine .rests rfl rfl (Or.inr ?_)
      rw [place]
      split
      · rfl
      · split <;> rfl
  | inboxClosed | controlClosed => exact .rests rfl rfl (Or.inl rfl)
  | _ => exact .rests rfl rfl (Or.inr rfl)

/-! ## The invariants -/

theorem resting_orderly {self : ServiceId} {vm : Lua.Vm} {pc after : Lua.Pc}
    (orderly : Lua.Orderly self vm pc) (rests : resting after = true) :
    Lua.Orderly self vm after := by
  cases after with
  | head | receiving | roundEnd | replyPending | callbackDone => exact orderly.idle rfl rfl trivial
  | user site =>
      cases site with
      | hooks | callback => exact orderly.idle rfl rfl trivial
      | coroutine => cases rests
  | _ => cases rests

theorem resting_holds {pc : Lua.Pc} (rests : resting pc = true) (tag : Nat) : pc.holds tag = 0 := by
  cases pc with
  | head | receiving | roundEnd | replyPending | callbackDone => rfl
  | user site =>
      cases site with
      | hooks | callback => rfl
      | coroutine => cases rests
  | _ => cases rests

/-- The Lua code is in order, and holds a coroutine only for a letter it has
popped. -/
structure Coroutines (service : ServiceId) (state : State) : Prop where
  orderly : Lua.Orderly service state.vm state.thread.control
  present : forall tag, state.vm.present tag state.thread.control ≤
    weight (Letter.named tag) state.shared.popped

theorem ControlFlow.coroutines {self : ServiceId} {state next : State}
    (flow : ControlFlow self state next) (coroutines : Coroutines self state) :
    Coroutines self next := by
  cases flow with
  | runs moved internal popped =>
      refine ⟨moved.orderly coroutines.orderly, fun tag => ?_⟩
      have kept := moved.present coroutines.orderly tag
      rw [internal tag] at kept
      rw [popped]
      exact Nat.le_trans kept (coroutines.present tag)
  | rests vm popped place =>
      rcases place with same | rests
      · refine ⟨?_, fun tag => ?_⟩
        · rw [vm, same]
          exact coroutines.orderly
        · rw [vm, same, popped]
          exact coroutines.present tag
      · refine ⟨?_, fun tag => ?_⟩
        · rw [vm]
          exact resting_orderly coroutines.orderly rests
        · have before := coroutines.present tag
          rw [popped, vm]
          simp only [Lua.Vm.present, resting_holds rests] at before ⊢
          omega
  | delivers vm place popped =>
      rename_i processed letter
      refine ⟨?_, fun tag => ?_⟩
      · rw [place, vm]
        exact coroutines.orderly.idle rfl rfl trivial
      · have before := coroutines.present tag
        rw [place, popped, vm]
        simp only [Lua.Vm.present, Lua.Pc.holds, weight_append, weight_cons, weight_nil,
          Letter.named] at before ⊢
        omega

theorem step_coroutines (self : ServiceId) (state : State) (action : Action) (next : State)
    (reachable : (machine self).Reachable state) (coroutines : Coroutines self state)
    (moved : (machine self).step state action = some next) : Coroutines self next := by
  have valid := (reachable_inbox reachable).valid
  rcases reachable_step_cases reachable moved with
    ⟨request, rfl⟩ | ⟨index, call, shared, after, present, callMoved, rfl⟩ | threadMoved
  · exact ⟨coroutines.orderly, coroutines.present⟩
  · have popped : shared.popped = state.shared.popped := by
      cases callMoved.flow valid with
      | rests same accepted message nothing => exact same.popped
      | stored before stands kept given contents popped drained disposed => exact popped
      | disposed disposes still found contents popped drained disposed => exact popped
    refine ⟨coroutines.orderly, fun tag => ?_⟩
    show state.vm.present tag state.thread.control ≤ weight (Letter.named tag) shared.popped
    rw [popped]
    exact coroutines.present tag
  · exact threadMoved.control.coroutines coroutines

theorem reachable_coroutines {self : ServiceId} {state : State}
    (reachable : (machine self).Reachable state) : Coroutines self state := by
  apply reachable.induction _ (step_coroutines self)
  rintro start ⟨capacity, cells, box, _sized, _created, rfl⟩
  refine ⟨⟨fun co runs => ?_, Nat.one_pos, trivial⟩, fun tag => Nat.zero_le _⟩
  cases runs

/-- A call is accepted at most once. -/
theorem accepted_le_one (calls : List Call) (tag : Nat) :
    (calls[tag]?).elim 0 Call.accepted ≤ 1 := by
  cases calls[tag]? with
  | none => exact Nat.zero_le 1
  | some call =>
      cases call with
      | send message pc => exact Bool.toNat_le pc.Accepted
      | _ => exact Nat.zero_le 1

/-- No coroutine is in two places. -/
theorem reachable_present_le_one {self : ServiceId} {state : State}
    (reachable : (machine self).Reachable state) (tag : Nat) :
    state.vm.present tag state.thread.control ≤ 1 := by
  have bound := (reachable_coroutines reachable).present tag
  have placed := reachable_placed reachable tag
  have accepted := accepted_le_one state.calls tag
  unfold Shared.places at placed
  omega

/-- A suspended coroutine waits under one session only, and is neither asleep
nor running. -/
theorem reachable_suspended_once {self : ServiceId} {state : State}
    (reachable : (machine self).Reachable state) {session : Session} {co : Co}
    (waits : state.vm.suspendLookup.lookup session = some co) :
    (forall other, state.vm.suspendLookup.lookup other = some co -> other = session) ∧
      co ∉ state.vm.yielded ∧ state.thread.control.runs ≠ some co := by
  have bound := reachable_present_le_one reachable co
  have one : Lua.names co co = 1 := if_pos rfl
  have waiting := Lua.Table.total_erase (Lua.names · co) waits
  simp only [Lua.Vm.present, Lua.Vm.suspended] at bound
  refine ⟨?_, ?_, ?_⟩
  · intro other found
    by_contra distinct
    have twice := Lua.Table.total_pair (Lua.names · co) distinct found waits
    omega
  · intro asleep
    have counted := List.count_pos_iff.mpr asleep
    omega
  · intro runs
    have held : state.thread.control.holds co = 1 := by
      cases place : state.thread.control with
      | got | unpackSystem =>
          rw [place] at runs
          cases runs
      | _ =>
          rw [place] at runs
          simp only [Lua.Pc.holds, runs, Option.elim_some, one]
    omega

end Service
end ServiceRuntime
