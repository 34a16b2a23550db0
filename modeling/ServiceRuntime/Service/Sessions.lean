import ServiceRuntime.Service.Coroutines

namespace ServiceRuntime
namespace Service

open Lua (Letter Co)

/-!
# What a step of the thread does to sessions and replies

A session is registered where `service.call` returns from an accepted send,
and taken out where a reply is dispatched.  Between the two nobody touches the
table.  A reply the thread is sending is on the list of replies once the send
has returned.
-/

/-- The thread is neither sending for the Lua code nor reading a reply. -/
structure Unengaged (thread : ThreadPc) : Prop where
  sends : forall message after, thread ≠ .lua (.sending message after)
  reads : forall co letter ret, thread ≠ .lua (.unpackReply co letter ret)

theorem unengaged_of_rests {thread : ThreadPc}
    (elsewhere : forall pc, thread = .lua pc -> resting pc = true ∨
      (Exists fun site => pc = .user site) ∨ Exists fun processed => Exists fun letter =>
        pc = .got processed letter) : Unengaged thread := by
  constructor
  · rintro message after rfl
    rcases elsewhere _ rfl with rests | ⟨site, equal⟩ | ⟨processed, letter, equal⟩
    · cases rests
    · cases equal
    · cases equal
  · rintro co letter ret rfl
    rcases elsewhere _ rfl with rests | ⟨site, equal⟩ | ⟨processed, other, equal⟩
    · cases rests
    · cases equal
    · cases equal

theorem Walk.unengaged {state : State} {before after : ThreadPc} (walked : Walk state before after) :
    Unengaged after := by
  apply unengaged_of_rests
  intro pc located
  cases walked with
  | callback | round | refuse | notify =>
      cases located
      exact Or.inl rfl
  | notifyNobody _ place | stopDone place => rcases place with rfl | rfl <;> cases located
  | _ => cases located

/-- Apart from the steps of the Lua code itself nothing changes its state. -/
theorem ThreadMove.unengaged {self : ServiceId} {state next : State}
    (moved : ThreadMove self state next) :
    (Exists fun pc => state.thread = .lua pc ∧ (forall processed, pc ≠ .receiving processed) ∧
      forall after, pc ≠ .quitting after) ∨ (next.vm = state.vm ∧ Unengaged next.thread) := by
  cases moved with
  | lua located internal internal' moved => exact Or.inl ⟨_, located, internal, internal'⟩
  | walk located walked => exact Or.inr ⟨rfl, walked.unengaged⟩
  | popped located found =>
      refine Or.inr ⟨rfl, unengaged_of_rests fun pc equal => Or.inr (Or.inr ?_)⟩
      cases equal
      exact ⟨_, _, rfl⟩
  | poppedNone located empty =>
      refine Or.inr ⟨rfl, unengaged_of_rests fun pc equal => Or.inl ?_⟩
      cases equal
      rfl
  | quitDone located =>
      rename_i after
      refine Or.inr ⟨rfl, unengaged_of_rests fun pc equal => ?_⟩
      cases equal
      cases after with
      | user site => exact Or.inr (Or.inl ⟨site, rfl⟩)
      | back ret => cases ret <;> exact Or.inl rfl
  | overloaded located place =>
      refine Or.inr ⟨rfl, unengaged_of_rests fun pc equal => ?_⟩
      rw [place] at equal
      split at equal
      · cases equal
      · split at equal <;> cases equal
  | shutdownDone located moved =>
      rename_i caller _ _
      refine Or.inr ⟨rfl, unengaged_of_rests fun pc equal => ?_⟩
      cases caller <;> cases equal
  | closeHandles located =>
      rename_i caller
      refine Or.inr ⟨rfl, unengaged_of_rests fun pc equal => ?_⟩
      cases caller <;> cases equal
  | inboxClosed located | controlClosed located =>
      refine Or.inr ⟨rfl, unengaged_of_rests fun pc equal => ?_⟩
      rcases located with located | located <;> cases located.symm.trans equal
  | _ =>
      refine Or.inr ⟨rfl, unengaged_of_rests fun pc equal => ?_⟩
      cases equal

theorem threadStep_lua {self : ServiceId} {state next : State} {decided : Lua.Choice}
    (moved : threadStep self state (.lua decided) = some next) :
    Exists fun pc => state.thread = .lua pc ∧ luaStep self state pc decided = some next := by
  unfold threadStep at moved
  -- every other arm asks for a choice of another kind
  split at moved <;> first
    | rename_i located equal
      cases equal
      exact ⟨_, located, moved⟩
    | rename_i impossible
      cases impossible
    | cases moved

/-- A step chosen for the Lua code, or one that leaves its state alone. -/
theorem threadStep_cases {self : ServiceId} {state next : State} {choice : ThreadChoice}
    (moved : threadStep self state choice = some next) :
    (Exists fun pc => Exists fun decided => state.thread = .lua pc ∧ choice = .lua decided ∧
      Exists fun after => Lua.Move self state.vm pc decided next.vm after ∧
        next.thread = .lua after) ∨
    (next.vm = state.vm ∧ Unengaged next.thread ∧ forall decided, choice ≠ .lua decided) := by
  by_cases lua : Exists fun decided => choice = .lua decided
  · rcases lua with ⟨decided, rfl⟩
    rcases threadStep_lua moved with ⟨pc, located, taken⟩
    unfold luaStep at taken
    split at taken
    · cases taken
    · cases taken
    · rcases Option.map_eq_some_iff.mp taken with ⟨⟨vm, after⟩, inner, rfl⟩
      exact Or.inl ⟨pc, decided, located, rfl, after, Lua.step_move inner, rfl⟩
  · have other (decided : Lua.Choice) : choice ≠ .lua decided := fun equal => lua ⟨decided, equal⟩
    rcases (threadStep_move moved).unengaged with ⟨pc, located, _⟩ | ⟨vm, unengaged⟩
    · -- a point of the Lua code that is left for C
      have walked : leaveLua state pc = some next := by
        unfold threadStep at moved
        rw [located] at moved
        cases choice with
        | next => exact moved
        | lua decided => exact False.elim (other decided rfl)
        | fail | wakeInbox | wakeControl | callback | exit | inboxClosed | controlClosed | visit =>
            cases moved
      rcases leaveLua_walk walked with ⟨after, rfl, walk⟩
      exact Or.inr ⟨rfl, walk.unengaged, other⟩
    · exact Or.inr ⟨vm, unengaged, other⟩

/-! ## Sessions -/

/-- What a step does to the session table. -/
inductive SessionStep (state next : State) (choice : ThreadChoice) : Prop where
  | suspends {message caller session ret}
      (located : state.thread = .lua (.sending message (.call caller session ret)))
      (sent : choice = .lua (.sent true)) (unengaged : Unengaged next.thread)
      (table : next.vm.suspendLookup = state.vm.suspendLookup.insert session caller)
  | resumes {processed letter co ret} (located : state.thread = .lua (.got processed letter))
      (arrives : next.thread = .lua (.unpackReply co letter ret))
      (type : letter.message.type = .response ∨ letter.message.type = .error)
      (positive : 0 < letter.message.session)
      (waits : state.vm.suspendLookup.lookup letter.message.session = some co)
      (table : next.vm.suspendLookup = state.vm.suspendLookup.erase letter.message.session)
  | keeps (table : next.vm.suspendLookup = state.vm.suspendLookup)
      (unsent : forall message caller session ret,
        state.thread = .lua (.sending message (.call caller session ret)) ->
        choice ≠ .lua (.sent true))
      (unread : forall co letter ret, next.thread ≠ .lua (.unpackReply co letter ret))

theorem unengaged_back (ret : Lua.Return) : Unengaged (.lua ret.pc) := by
  apply unengaged_of_rests
  intro pc equal
  cases equal
  cases ret <;> exact Or.inl rfl

theorem step_sessions {self : ServiceId} {state next : State} {choice : ThreadChoice}
    (moved : threadStep self state choice = some next) : SessionStep state next choice := by
  rcases threadStep_cases moved with
    ⟨pc, decided, located, rfl, after, luaMoved, arrives⟩ | ⟨vm, unengaged, other⟩
  · cases luaMoved.sessions with
    | suspends sent table =>
        exact .suspends located (congrArg ThreadChoice.lua sent) (arrives ▸ unengaged_back _) table
    | resumes type positive waits table => exact .resumes located arrives type positive waits table
    | keeps table unsent unread =>
        refine .keeps table ?_ ?_
        · intro message caller session ret same sent
          cases located.symm.trans same
          exact unsent message caller session ret rfl (ThreadChoice.lua.inj sent)
        · intro co letter ret same
          exact unread co letter ret (ThreadPc.lua.inj (arrives.symm.trans same))
  · exact .keeps (congrArg Lua.Vm.suspendLookup vm) (fun _ _ _ _ _ => other _) unengaged.reads

/-! ## Replies -/

theorem CallMove.replies {shared next : Shared} {index : Nat} {call after : Call}
    (moved : CallMove shared index call next after) : next.replies = shared.replies := by
  cases moved with
  | send moved | stop moved | start moved | free moved => cases moved <;> rfl
  | join moved =>
      cases moved with
      | free moved => cases moved <;> rfl
      | _ => rfl

/-- The reply that is complete when the thread leaves this point. -/
def ThreadPc.completes (self : ServiceId) : ThreadPc -> Option Reply
  | .lua pc => replyOf pc
  | .shutdown _ (.drained letter) =>
      if letter.message.Awaited then some ⟨letter.tag, stopReply self letter.message⟩ else none
  | _ => none

theorem Walk.completes {state : State} {before after : ThreadPc} (walked : Walk state before after)
    (self : ServiceId) : before.completes self = none := by
  cases walked <;> rfl

theorem ThreadMove.replies {self : ServiceId} {state next : State}
    (moved : ThreadMove self state next) :
    next.shared.replies = state.shared.replies ++ (state.thread.completes self).toList := by
  have silent (same : next.shared.replies = state.shared.replies)
      (nothing : state.thread.completes self = none) :
      next.shared.replies = state.shared.replies ++ (state.thread.completes self).toList := by
    rw [nothing, same]
    exact (List.append_nil _).symm
  cases moved with
  | walk located walked =>
      refine silent rfl ?_
      rw [located]
      exact walked.completes self
  | lua located internal internal' moved =>
      rw [located]
      rfl
  | shutdownStep located moved =>
      rw [located]
      cases moved with
      | answered awaited => simp only [ThreadPc.completes, if_pos awaited, Option.toList_some]
      | skipped unasked =>
          simp only [ThreadPc.completes, if_neg unasked, Option.toList_none, List.append_nil]
      | retire | close | waited | popped => exact (List.append_nil _).symm
  | shutdownDone located moved =>
      cases moved with
      | done empty =>
          refine silent rfl ?_
          rw [located]
          rfl
  | quitStep located moved | failStep located moved =>
      refine silent ?_ ?_
      · cases moved <;> rfl
      · rw [located]
        rfl
  | selfWake located | inboxClosed located | controlClosed located =>
      refine silent rfl ?_
      rcases located with located | located <;> rw [located] <;> rfl
  | loopReady located | inboxReady located | controlReady located | luaReady located
  | started located | notStarted located | wakeInbox located | wakeControl located
  | popped located | poppedNone located | quitDone located | overloaded located
  | batchGoesOn located | batchEnds located | closeHandles located | finishLock located
  | luaClosed located | published located =>
      refine silent rfl ?_
      rw [located]
      rfl

end Service
end ServiceRuntime
