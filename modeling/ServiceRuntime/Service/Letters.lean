import ServiceRuntime.Service.Joining
import ServiceRuntime.Service.StopReplies

namespace ServiceRuntime

open Foundation

/-!
# Where letters are

A letter is put into the queue once, by the sender whose call accepted it, and
leaves the queue once: it is popped by the Lua code, popped by the drain, or
disposed of by `mailbox_delete`.  The thread holds a popped letter in its hand
until it has read or disposed of it.
-/

namespace Lua

/-- The letter the Lua code holds. -/
def Pc.inHand : Pc -> Option Letter
  | .got _ letter | .removing letter _ | .unpackRequest _ letter _ | .unpackReply _ letter _
  | .unpackSystem letter _ => some letter
  | _ => none

/-- The next step reads the letter to its end and frees its payload. -/
def Pc.disposes : Pc -> Bool
  | .removing _ _ | .unpackRequest _ _ _ | .unpackReply _ _ _ | .unpackSystem _ _ => true
  | _ => false

@[simp] theorem Return.pc_inHand (ret : Return) : ret.pc.inHand = none := by
  cases ret <;> rfl

@[simp] theorem AfterQuit.pc_inHand (next : AfterQuit) : next.pc.inHand = none := by
  cases next with
  | user site => rfl
  | back ret => exact ret.pc_inHand

theorem Raised.inHand {self : ServiceId} {vm next : Vm} {co : Co} {ret : Return} {after : Pc}
    (raised : Raised self vm co ret next after) : after.inHand = none := by
  cases raised with
  | bootQuits | answered => rfl
  | bootEnds | unnoticed => exact ret.pc_inHand

/-- Without a delivery the Lua code keeps the letter it has, or is done with
it. -/
theorem Move.inHand {self : ServiceId} {vm next : Vm} {pc after : Pc} {choice : Choice}
    (moved : Move self vm pc choice next after)
    (internal : forall processed, pc ≠ .receiving processed) :
    (pc.disposes = false ∧ after.inHand = pc.inHand) ∨
      (pc.disposes = true ∧ after.inHand = none) := by
  cases moved with
  | received | receivedNone => exact False.elim (internal _ rfl)
  | raise control raised inside =>
      rw [raised.inHand]
      cases pc with
      | unpackRequest | unpackReply => exact Or.inr ⟨rfl, rfl⟩
      | user site => exact Or.inl ⟨rfl, rfl⟩
      | _ => cases control
  | removed | notBooted => exact Or.inr ⟨rfl, Return.pc_inHand _⟩
  | requestDecoded | replyDecoded | booted | systemGarbled => exact Or.inr ⟨rfl, rfl⟩
  | finishSilent | yield | sentCall | sentResponse | sentFailure =>
      exact Or.inl ⟨rfl, Return.pc_inHand _⟩
  | stopped => exact Or.inl ⟨rfl, AfterQuit.pc_inHand _⟩
  | _ => exact Or.inl ⟨rfl, rfl⟩

end Lua

namespace Service

open Lua (Letter Co names)

/-- The letter the service thread holds. -/
def ThreadPc.inHand : ThreadPc -> Option Letter
  | .lua pc => pc.inHand
  | .shutdown _ (.drained letter) => some letter
  | _ => none

def ThreadPc.disposes : ThreadPc -> Bool
  | .lua pc => pc.disposes
  | .shutdown _ (.drained _) => true
  | _ => false

/-- The call is emptying the mailbox in `mailbox_delete`. -/
def Call.disposes : Call -> Bool
  | .free .dispose | .join _ (.free .dispose) => true
  | _ => false

def Call.message : Call -> Option Message
  | .send message _ => some message
  | _ => none

/-- The mailbox has accepted the message of this call. -/
def Call.accepted : Call -> Nat
  | .send _ pc => pc.Accepted.toNat
  | _ => 0

/-! ## What a step does with letters -/

/-- A step of a call. -/
inductive CallFlow (shared : Shared) (index : Nat) (call : Call) (next : Shared) (after : Call) :
    Prop where
  | rests (same : SameLetters shared next) (accepted : after.accepted = call.accepted)
      (message : after.message = call.message)
      (nothing : call.disposes = true -> (popInbox shared).2 = none)
  | stored {message : Message} {pc later : SendPc} (before : call = .send message pc)
      (stands : after = .send message later) (kept : pc.Accepted = false)
      (given : later.Accepted = true)
      (contents : next.box.contents = shared.box.contents ++ [⟨message, index⟩])
      (popped : next.popped = shared.popped) (drained : next.drained = shared.drained)
      (disposed : next.disposed = shared.disposed)
  | disposed {letter : Letter} (disposes : call.disposes = true) (still : after = call)
      (found : (popInbox shared).2 = some letter)
      (contents : shared.box.contents = letter :: next.box.contents)
      (popped : next.popped = shared.popped) (drained : next.drained = shared.drained)
      (disposed : next.disposed = shared.disposed ++ [letter])

/-- A step of the service thread. -/
inductive ThreadFlow (state next : State) : Prop where
  | rests (same : SameLetters state.shared next.shared)
      (hand : (state.thread.disposes = false ∧ next.thread.inHand = state.thread.inHand) ∨
        (state.thread.disposes = true ∧ next.thread.inHand = none))
  | popped {letter : Letter} (empty : state.thread.inHand = none)
      (idle : state.thread.disposes = false) (takes : next.thread.inHand = some letter)
      (contents : state.shared.box.contents = letter :: next.shared.box.contents)
      (popped : next.shared.popped = state.shared.popped ++ [letter])
      (drained : next.shared.drained = state.shared.drained)
      (disposed : next.shared.disposed = state.shared.disposed)
  | drained {letter : Letter} (empty : state.thread.inHand = none)
      (idle : state.thread.disposes = false) (takes : next.thread.inHand = some letter)
      (contents : state.shared.box.contents = letter :: next.shared.box.contents)
      (popped : next.shared.popped = state.shared.popped)
      (drained : next.shared.drained = state.shared.drained ++ [letter])
      (disposed : next.shared.disposed = state.shared.disposed)

theorem SendMove.flow {shared next : Shared} {message : Message} {index : Nat} {pc after : SendPc}
    (moved : SendMove shared ⟨message, index⟩ pc next after) :
    CallFlow shared index (.send message pc) next (.send message after) := by
  have beside : next.popped = shared.popped ∧ next.drained = shared.drained := by
    cases moved <;> exact ⟨rfl, rfl⟩
  rcases moved.posts with ⟨_, same, accepted⟩ | ⟨_, _, contents, disposed, kept, given⟩
  · exact .rests same (congrArg Bool.toNat accepted) rfl Bool.noConfusion
  · exact .stored rfl rfl kept given contents beside.1 beside.2 disposed

theorem StopMove.sameLetters {shared next : Shared} {pc after : StopPc}
    (moved : StopMove shared pc next after) : SameLetters shared next := by
  cases moved <;> exact ⟨rfl, rfl, rfl, rfl⟩

theorem StartMove.sameLetters {shared next : Shared} {pc after : StartPc}
    (moved : StartMove shared pc next after) : SameLetters shared next := by
  cases moved <;> exact ⟨rfl, rfl, rfl, rfl⟩

/-- Freeing a service moves letters only in `mailbox_delete`. -/
theorem FreeMove.flow {shared next : Shared} {pc after : FreePc}
    (moved : FreeMove shared pc next after) (valid : shared.box.WellFormed) :
    (SameLetters shared next ∧ (pc = .dispose -> (popInbox shared).2 = none)) ∨
    (Exists fun letter => pc = .dispose ∧ after = .dispose ∧ (popInbox shared).2 = some letter ∧
      shared.box.contents = letter :: next.box.contents ∧ next.popped = shared.popped ∧
      next.drained = shared.drained ∧ next.disposed = shared.disposed ++ [letter]) := by
  cases moved with
  | dispose found =>
      have contents := popInbox_contents_some valid found
      exact Or.inr ⟨_, rfl, rfl, found, contents, rfl, rfl, rfl⟩
  | done empty =>
      have contents := popInbox_contents_none valid empty
      exact Or.inl ⟨⟨contents.2.trans contents.1.symm, rfl, rfl, rfl⟩, fun _ => empty⟩
  | retire | wait | free | busy | delete => exact Or.inl ⟨⟨rfl, rfl, rfl, rfl⟩, FreePc.noConfusion⟩

theorem CallMove.flow {shared next : Shared} {index : Nat} {call after : Call}
    (moved : CallMove shared index call next after) (valid : shared.box.WellFormed) :
    CallFlow shared index call next after := by
  cases moved with
  | send moved => exact moved.flow
  | stop moved =>
      exact .rests moved.sameLetters rfl rfl Bool.noConfusion
  | start moved =>
      exact .rests moved.sameLetters rfl rfl Bool.noConfusion
  | free moved =>
      rename_i pc later
      rcases moved.flow valid with
        ⟨same, nothing⟩ | ⟨letter, rfl, rfl, found, contents, popped, drained, disposed⟩
      · refine .rests same rfl rfl ?_
        intro disposes
        apply nothing
        cases pc <;> first | rfl | cases disposes
      · exact .disposed rfl rfl found contents popped drained disposed
  | join moved =>
      rename_i fromThread pc later
      cases moved with
      | free moved =>
          rename_i pc later
          rcases moved.flow valid with
            ⟨same, nothing⟩ | ⟨letter, rfl, rfl, found, contents, popped, drained, disposed⟩
          · refine .rests same rfl rfl ?_
            intro disposes
            apply nothing
            cases pc <;> first | rfl | cases disposes
          · exact .disposed rfl rfl found contents popped drained disposed
      | past arrives | refuse arrives | claim arrives =>
          refine .rests ⟨rfl, rfl, rfl, rfl⟩ rfl rfl ?_
          rcases arrives.2 with ⟨rfl, _⟩ | rfl <;> exact Bool.noConfusion
      | deadlock | wait | reap | publish | freed | finish =>
          exact .rests ⟨rfl, rfl, rfl, rfl⟩ rfl rfl
            Bool.noConfusion

theorem ShutdownMove.keepsPopped {self : ServiceId} {shared next : Shared} {pc : ShutdownPc}
    {after : Option ShutdownPc} (moved : ShutdownMove self shared pc next after) :
    next.popped = shared.popped := by
  cases moved <;> rfl

theorem ShutdownMove.flow {self : ServiceId} {shared next : Shared} {pc : ShutdownPc}
    {after : Option ShutdownPc} (moved : ShutdownMove self shared pc next after)
    (valid : shared.box.WellFormed) :
    (SameLetters shared next ∧ forall letter, after ≠ some (.drained letter)) ∨
    (Exists fun letter => pc = .drain ∧ after = some (.drained letter) ∧
      shared.box.contents = letter :: next.box.contents ∧ next.popped = shared.popped ∧
      next.drained = shared.drained ++ [letter] ∧ next.disposed = shared.disposed) := by
  cases moved with
  | popped found =>
      have contents := popInbox_contents_some valid found
      exact Or.inr ⟨_, rfl, rfl, contents, rfl, rfl, rfl⟩
  | done empty =>
      have contents := popInbox_contents_none valid empty
      refine Or.inl ⟨⟨contents.2.trans contents.1.symm, rfl, rfl, rfl⟩, fun letter impossible => ?_⟩
      cases impossible
  | retire | close | waited | answered | skipped =>
      refine Or.inl ⟨⟨rfl, rfl, rfl, rfl⟩, fun letter impossible => ?_⟩
      cases impossible

theorem Walk.hand {state : State} {before after : ThreadPc} (walked : Walk state before after) :
    before.disposes = false ∧ before.inHand = none ∧ after.inHand = none := by
  cases walked with
  | notifyNobody _ place | stopDone place => rcases place with rfl | rfl <;> exact ⟨rfl, rfl, rfl⟩
  | _ => exact ⟨rfl, rfl, rfl⟩

theorem finishBatch_contents {box : Mailbox Letter} (valid : box.WellFormed) :
    box.finishBatch.1.contents = box.contents := by
  rcases taken : box.finishBatch with ⟨later, again⟩
  exact (Mailbox.finishBatch_spec valid taken).2.2.1

theorem ThreadMove.flow {self : ServiceId} {state next : State} (moved : ThreadMove self state next)
    (valid : state.shared.box.WellFormed) : ThreadFlow state next := by
  -- most points hold no letter and are left for one that holds none
  have plain (same : SameLetters state.shared next.shared) (idle : state.thread.disposes = false)
      (before : state.thread.inHand = none) (after : next.thread.inHand = none) :
      ThreadFlow state next :=
    .rests same (Or.inl ⟨idle, after.trans before.symm⟩)
  cases moved with
  | lua located internal internal' moved =>
      refine .rests ⟨rfl, rfl, rfl, rfl⟩ ?_
      rw [located]
      exact moved.inHand internal
  | popped located found =>
      refine .popped ?_ ?_ rfl (popInbox_contents_some valid found) rfl rfl rfl <;>
      · rw [located]
        rfl
  | poppedNone located empty =>
      have contents := popInbox_contents_none valid empty
      refine plain ⟨contents.2.trans contents.1.symm, rfl, rfl, rfl⟩ ?_ ?_ rfl <;>
      · rw [located]
        rfl
  | shutdownStep located moved =>
      rename_i caller pc shared later
      rcases moved.flow valid with
        ⟨same, other⟩ | ⟨letter, rfl, equal, contents, popped, drained, disposed⟩
      · have none : (ThreadPc.shutdown caller later).inHand = none := by
          cases later with
          | drained letter => exact False.elim (other letter rfl)
          | retire | close | waitPins | drain => rfl
        refine .rests same ?_
        rw [located, none]
        cases pc with
        | drained letter => exact Or.inr ⟨rfl, rfl⟩
        | retire | close | waitPins | drain => exact Or.inl ⟨rfl, rfl⟩
      · cases equal
        refine .drained ?_ ?_ rfl contents popped drained disposed <;>
        · rw [located]
          rfl
  | shutdownDone located moved =>
      rename_i caller pc shared
      cases moved with
      | done empty =>
          have contents := popInbox_contents_none valid empty
          refine plain ⟨contents.2.trans contents.1.symm, rfl, rfl, rfl⟩ ?_ ?_ ?_
          · rw [located]
            rfl
          · rw [located]
            rfl
          · cases caller <;> rfl
  | walk located walked =>
      have hand := walked.hand
      rw [← located] at hand
      exact plain ⟨rfl, rfl, rfl, rfl⟩ hand.1 hand.2.1 hand.2.2
  | quitStep located moved | failStep located moved =>
      refine plain moved.sameLetters ?_ ?_ rfl <;>
      · rw [located]
        rfl
  | quitDone located =>
      refine plain ⟨rfl, rfl, rfl, rfl⟩ ?_ ?_ (Lua.AfterQuit.pc_inHand _) <;>
      · rw [located]
        rfl
  | overloaded located place =>
      refine plain ⟨Mailbox.takeOverload_contents _, rfl, rfl, rfl⟩ ?_ ?_ ?_
      · rw [located]
        rfl
      · rw [located]
        rfl
      · rw [place]
        split
        · rfl
        · split <;> rfl
  | batchGoesOn located more | batchEnds located done =>
      refine plain ⟨finishBatch_contents valid, rfl, rfl, rfl⟩ ?_ ?_ rfl <;>
      · rw [located]
        rfl
  | selfWake located =>
      refine plain ⟨rfl, rfl, rfl, rfl⟩ ?_ ?_ rfl <;>
      · rcases located with located | located <;> rw [located] <;> rfl
  | inboxClosed located | controlClosed located =>
      refine plain ⟨rfl, rfl, rfl, rfl⟩ ?_ ?_ ?_ <;>
      · rcases located with located | located <;> rw [located] <;> rfl
  | closeHandles located =>
      rename_i caller
      refine plain ⟨rfl, rfl, rfl, rfl⟩ ?_ ?_ ?_
      · rw [located]
        rfl
      · rw [located]
        rfl
      · cases caller <;> rfl
  | loopReady located | inboxReady located | controlReady located | luaReady located
  | started located | notStarted located | wakeInbox located | wakeControl located
  | finishLock located | luaClosed located | published located =>
      refine plain ⟨rfl, rfl, rfl, rfl⟩ ?_ ?_ rfl <;>
      · rw [located]
        rfl

/-! ## Every letter is in one place -/

def Letter.named (tag : Nat) (letter : Letter) : Nat :=
  names letter.tag tag

/-- How often the letter with this tag has been queued, popped by Lua, popped
by the drain or disposed of. -/
def Shared.places (shared : Shared) (tag : Nat) : Nat :=
  weight (Letter.named tag) shared.box.contents + weight (Letter.named tag) shared.popped +
    weight (Letter.named tag) shared.drained + weight (Letter.named tag) shared.disposed

/-- A letter is somewhere exactly when its call was accepted. -/
def Placed (state : State) : Prop :=
  forall tag, state.shared.places tag = (state.calls[tag]?).elim 0 Call.accepted

theorem SameLetters.places {shared next : Shared} (same : SameLetters shared next) (tag : Nat) :
    next.places tag = shared.places tag := by
  simp only [Shared.places, same.contents, same.popped, same.drained, same.disposed]

theorem elim_set {calls : List Call} {index : Nat} {call : Call}
    (present : calls[index]? = some call) (after : Call) (tag : Nat) :
    ((calls.set index after)[tag]?).elim 0 Call.accepted +
        (if index = tag then call.accepted else 0) =
      (calls[tag]?).elim 0 Call.accepted + (if index = tag then after.accepted else 0) := by
  by_cases own : index = tag
  · subst own
    rw [List.getElem?_set_self (length_of_getElem? present), present, if_pos rfl, if_pos rfl]
    exact Nat.add_comm _ _
  · rw [List.getElem?_set_ne own, if_neg own, if_neg own]

theorem CallFlow.placed {state : State} {index : Nat} {call after : Call} {shared : Shared}
    (flow : CallFlow state.shared index call shared after)
    (present : state.calls[index]? = some call) (placed : Placed state) :
    Placed { state with shared, calls := state.calls.set index after } := by
  intro tag
  have before := placed tag
  have exchange := elim_set present after tag
  show shared.places tag = ((state.calls.set index after)[tag]?).elim 0 Call.accepted
  cases flow with
  | rests same accepted message nothing =>
      rw [accepted] at exchange
      have equal := same.places tag
      omega
  | stored stood stands kept given contents popped drained disposed =>
      subst stood stands
      simp only [Call.accepted, kept, given, Bool.toNat_true, Bool.toNat_false] at exchange
      have gained : shared.places tag = state.shared.places tag + (if index = tag then 1 else 0) := by
        simp only [Shared.places, contents, popped, drained, disposed, weight_append, weight_cons,
          weight_nil, Letter.named, names]
        omega
      split at exchange <;> split at gained <;> omega
  | disposed disposes still found contents popped drained disposed =>
      subst still
      have equal : shared.places tag = state.shared.places tag := by
        simp only [Shared.places, contents, popped, drained, disposed, weight_append, weight_cons,
          weight_nil]
        omega
      omega

theorem ThreadFlow.places {state next : State} (flow : ThreadFlow state next) (tag : Nat) :
    next.shared.places tag = state.shared.places tag := by
  cases flow with
  | rests same hand => exact same.places tag
  | popped empty idle takes contents popped drained disposed
  | drained empty idle takes contents popped drained disposed =>
      simp only [Shared.places, contents, popped, drained, disposed, weight_append, weight_cons,
        weight_nil]
      omega

theorem step_placed (self : ServiceId) (state : State) (action : Action) (next : State)
    (reachable : (machine self).Reachable state) (placed : Placed state)
    (moved : (machine self).step state action = some next) : Placed next := by
  have valid := (reachable_inbox reachable).valid
  rcases reachable_step_cases reachable moved with
    ⟨request, rfl⟩ | ⟨index, call, shared, after, present, callMoved, rfl⟩ | threadMoved
  · intro tag
    have before := placed tag
    by_cases below : tag < state.calls.length
    · simp only [List.getElem?_append_left below]
      exact before
    · have silent : request.call.accepted = 0 := by cases request <;> rfl
      rw [List.getElem?_eq_none (Nat.not_lt.mp below)] at before
      simp only [List.getElem?_append_right (Nat.not_lt.mp below)]
      cases position : tag - state.calls.length with
      | zero => exact before.trans silent.symm
      | succ beyond => exact before
  · exact (callMoved.flow valid).placed present placed
  · intro tag
    rw [(threadMoved.flow valid).places tag, threadMoved.calls]
    exact placed tag

theorem fresh_placed (state : State) (fresh : Fresh state) : Placed state := by
  rcases fresh with ⟨capacity, cells, box, _sized, created, rfl⟩
  intro tag
  simp only [State.start, Shared.new, Shared.places, (Mailbox.new_contents created).1, weight_nil]
  rfl

theorem reachable_placed {self : ServiceId} {state : State}
    (reachable : (machine self).Reachable state) : Placed state :=
  reachable.induction fresh_placed (step_placed self)

/-! ## A freed mailbox is empty -/

def Call.deletes : Call -> Bool
  | .free .delete | .join _ (.free .delete) => true
  | call => call.disposes

/-- A FREED service is emptied by the call that freed it. -/
structure Emptied (state : State) : Prop where
  freed : state.shared.state = .freed ->
    (state.shared.box.closed = true ∧ state.shared.box.contents = []) ∨
      Exists fun index : Nat => Exists fun call => state.calls[index]? = some call ∧
        call.deletes = true
  shut : forall (index : Nat) call, state.calls[index]? = some call -> call.disposes = true ->
    state.shared.box.closed = true

/-- What a call contributes: it frees only to delete, and it deletes to the
end. -/
structure Empties (shared : Shared) (call : Call) (next : Shared) (after : Call) : Prop where
  frees : next.state = .freed -> shared.state = .freed ∨ after.deletes = true
  deletes : call.deletes = true ->
    after.deletes = true ∨ (next.box.closed = true ∧ next.box.contents = [])
  shut : after.disposes = true -> next.box.closed = true

theorem Empties.of_idle {shared next : Shared} {call after : Call}
    (state : next.state = .freed -> shared.state = .freed) (idle : call.deletes = false)
    (idleAfter : after.disposes = false) : Empties shared call next after where
  frees := fun freed => Or.inl (state freed)
  deletes := fun deletes => by cases idle.symm.trans deletes
  shut := fun disposes => by cases idleAfter.symm.trans disposes

theorem FreeMove.empties {shared next : Shared} {pc after : FreePc}
    (moved : FreeMove shared pc next after) (valid : shared.box.WellFormed)
    (shut : (Call.free pc).disposes = true -> shared.box.closed = true) :
    Empties shared (.free pc) next (.free after) := by
  cases moved with
  | retire | wait | busy => exact .of_idle id rfl rfl
  | free => exact ⟨fun _ => Or.inr rfl, Bool.noConfusion, Bool.noConfusion⟩
  | delete => exact ⟨Or.inl, fun _ => Or.inl rfl, fun _ => rfl⟩
  | dispose found =>
      have closed := (popInbox_spec valid).2.1.trans (shut rfl)
      exact ⟨Or.inl, fun _ => Or.inl rfl, fun _ => closed⟩
  | done empty =>
      have closed := (popInbox_spec valid).2.1.trans (shut rfl)
      have contents := (popInbox_contents_none valid empty).2
      exact ⟨Or.inl, fun _ => Or.inr ⟨closed, contents⟩, Bool.noConfusion⟩

theorem FreePc.join_deletes (fromThread : Bool) (pc : FreePc) :
    (Call.join fromThread (.free pc)).deletes = (Call.free pc).deletes ∧
      (Call.join fromThread (.free pc)).disposes = (Call.free pc).disposes := by
  cases pc <;> exact ⟨rfl, rfl⟩

theorem CallMove.empties {shared next : Shared} {index : Nat} {call after : Call}
    (moved : CallMove shared index call next after) (valid : shared.box.WellFormed)
    (shut : call.disposes = true -> shared.box.closed = true) : Empties shared call next after := by
  cases moved with
  | send moved =>
      refine .of_idle ?_ rfl rfl
      cases moved <;> exact id
  | stop moved =>
      refine .of_idle ?_ rfl rfl
      cases moved with
      | stopNew | stop => exact Phase.noConfusion
      | retire | late | close | signal => exact id
  | start moved =>
      refine .of_idle ?_ rfl rfl
      cases moved with
      | start | fail => exact Phase.noConfusion
      | already | failRetire | failClose | done => exact id
  | free moved => exact moved.empties valid shut
  | join moved =>
      cases moved with
      | free moved =>
          rename_i fromThread pc later
          rw [(pc.join_deletes fromThread).2] at shut
          have empties := moved.empties valid shut
          constructor
          · rw [(later.join_deletes fromThread).1]
            exact empties.frees
          · rw [(pc.join_deletes fromThread).1, (later.join_deletes fromThread).1]
            exact empties.deletes
          · rw [(later.join_deletes fromThread).2]
            exact empties.shut
      | past arrives | refuse arrives | claim arrives =>
          refine .of_idle id ?_ rfl
          rcases arrives.2 with ⟨rfl, _⟩ | rfl <;> rfl
      | publish => exact .of_idle Phase.noConfusion rfl rfl
      | deadlock | wait | reap | freed | finish => exact .of_idle id rfl rfl

theorem step_emptied (self : ServiceId) (state : State) (action : Action) (next : State)
    (reachable : (machine self).Reachable state) (emptied : Emptied state)
    (moved : (machine self).step state action = some next) : Emptied next := by
  have valid := (reachable_inbox reachable).valid
  rcases reachable_step_cases reachable moved with
    ⟨request, rfl⟩ | ⟨index, call, shared, after, present, callMoved, rfl⟩ | threadMoved
  · constructor
    · intro freed
      rcases emptied.freed freed with empty | ⟨index, call, present, deletes⟩
      · exact Or.inl empty
      · refine Or.inr ⟨index, call, ?_, deletes⟩
        exact (List.getElem?_append_left (length_of_getElem? present)).trans present
    · apply forall_append_singleton emptied.shut
      cases request <;> exact Bool.noConfusion
  · have empties := callMoved.empties valid (emptied.shut index call present)
    have effect := (callMoved.queue valid).2.1
    have own := List.getElem?_set_self (length_of_getElem? present) (a := after)
    constructor
    · intro freed
      rcases empties.frees freed with before | deletes
      · rcases emptied.freed before with empty | ⟨position, other, found, deletes⟩
        · exact Or.inl (effect.empty empty)
        · by_cases same : index = position
          · subst same
            cases found.symm.trans present
            rcases empties.deletes deletes with still | empty
            · exact Or.inr ⟨index, after, own, still⟩
            · exact Or.inl empty
          · exact Or.inr ⟨position, other, (List.getElem?_set_ne same).trans found, deletes⟩
      · exact Or.inr ⟨index, after, own, deletes⟩
    · apply forall_set (fun position other found disposes =>
        effect.closed (emptied.shut position other found disposes))
      intro _
      exact empties.shut
  · have effect := (threadMove_queue threadMoved valid).2
    have early := threadMoved.early (reachable_lifecycle reachable)
    have same := threadMoved.sameJoin (reachable_lifecycle reachable)
    constructor
    · intro freed
      have before := same.early (by rw [freed]; decide)
      rw [freed] at before
      rw [← before] at early
      exact absurd (by decide : 4 ≤ Phase.freed.rank) early
    · intro index call present disposes
      rw [threadMoved.calls] at present
      exact effect.closed (emptied.shut index call present disposes)

theorem reachable_emptied {self : ServiceId} {state : State}
    (reachable : (machine self).Reachable state) : Emptied state := by
  apply reachable.induction _ (step_emptied self)
  rintro start ⟨capacity, cells, box, _sized, _created, rfl⟩
  refine ⟨Phase.noConfusion, ?_⟩
  intro index call present
  cases present

end Service
end ServiceRuntime
