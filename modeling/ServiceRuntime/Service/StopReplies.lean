import ServiceRuntime.Lua.Custody
import ServiceRuntime.Service.Wakeup

namespace ServiceRuntime
namespace Service

open Lua (Letter Co)
open Foundation

/-!
# Stopping a service loses no caller

Every request a mailbox accepted from a caller that waits is followed from the
push to its reply.  At any moment it is in exactly one place: queued, in the
hands of the drain, in the custody of the Lua code, answered, or disposed of
by `mailbox_delete`.  The sum over these places is the ledger.  When the
service thread has ended, all places but the answers are empty.
-/

/-! ## The ledger -/

/-- The message a tag stands for: tags are positions in the list of calls. -/
def State.requests (state : State) (tag : Nat) : Option Message :=
  match state.calls[tag]? with
  | some (.send message _) => some message
  | _ => none

/-- The mailbox has accepted the message of this sender. -/
def SendPc.Accepted : SendPc -> Bool
  | .readReady | .notify | .unpin .ok | .returned .ok => true
  | _ => false

/-- How often the call with this index has put an awaited request in the
mailbox. -/
def Call.posted : Call -> Nat
  | .send message pc => if pc.Accepted ∧ message.Awaited then 1 else 0
  | _ => 0

/-- The final call into Lua is over. -/
def ThreadPc.Finished : ThreadPc -> Bool
  | .closeHandles .finish | .finishRun | .luaClose | .finishPublish | .ended => true
  | _ => false

/-- How often the service thread owes an answer under this tag, apart from the
queue. -/
def ThreadPc.custody (vm : Lua.Vm) (tag : Nat) (thread : ThreadPc) : Nat :=
  match thread with
  | .lua pc => pc.custody vm tag
  | .shutdown _ (.drained letter) => letter.claims tag + vm.live tag
  | thread => if thread.Finished then 0 else vm.live tag

def Reply.answers (tag : Nat) (reply : Reply) : Nat :=
  if reply.origin = tag then 1 else 0

def State.ledger (state : State) (tag : Nat) : Nat :=
  weight (Letter.claims tag) state.shared.box.contents + state.thread.custody state.vm tag +
    weight (Reply.answers tag) state.shared.replies +
    weight (Letter.claims tag) state.shared.disposed

/-! ## What the thread relies on -/

/-- User code can only run, or have run, where a dispatcher was loaded. -/
def ThreadPc.Loaded : ThreadPc -> Bool
  | .startupSend | .looping | .asyncCheck | .lua _ | .popping _ | .quitting _ _ | .overload _ _
  | .failStop _ | .finishBatch | .resend | .controlRead | .shutdown .control _
  | .closeHandles .control => true
  | _ => false

/-- What the shutdown has done to the mailbox at each point. -/
def ThreadPc.Shut (box : Mailbox Letter) : ThreadPc -> Prop
  | .shutdown _ .waitPins | .shutdown _ .drain | .shutdown _ (.drained _) => box.closed = true
  | .closeHandles _ | .notifyStop | .finishRun | .luaClose | .finishPublish | .ended =>
      box.closed = true ∧ box.contents = []
  | .lua pc => pc.Stopping = true -> box.closed = true ∧ box.contents = []
  | _ => True

/-- The letters and replies the thread carries. -/
def ThreadPc.Carries (requests : Nat -> Option Message) (vm : Lua.Vm) : ThreadPc -> Prop
  | .lua pc => pc.Carries requests vm
  | .shutdown _ (.drained letter) => requests letter.tag = some letter.message
  | _ => True

structure Accounts (state : State) : Prop where
  sound : Lua.Sound state.requests state.vm
  carries : state.thread.Carries state.requests state.vm
  queued : forall letter, letter ∈ state.shared.box.contents ->
    state.requests letter.tag = some letter.message
  replied : forall reply, reply ∈ state.shared.replies ->
    Exists fun request => state.requests reply.origin = some request ∧
      Lua.Answers reply.message request
  posted : forall tag, weight (Letter.claims tag) state.shared.accepted =
    (state.calls[tag]?).elim 0 Call.posted
  balanced : forall tag, state.ledger tag = weight (Letter.claims tag) state.shared.accepted
  loaded : state.thread.Loaded = true -> state.funcRef = true
  unloaded : state.funcRef = false -> state.thread.Finished = false -> forall tag,
    state.vm.live tag = 0
  shut : state.thread.Shut state.shared.box

namespace Accounts

variable {state : State}

theorem posted_le_one (call : Call) : call.posted ≤ 1 := by
  cases call with
  | send message pc =>
      simp only [Call.posted]
      split <;> decide
  | _ => exact Nat.zero_le 1

/-- No request is in two places. -/
theorem ledger_le_one (accounts : Accounts state) (tag : Nat) : state.ledger tag ≤ 1 := by
  rw [accounts.balanced, accounts.posted]
  cases state.calls[tag]? with
  | none => exact Nat.zero_le 1
  | some call => exact posted_le_one call

theorem custody_le_one (accounts : Accounts state) (tag : Nat) :
    state.thread.custody state.vm tag ≤ 1 := by
  have bound := accounts.ledger_le_one tag
  unfold State.ledger at bound
  omega

end Accounts

/-! ## Requests are fixed once the call is entered -/

theorem requests_grow (state : State) (request : Request) (tag : Nat) (message : Message)
    (known : state.requests tag = some message) :
    State.requests { state with calls := state.calls ++ [request.call] } tag = some message := by
  have inside : tag < state.calls.length := by
    unfold State.requests at known
    split at known
    · rename_i present
      exact length_of_getElem? present
    · cases known
  unfold State.requests at known ⊢
  rw [List.getElem?_append_left inside]
  exact known

theorem CallMove.requests {state : State} {index : Nat} {call after : Call} {shared : Shared}
    (moved : CallMove state.shared index call shared after)
    (present : state.calls[index]? = some call) :
    State.requests { state with shared, calls := state.calls.set index after } = state.requests := by
  funext tag
  unfold State.requests
  by_cases same : index = tag
  · subst same
    rw [List.getElem?_set_self (length_of_getElem? present), present]
    cases moved <;> rfl
  · simp only [List.getElem?_set_ne same]

/-! ## The mailbox stays shut -/

theorem QueueStep.closed {shared next : Shared} (effect : QueueStep shared next)
    (before : shared.box.closed = true) : next.box.closed = true := by
  cases effect with
  | same contents closed scheduled accepted notices => exact closed before
  | stored letter contents isOpen scheduled accepted notices => cases before.symm.trans isOpen
  | popped letter contents closed scheduled accepted notices => exact closed.trans before
  | released contents idle closed scheduled accepted notices => exact closed.trans before

theorem QueueStep.empty {shared next : Shared} (effect : QueueStep shared next)
    (before : shared.box.closed = true ∧ shared.box.contents = []) :
    next.box.closed = true ∧ next.box.contents = [] := by
  refine ⟨effect.closed before.1, ?_⟩
  cases effect with
  | same contents closed scheduled accepted notices => exact contents.trans before.2
  | stored letter contents isOpen scheduled accepted notices => cases before.1.symm.trans isOpen
  | popped letter contents closed scheduled accepted notices =>
      cases before.2.symm.trans contents
  | released contents idle closed scheduled accepted notices => exact contents.trans before.2

theorem QueueStep.shut {shared next : Shared} (effect : QueueStep shared next) {pc : ThreadPc}
    (before : pc.Shut shared.box) : pc.Shut next.box := by
  cases pc with
  | shutdown caller inner =>
      cases inner with
      | waitPins | drain | drained letter => exact effect.closed before
      | retire | close => trivial
  | closeHandles | notifyStop | finishRun | luaClose | finishPublish | ended =>
      exact effect.empty before
  | lua inner => exact fun stopping => effect.empty (before stopping)
  | _ => trivial

/-! ## The calls -/

/-- No letter has changed its place. -/
structure SameLetters (shared next : Shared) : Prop where
  contents : next.box.contents = shared.box.contents
  popped : next.popped = shared.popped
  drained : next.drained = shared.drained
  disposed : next.disposed = shared.disposed

/-- A step that adds nothing to the books; a letter may move from the queue to
the disposed ones. -/
structure Settled (shared next : Shared) : Prop where
  accepted : next.accepted = shared.accepted
  replies : next.replies = shared.replies
  members : forall letter, letter ∈ next.box.contents -> letter ∈ shared.box.contents
  weighed : forall tag, weight (Letter.claims tag) next.box.contents +
      weight (Letter.claims tag) next.disposed =
    weight (Letter.claims tag) shared.box.contents + weight (Letter.claims tag) shared.disposed

theorem Settled.of_same {shared next : Shared} (accepted : next.accepted = shared.accepted)
    (replies : next.replies = shared.replies) (contents : next.box.contents = shared.box.contents)
    (disposed : next.disposed = shared.disposed) : Settled shared next where
  accepted := accepted
  replies := replies
  members := fun letter member => contents ▸ member
  weighed := fun tag => by rw [contents, disposed]

theorem popInbox_contents_none {shared : Shared} (valid : shared.box.WellFormed)
    (empty : (popInbox shared).2 = none) :
    shared.box.contents = [] ∧ (popInbox shared).1.box.contents = [] := by
  rcases (popInbox_spec valid).2.2 with ⟨letter, found, _⟩ | ⟨_, before, after, _⟩
  · cases empty.symm.trans found
  · exact ⟨before, after⟩

theorem popInbox_contents_some {shared : Shared} (valid : shared.box.WellFormed) {letter : Letter}
    (found : (popInbox shared).2 = some letter) :
    shared.box.contents = letter :: (popInbox shared).1.box.contents := by
  rcases (popInbox_spec valid).2.2 with ⟨other, present, contents, _⟩ | ⟨absent, _⟩
  · rw [found] at present
    cases present
    exact contents
  · cases found.symm.trans absent

theorem StopMove.settled {shared next : Shared} {pc after : StopPc}
    (moved : StopMove shared pc next after) : Settled shared next := by
  cases moved <;> exact .of_same rfl rfl rfl rfl

theorem StartMove.settled {shared next : Shared} {pc after : StartPc}
    (moved : StartMove shared pc next after) : Settled shared next := by
  cases moved <;> exact .of_same rfl rfl rfl rfl

theorem FreeMove.settled {shared next : Shared} {pc after : FreePc}
    (moved : FreeMove shared pc next after) (valid : shared.box.WellFormed) :
    Settled shared next := by
  cases moved with
  | dispose found =>
      have contents := popInbox_contents_some valid found
      refine ⟨rfl, rfl, ?_, ?_⟩
      · intro other member
        rw [contents]
        exact List.mem_cons_of_mem _ member
      · intro tag
        simp only [contents, weight_append, weight_cons, weight_nil]
        omega
  | done empty =>
      have contents := popInbox_contents_none valid empty
      exact .of_same rfl rfl (contents.2.trans contents.1.symm) rfl
  | _ => exact .of_same rfl rfl rfl rfl

theorem JoinMove.settled {shared next : Shared} {fromThread : Bool} {pc after : JoinPc}
    (moved : JoinMove shared fromThread pc next after) (valid : shared.box.WellFormed) :
    Settled shared next := by
  cases moved with
  | free moved => exact moved.settled valid
  | _ => exact .of_same rfl rfl rfl rfl

theorem inactiveSendResult_ne_ok (state : Phase) : inactiveSendResult state ≠ .ok := by
  unfold inactiveSendResult
  split <;> exact SendResult.noConfusion

/-- A sender either posts its letter, or changes nothing in the books. -/
theorem SendMove.posts {shared next : Shared} {letter : Letter} {pc after : SendPc}
    (moved : SendMove shared letter pc next after) :
    (Settled shared next ∧ SameLetters shared next ∧ after.Accepted = pc.Accepted) ∨
    (next.accepted = shared.accepted ++ [letter] ∧ next.replies = shared.replies ∧
      next.box.contents = shared.box.contents ++ [letter] ∧ next.disposed = shared.disposed ∧
      pc.Accepted = false ∧ after.Accepted = true) := by
  have refused (result : SendResult) (failed : result ≠ .ok) :
      (SendPc.returned result).Accepted = false ∧ (SendPc.unpin result).Accepted = false := by
    cases result with
    | ok => exact False.elim (failed rfl)
    | full | notFound | stopping | stopped => exact ⟨rfl, rfl⟩
  cases moved with
  | stored entering valid isOpen stays contents scheduled first =>
      rename_i box notify
      refine Or.inr ⟨rfl, rfl, contents, rfl, ?_, ?_⟩
      · rcases entering with rfl | ⟨capacity, grown, rfl⟩ <;> rfl
      · cases notify <;> rfl
  | shut entering | full entering =>
      refine Or.inl ⟨.of_same rfl rfl rfl rfl, ⟨rfl, rfl, rfl, rfl⟩, ?_⟩
      rcases entering with rfl | ⟨capacity, grown, rfl⟩ <;> rfl
  | reported =>
      exact Or.inl ⟨.of_same rfl rfl rfl rfl, ⟨rfl, rfl, rfl, rfl⟩, (refused _ (inactiveSendResult_ne_ok _)).1⟩
  | tooLate =>
      exact Or.inl ⟨.of_same rfl rfl rfl rfl, ⟨rfl, rfl, rfl, rfl⟩, (refused _ (inactiveSendResult_ne_ok _)).2⟩
  | unpinned =>
      rename_i result
      refine Or.inl ⟨.of_same rfl rfl rfl rfl, ⟨rfl, rfl, rfl, rfl⟩, ?_⟩
      cases result <;> rfl
  | _ => exact Or.inl ⟨.of_same rfl rfl rfl rfl, ⟨rfl, rfl, rfl, rfl⟩, rfl⟩

theorem posted_set {calls : List Call} {index : Nat} {call : Call}
    (present : calls[index]? = some call) (after : Call) (tag : Nat) :
    ((calls.set index after)[tag]?).elim 0 Call.posted =
      if tag = index then after.posted else (calls[tag]?).elim 0 Call.posted := by
  by_cases same : tag = index
  · rw [if_pos same, same, List.getElem?_set_self (length_of_getElem? present)]
    rfl
  · rw [if_neg same, List.getElem?_set_ne (Ne.symm same)]

/-- A call that posts nothing. -/
theorem Settled.accounts {state : State} {shared : Shared} {index : Nat} {call after : Call}
    (settled : Settled state.shared shared) (effect : QueueStep state.shared shared)
    (moved : CallMove state.shared index call shared after)
    (present : state.calls[index]? = some call) (same : after.posted = call.posted)
    (accounts : Accounts state) :
    Accounts { state with shared, calls := state.calls.set index after } := by
  have known := moved.requests present
  refine ⟨?_, ?_, ?_, ?_, ?_, ?_, accounts.loaded, accounts.unloaded, effect.shut accounts.shut⟩
  · rw [known]
    exact accounts.sound
  · rw [known]
    exact accounts.carries
  · intro letter member
    rw [known]
    exact accounts.queued letter (settled.members letter member)
  · intro reply member
    rw [known]
    rw [settled.replies] at member
    exact accounts.replied reply member
  · intro tag
    rw [settled.accepted, accounts.posted, posted_set present]
    split
    · rename_i equal
      rw [equal, present, same]
      rfl
    · rfl
  · intro tag
    have before := accounts.balanced tag
    have weighed := settled.weighed tag
    simp only [State.ledger, settled.accepted, settled.replies] at before ⊢
    omega

theorem claims_index (message : Message) (index tag : Nat) :
    Letter.claims tag ⟨message, index⟩ = if tag = index ∧ message.Awaited then 1 else 0 := by
  unfold Letter.claims
  simp only [eq_comm]

/-- A sender that posts its letter: the mailbox and the account of the call
grow by the same amount. -/
theorem posted_accounts {state : State} {shared : Shared} {index : Nat} {message : Message}
    {pc later : SendPc} (moved : SendMove state.shared ⟨message, index⟩ pc shared later)
    (effect : QueueStep state.shared shared)
    (present : state.calls[index]? = some (.send message pc))
    (accepted : shared.accepted = state.shared.accepted ++ [⟨message, index⟩])
    (replies : shared.replies = state.shared.replies)
    (contents : shared.box.contents = state.shared.box.contents ++ [⟨message, index⟩])
    (disposed : shared.disposed = state.shared.disposed) (before : pc.Accepted = false)
    (after : later.Accepted = true) (accounts : Accounts state) :
    Accounts { state with shared, calls := state.calls.set index (.send message later) } := by
  have known := (CallMove.send moved).requests present
  have own : state.requests index = some message := by
    simp only [State.requests, present]
  refine ⟨?_, ?_, ?_, ?_, ?_, ?_, accounts.loaded, accounts.unloaded, effect.shut accounts.shut⟩
  · rw [known]
    exact accounts.sound
  · rw [known]
    exact accounts.carries
  · intro letter member
    rw [known]
    simp only [contents] at member
    rcases List.mem_append.mp member with earlier | new
    · exact accounts.queued letter earlier
    · rw [List.mem_singleton.mp new]
      exact own
  · intro reply member
    rw [known]
    rw [replies] at member
    exact accounts.replied reply member
  · intro tag
    rw [accepted, weight_append, accounts.posted, posted_set present, weight_cons, weight_nil,
      claims_index]
    by_cases same : tag = index
    · subst same
      simp only [present, Option.elim_some, Call.posted, before, after, true_and, if_pos trivial,
        Bool.false_eq_true, false_and, if_false, Nat.zero_add, Nat.add_zero]
    · simp only [same, false_and, if_false, Nat.add_zero]
  · intro tag
    have balanced := accounts.balanced tag
    simp only [State.ledger, accepted, replies, contents, disposed, weight_append] at balanced ⊢
    omega

theorem callMove_accounts {state : State} {shared : Shared} {index : Nat} {call after : Call}
    (moved : CallMove state.shared index call shared after) (valid : state.shared.box.WellFormed)
    (present : state.calls[index]? = some call) (accounts : Accounts state) :
    Accounts { state with shared, calls := state.calls.set index after } := by
  have effect := (moved.queue valid).2.1
  cases moved with
  | send sendMoved =>
      rcases sendMoved.posts with
        ⟨settled, same⟩ | ⟨accepted, replies, contents, disposed, before, later⟩
      · exact settled.accounts effect (.send sendMoved) present (by simp only [Call.posted, same])
          accounts
      · exact posted_accounts sendMoved effect present accepted replies contents disposed before
          later accounts
  | stop stopMoved =>
      exact stopMoved.settled.accounts effect (.stop stopMoved) present rfl accounts
  | start startMoved =>
      exact startMoved.settled.accounts effect (.start startMoved) present rfl accounts
  | join joinMoved =>
      exact (joinMoved.settled valid).accounts effect (.join joinMoved) present rfl accounts
  | free freeMoved =>
      exact (freeMoved.settled valid).accounts effect (.free freeMoved) present rfl accounts

theorem entered_accounts {state : State} (accounts : Accounts state) (request : Request) :
    Accounts { state with calls := state.calls ++ [request.call] } := by
  have grows := requests_grow state request
  refine ⟨accounts.sound.mono grows, ?_, ?_, ?_, ?_, accounts.balanced, accounts.loaded,
    accounts.unloaded, accounts.shut⟩
  · have before := accounts.carries
    cases pc : state.thread with
    | lua inner =>
        rw [pc] at before
        exact before.mono grows
    | shutdown caller inner =>
        cases inner with
        | drained letter =>
            rw [pc] at before
            exact grows _ _ before
        | _ => trivial
    | _ => trivial
  · exact fun letter member => grows _ _ (accounts.queued letter member)
  · intro reply member
    rcases accounts.replied reply member with ⟨message, known, answers⟩
    exact ⟨message, grows _ _ known, answers⟩
  · intro tag
    rw [accounts.posted]
    by_cases inside : tag < state.calls.length
    · rw [List.getElem?_append_left inside]
    · rw [List.getElem?_append_right (Nat.not_lt.mp inside), List.getElem?_eq_none (Nat.not_lt.mp inside)]
      cases tag - state.calls.length with
      | zero => cases request <;> rfl
      | succ beyond => rfl

/-! ## The service thread -/

/-- Where the thread goes is compatible with the books as they are. -/
structure Fitting (state : State) (funcRef : Bool) (box : Mailbox Letter) (pc : ThreadPc) : Prop where
  custody : forall tag, pc.custody state.vm tag = state.thread.custody state.vm tag
  carries : pc.Carries state.requests state.vm
  loaded : pc.Loaded = true -> funcRef = true
  unloaded : funcRef = false -> pc.Finished = false -> forall tag, state.vm.live tag = 0
  shut : pc.Shut box

/-- A step that neither runs Lua code nor moves a letter. -/
theorem Fitting.accounts {state next : State} (fitting : Fitting state next.funcRef next.shared.box next.thread)
    (accounts : Accounts state) (calls : next.calls = state.calls) (vm : next.vm = state.vm)
    (settled : Settled state.shared next.shared) : Accounts next := by
  have known : next.requests = state.requests := by
    funext tag
    simp only [State.requests, calls]
  refine ⟨?_, ?_, ?_, ?_, ?_, ?_, fitting.loaded, ?_, fitting.shut⟩
  · rw [known, vm]
    exact accounts.sound
  · rw [known, vm]
    exact fitting.carries
  · intro letter member
    rw [known]
    exact accounts.queued letter (settled.members letter member)
  · intro reply member
    rw [known]
    rw [settled.replies] at member
    exact accounts.replied reply member
  · intro tag
    rw [settled.accepted, calls]
    exact accounts.posted tag
  · intro tag
    have before := accounts.balanced tag
    have weighed := settled.weighed tag
    have custody := fitting.custody tag
    simp only [State.ledger, settled.accepted, settled.replies, vm] at before ⊢
    omega
  · rw [vm]
    exact fitting.unloaded

theorem Walk.fitting {state : State} {before after : ThreadPc} (walked : Walk state before after)
    (located : state.thread = before) (accounts : Accounts state) :
    Fitting state state.funcRef state.shared.box after := by
  have carries := accounts.carries
  have loaded := accounts.loaded
  have unloaded := accounts.unloaded
  have shut := accounts.shut
  rw [located] at carries loaded unloaded shut
  have custody (tag : Nat) : after.custody state.vm tag = before.custody state.vm tag := by
    cases walked with
    | notify handler visits =>
        rename_i order
        simp only [ThreadPc.custody, Lua.Pc.custody, Lua.Vm.pending, ThreadPc.Finished,
          Bool.false_eq_true, if_false]
        split
        · rfl
        · rename_i absent
          symm
          rw [Lua.Vm.live_eq_zero_iff]
          intro session found
          have member : tag ∈ state.vm.response.keys := by
            rw [← AList.mem_keys, ← AList.lookup_isSome, found]
            rfl
          exact False.elim (absent (visits.mem_iff.mpr member))
    | notifyNobody noHandler place =>
        have silent := unloaded noHandler rfl tag
        rcases place with rfl | rfl <;> exact silent.symm
    | stopDone place => rcases place with rfl | rfl <;> rfl
    | _ => rfl
  refine ⟨fun tag => by rw [located]; exact custody tag, ?_, ?_, ?_, ?_⟩
  · cases walked with
    | notify handler visits => exact visits.nodup_iff.mpr state.vm.response.keys_nodup
    | notifyNobody _ place | stopDone place => rcases place with rfl | rfl <;> trivial
    | _ => trivial
  · cases walked with
    | notify handler visits => exact fun _ => handler
    | notifyNobody _ place | stopDone place => rcases place with rfl | rfl <;> exact Bool.noConfusion
    | callback | round | noRound | receive | refuse | quit | finished | raised | callbackDone
    | failStopped | control | noControl => exact fun _ => loaded rfl
    | _ => exact Bool.noConfusion
  · cases walked with
    | notifyNobody _ place | stopDone place =>
        rcases place with rfl | rfl <;> exact fun _ => Bool.noConfusion
    | loopClosed | loopBusy => exact fun _ => Bool.noConfusion
    | _ => exact fun noHandler _ => unloaded noHandler rfl
  · cases walked with
    | notify handler visits => exact fun _ => shut
    | notifyNobody _ place => rcases place with rfl | rfl <;> exact shut
    | stopDone place => rcases place with rfl | rfl <;> exact shut rfl
    | loopClosed | loopBusy => exact shut
    | callback | round | refuse => exact Bool.noConfusion
    | _ => trivial

theorem luaMove_handed {self : ServiceId} {vm next : Lua.Vm} {pc after : Lua.Pc} {choice : Lua.Choice}
    (moved : Lua.Move self vm pc choice next after)
    (internal : forall processed, pc ≠ .receiving processed) :
    forall found, choice ≠ .received found := by
  cases moved with
  | received | receivedNone => exact False.elim (internal _ rfl)
  | raise control raised inside => exact inside
  | _ => exact fun _ => Lua.Choice.noConfusion

theorem handed_eq_zero {choice : Lua.Choice} (inside : forall found, choice ≠ .received found)
    (tag : Nat) : choice.handed tag = 0 := by
  cases choice with
  | received found => exact False.elim (inside found rfl)
  | _ => rfl

theorem replyOf_answered (pc : Lua.Pc) (tag : Nat) :
    weight (Reply.answers tag) (replyOf pc).toList = pc.answered tag := by
  cases pc with
  | sending message next => cases next <;> rfl
  | _ => rfl

theorem replyOf_answers {requests : Nat -> Option Message} {vm : Lua.Vm} {pc : Lua.Pc}
    (carries : pc.Carries requests vm) {reply : Reply} (sent : replyOf pc = some reply) :
    Exists fun request => requests reply.origin = some request ∧
      Lua.Answers reply.message request := by
  cases pc with
  | sending message next =>
      cases next with
      | response co ret =>
          cases sent
          exact carries.1
      | failure co ret =>
          cases sent
          exact carries
      | pending co rest =>
          cases sent
          exact carries.1
      | user site | call caller session ret => cases sent
  | _ => cases sent

theorem luaMove_accounts {self : ServiceId} {state : State} {pc after : Lua.Pc} {choice : Lua.Choice}
    {vm : Lua.Vm} (located : state.thread = .lua pc)
    (internal : forall processed, pc ≠ .receiving processed)
    (moved : Lua.Move self state.vm pc choice vm after) (accounts : Accounts state) :
    Accounts { state with
      vm
      thread := .lua after
      shared := { state.shared with replies := state.shared.replies ++ (replyOf pc).toList } } := by
  have carries := accounts.carries
  have shut := accounts.shut
  have handler := accounts.loaded
  rw [located] at carries shut handler
  have inside := luaMove_handed moved internal
  have kept := moved.sound accounts.sound carries fun letter handed => False.elim (inside _ handed)
  refine ⟨kept.1, kept.2, accounts.queued, ?_, accounts.posted, ?_, fun _ => handler rfl, ?_, ?_⟩
  · intro reply member
    rcases List.mem_append.mp member with earlier | new
    · exact accounts.replied reply earlier
    · exact replyOf_answers carries (Option.mem_toList.mp new)
  · intro tag
    have alone := accounts.custody_le_one tag
    have balanced := accounts.balanced tag
    rw [located] at alone
    have conserved := moved.conserves accounts.sound carries alone
    rw [handed_eq_zero inside] at conserved
    simp only [State.ledger, located, ThreadPc.custody, weight_append, replyOf_answered]
      at balanced ⊢
    omega
  · intro noHandler
    cases (handler rfl).symm.trans noHandler
  · exact fun stopping => shut (moved.stopping stopping)

/-- A letter leaves the queue for the hands of the thread. -/
theorem popped_accounts {state : State} {shared : Shared} {letter : Letter} {pc : ThreadPc}
    (accounts : Accounts state) (valid : state.shared.box.WellFormed)
    (found : (popInbox state.shared).2 = some letter)
    (box : shared.box = (popInbox state.shared).1.box)
    (accepted : shared.accepted = state.shared.accepted)
    (replies : shared.replies = state.shared.replies)
    (disposed : shared.disposed = state.shared.disposed)
    (custody : forall tag, pc.custody state.vm tag =
      letter.claims tag + state.thread.custody state.vm tag)
    (carries : state.requests letter.tag = some letter.message -> pc.Carries state.requests state.vm)
    (loaded : pc.Loaded = state.thread.Loaded) (finished : pc.Finished = state.thread.Finished)
    (shut : pc.Shut (popInbox state.shared).1.box) :
    Accounts { state with thread := pc, shared } := by
  have contents : state.shared.box.contents = letter :: shared.box.contents := by
    rw [box]
    exact popInbox_contents_some valid found
  have own : state.requests letter.tag = some letter.message := by
    apply accounts.queued
    rw [contents]
    exact List.mem_cons_self
  refine ⟨accounts.sound, carries own, ?_, ?_, ?_, ?_, ?_, ?_, box ▸ shut⟩
  · intro other member
    apply accounts.queued
    rw [contents]
    exact List.mem_cons_of_mem _ member
  · rw [replies]
    exact accounts.replied
  · rw [accepted]
    exact accounts.posted
  · intro tag
    have balanced := accounts.balanced tag
    have moved := custody tag
    simp only [State.ledger, contents, weight_cons] at balanced ⊢
    rw [replies, disposed, accepted]
    omega
  · rw [loaded]
    exact accounts.loaded
  · rw [finished]
    exact accounts.unloaded

theorem shutdownMove_accounts {self : ServiceId} {state : State} {caller : Caller} {pc later : ShutdownPc}
    {shared : Shared} (located : state.thread = .shutdown caller pc)
    (moved : ShutdownMove self state.shared pc shared (some later)) (valid : state.shared.box.WellFormed)
    (accounts : Accounts state) :
    Accounts { state with shared, thread := .shutdown caller later } := by
  have carries := accounts.carries
  have loaded := accounts.loaded
  have unloaded := accounts.unloaded
  have shut := accounts.shut
  have closedAfter := (popInbox_spec valid).2.1
  rw [located] at carries loaded unloaded shut
  have loadedAt (place : ShutdownPc) :
      (ThreadPc.shutdown caller place).Loaded = true -> state.funcRef = true := by
    cases caller with
    | control => exact fun _ => loaded rfl
    | finish => exact Bool.noConfusion
  cases moved with
  | retire =>
      refine Fitting.accounts ?_ accounts rfl rfl (.of_same rfl rfl rfl rfl)
      exact ⟨fun tag => by rw [located]; rfl, trivial, loadedAt _, unloaded, trivial⟩
  | close =>
      refine Fitting.accounts ?_ accounts rfl rfl (.of_same rfl rfl rfl rfl)
      exact ⟨fun tag => by rw [located]; rfl, trivial, loadedAt _, unloaded, rfl⟩
  | waited settled =>
      refine Fitting.accounts ?_ accounts rfl rfl (.of_same rfl rfl rfl rfl)
      exact ⟨fun tag => by rw [located]; rfl, trivial, loadedAt _, unloaded, shut⟩
  | popped found =>
      refine popped_accounts accounts valid found rfl rfl rfl rfl ?_ ?_ ?_ ?_ ?_
      · intro tag
        rw [located]
        rfl
      · exact id
      · rw [located]
        cases caller <;> rfl
      · rw [located]
        rfl
      · exact closedAfter.trans shut
  | answered awaited =>
      rename_i letter
      refine ⟨accounts.sound, trivial, accounts.queued, ?_, accounts.posted, ?_, ?_, ?_, shut⟩
      · intro reply member
        rcases List.mem_append.mp member with earlier | new
        · exact accounts.replied reply earlier
        · rw [List.mem_singleton.mp new]
          exact ⟨letter.message, carries, awaited, rfl, rfl, Or.inr rfl⟩
      · intro tag
        have balanced := accounts.balanced tag
        have owed : letter.claims tag = Reply.answers tag ⟨letter.tag, stopReply self letter.message⟩ := by
          simp only [Letter.claims, Reply.answers, awaited, and_true]
        simp only [State.ledger, located, ThreadPc.custody, ThreadPc.Finished, weight_append,
          weight_cons, weight_nil, Bool.false_eq_true, if_false] at balanced ⊢
        omega
      · exact loadedAt _
      · exact unloaded
  | skipped unasked =>
      rename_i letter
      refine Fitting.accounts ?_ accounts rfl rfl (.of_same rfl rfl rfl rfl)
      refine ⟨fun tag => ?_, trivial, loadedAt _, unloaded, shut⟩
      have none : letter.claims tag = 0 := if_neg fun both => unasked both.2
      rw [located]
      simp only [ThreadPc.custody, ThreadPc.Finished, Bool.false_eq_true, if_false, none,
        Nat.zero_add]

theorem shutdownDone_accounts {self : ServiceId} {state : State} {caller : Caller} {pc : ShutdownPc}
    {shared : Shared} (located : state.thread = .shutdown caller pc)
    (moved : ShutdownMove self state.shared pc shared none) (valid : state.shared.box.WellFormed)
    (accounts : Accounts state) :
    Accounts { state with shared, thread := caller.afterShutdown } := by
  have loaded := accounts.loaded
  have unloaded := accounts.unloaded
  have shut := accounts.shut
  have closedAfter := (popInbox_spec valid).2.1
  rw [located] at loaded unloaded shut
  cases moved with
  | done empty =>
      have contents := popInbox_contents_none valid empty
      have settled : Settled state.shared (popInbox state.shared).1 :=
        .of_same rfl rfl (contents.2.trans contents.1.symm) rfl
      refine Fitting.accounts ?_ accounts rfl rfl settled
      have emptied : (popInbox state.shared).1.box.closed = true ∧
          (popInbox state.shared).1.box.contents = [] := ⟨closedAfter.trans shut, contents.2⟩
      cases caller with
      | control => exact ⟨fun tag => by rw [located]; rfl, trivial, loaded, unloaded, emptied⟩
      | finish =>
          exact ⟨fun tag => by rw [located]; rfl, trivial, Bool.noConfusion, unloaded, emptied⟩

/-- A change of program counter between two points that keep nothing special
in hand. -/
theorem Accounts.fitting {state : State} (accounts : Accounts state) {before after : ThreadPc}
    {funcRef : Bool} {box : Mailbox Letter} (located : state.thread = before)
    (custody : forall tag, after.custody state.vm tag = before.custody state.vm tag)
    (carries : after.Carries state.requests state.vm)
    (loaded : after.Loaded = true -> funcRef = true)
    (unloaded : funcRef = false -> after.Finished = false ->
      state.funcRef = false ∧ before.Finished = false)
    (shut : after.Shut box) : Fitting state funcRef box after where
  custody := fun tag => by rw [located]; exact custody tag
  carries := carries
  loaded := loaded
  unloaded := fun noHandler early => by
    have same := unloaded noHandler early
    apply accounts.unloaded same.1
    rw [located]
    exact same.2
  shut := shut

theorem threadMove_accounts {self : ServiceId} {state next : State}
    (moved : ThreadMove self state next) (wake : WakeInvariant state)
    (life : state.thread.stage.Fits state.shared) (valid : state.shared.box.WellFormed)
    (accounts : Accounts state) : Accounts next := by
  have loaded := accounts.loaded
  have shut := accounts.shut
  have plain {shared : Shared} (contents : shared.box.contents = state.shared.box.contents)
      (accepted : shared.accepted = state.shared.accepted)
      (replies : shared.replies = state.shared.replies)
      (disposed : shared.disposed = state.shared.disposed) : Settled state.shared shared :=
    .of_same accepted replies contents disposed
  cases moved with
  | walk located walked =>
      exact (walked.fitting located accounts).accounts accounts rfl rfl (plain rfl rfl rfl rfl)
  | lua located internal internal' moved => exact luaMove_accounts located internal moved accounts
  | shutdownStep located moved => exact shutdownMove_accounts located moved valid accounts
  | shutdownDone located moved => exact shutdownDone_accounts located moved valid accounts
  | popped located found =>
      refine popped_accounts accounts valid found rfl rfl rfl rfl ?_ ?_ ?_ ?_ ?_
      · intro tag
        rw [located]
        rfl
      · exact id
      · rw [located]
        rfl
      · rw [located]
        rfl
      · exact Bool.noConfusion
  | poppedNone located empty =>
      have contents := popInbox_contents_none valid empty
      refine Fitting.accounts ?_ accounts rfl rfl
        (plain (contents.2.trans contents.1.symm) rfl rfl rfl)
      rw [located] at loaded
      exact accounts.fitting located (fun _ => rfl) trivial (fun _ => loaded rfl)
        (fun noHandler _ => ⟨noHandler, rfl⟩) Bool.noConfusion
  | started located wanted =>
      have publishes : ThreadMove self state _ := .started located wanted
      have ready := threadMove_ready publishes wake life rfl
      refine Fitting.accounts ?_ accounts rfl rfl (plain rfl rfl rfl rfl)
      exact accounts.fitting located (fun _ => rfl) trivial (fun _ => ready.2.1)
        (fun noHandler _ => ⟨noHandler, rfl⟩) trivial
  | loopReady located | inboxReady located | controlReady located =>
      refine Fitting.accounts ?_ accounts rfl rfl (plain rfl rfl rfl rfl)
      exact accounts.fitting located (fun _ => rfl) trivial Bool.noConfusion
        (fun noHandler _ => ⟨noHandler, rfl⟩) trivial
  | notStarted located =>
      refine Fitting.accounts ?_ accounts rfl rfl (plain rfl rfl rfl rfl)
      exact accounts.fitting located (fun _ => rfl) trivial Bool.noConfusion
        (fun noHandler _ => ⟨noHandler, rfl⟩) trivial
  | luaReady located =>
      refine Fitting.accounts ?_ accounts rfl rfl (plain rfl rfl rfl rfl)
      exact accounts.fitting located (fun _ => rfl) trivial (fun _ => rfl) Bool.noConfusion trivial
  | selfWake located =>
      rcases located with located | located
      all_goals
        rw [located] at loaded
        refine Fitting.accounts ?_ accounts rfl rfl (plain rfl rfl rfl rfl)
        exact accounts.fitting located (fun _ => rfl) trivial (fun _ => loaded rfl)
          (fun noHandler _ => ⟨noHandler, rfl⟩) trivial
  | wakeInbox located | wakeControl located =>
      rw [located] at loaded
      refine Fitting.accounts ?_ accounts rfl rfl (plain rfl rfl rfl rfl)
      exact accounts.fitting located (fun _ => rfl) trivial (fun _ => loaded rfl)
        (fun noHandler _ => ⟨noHandler, rfl⟩) trivial
  | inboxClosed located | controlClosed located =>
      refine Fitting.accounts ?_ accounts rfl rfl (plain rfl rfl rfl rfl)
      exact ⟨fun _ => rfl, accounts.carries, accounts.loaded, accounts.unloaded, accounts.shut⟩
  | quitStep located moved | failStep located moved =>
      rw [located] at loaded
      refine Fitting.accounts ?_ accounts rfl rfl moved.settled
      exact accounts.fitting located (fun _ => rfl) trivial (fun _ => loaded rfl)
        (fun noHandler _ => ⟨noHandler, rfl⟩) trivial
  | quitDone located =>
      rename_i after
      rw [located] at loaded
      refine Fitting.accounts ?_ accounts rfl rfl (plain rfl rfl rfl rfl)
      refine accounts.fitting located (fun tag => ?_) (after.pc_carries _ _) (fun _ => loaded rfl)
        (fun noHandler _ => ⟨noHandler, rfl⟩) ?_
      · exact after.pc_custody state.vm tag
      · intro stopping
        rw [after.pc_stopping] at stopping
        cases stopping
  | overloaded located place =>
      rename_i failed batchFull after
      rw [located] at loaded
      have quiet : Fitting state state.funcRef state.shared.box.takeOverload.1 after := by
        rw [place]
        split
        · exact accounts.fitting located (fun _ => rfl) trivial (fun _ => loaded rfl)
            (fun noHandler _ => ⟨noHandler, rfl⟩) trivial
        · split <;>
            exact accounts.fitting located (fun _ => rfl) trivial (fun _ => loaded rfl)
              (fun noHandler _ => ⟨noHandler, rfl⟩) trivial
      exact quiet.accounts accounts rfl rfl (plain rfl rfl rfl rfl)
  | batchGoesOn located more =>
      rw [located] at loaded
      have contents := (Mailbox.finishBatch_spec valid rfl).2.2.1
      refine Fitting.accounts ?_ accounts rfl rfl (plain contents rfl rfl rfl)
      exact accounts.fitting located (fun _ => rfl) trivial (fun _ => loaded rfl)
        (fun noHandler _ => ⟨noHandler, rfl⟩) trivial
  | batchEnds located done =>
      rw [located] at loaded
      have contents := (Mailbox.finishBatch_spec valid rfl).2.2.1
      refine Fitting.accounts ?_ accounts rfl rfl (plain contents rfl rfl rfl)
      exact accounts.fitting located (fun _ => rfl) trivial (fun _ => loaded rfl)
        (fun noHandler _ => ⟨noHandler, rfl⟩) trivial
  | closeHandles located =>
      rename_i caller
      rw [located] at loaded shut
      refine Fitting.accounts ?_ accounts rfl rfl (plain rfl rfl rfl rfl)
      cases caller with
      | control =>
          exact accounts.fitting located (fun _ => rfl) trivial (fun _ => loaded rfl)
            (fun noHandler _ => ⟨noHandler, rfl⟩) trivial
      | finish =>
          exact accounts.fitting located (fun _ => rfl) trivial Bool.noConfusion
            (fun _ => Bool.noConfusion) shut
  | finishLock located =>
      refine Fitting.accounts ?_ accounts rfl rfl (plain rfl rfl rfl rfl)
      exact accounts.fitting located (fun _ => rfl) trivial Bool.noConfusion
        (fun noHandler _ => ⟨noHandler, rfl⟩) trivial
  | luaClosed located | published located =>
      rw [located] at shut
      refine Fitting.accounts ?_ accounts rfl rfl (plain rfl rfl rfl rfl)
      exact accounts.fitting located (fun _ => rfl) trivial Bool.noConfusion
        (fun _ => Bool.noConfusion) shut

/-! ## Every reachable state -/

theorem step_accounts (self : ServiceId) (state : State) (action : Action) (next : State)
    (reachable : (machine self).Reachable state) (accounts : Accounts state)
    (moved : (machine self).step state action = some next) : Accounts next := by
  have valid := (reachable_inbox reachable).valid
  rcases reachable_step_cases reachable moved with
    ⟨request, rfl⟩ | ⟨index, call, shared, after, present, callMoved, rfl⟩ | threadMoved
  · exact entered_accounts accounts request
  · exact callMove_accounts callMoved valid present accounts
  · exact threadMove_accounts threadMoved (reachable_wakeInvariant reachable)
      (reachable_lifecycle reachable).stage valid accounts

theorem fresh_accounts (state : State) (fresh : Fresh state) : Accounts state := by
  rcases fresh with ⟨capacity, cells, box, _sized, created, rfl⟩
  have empty := (Mailbox.new_contents created).1
  refine ⟨⟨?_, ?_⟩, trivial, ?_, ?_, fun _ => rfl, ?_, Bool.noConfusion, fun _ _ _ => rfl, trivial⟩
  · intro co session found
    cases found
  · intro co member
    cases member
  · intro letter member
    simp only [State.start, Shared.new, empty, List.not_mem_nil] at member
  · intro reply member
    cases member
  · intro tag
    simp only [State.ledger, State.start, Shared.new, empty]
    rfl

theorem reachable_accounts {self : ServiceId} {state : State}
    (reachable : (machine self).Reachable state) : Accounts state :=
  reachable.induction fresh_accounts (step_accounts self)

/-! ## Nothing is thrown away before the service is joined -/

def FreePc.Disposing : FreePc -> Bool
  | .delete | .dispose => true
  | _ => false

def Call.Disposing : Call -> Bool
  | .free pc | .join _ (.free pc) => pc.Disposing
  | _ => false

/-- `mailbox_delete` only runs on a service past STOPPED. -/
structure Disposal (state : State) : Prop where
  disposed : state.shared.disposed ≠ [] -> 5 ≤ state.shared.state.rank
  calls : forall (index : Nat) call, state.calls[index]? = some call -> call.Disposing = true ->
    5 ≤ state.shared.state.rank

theorem PhaseStep.joined {shared next : Shared} (moved : PhaseStep shared next)
    (before : 5 ≤ shared.state.rank) : 5 ≤ next.state.rank := by
  cases moved with
  | same equal =>
      rw [equal.state]
      exact before
  | stopNew new _ _ _ | start new _ _ _ _ =>
      rw [new] at before
      exact absurd before (by decide)
  | stop active _ _ _ _ =>
      rcases active with active | active <;> rw [active] at before <;> exact absurd before (by decide)
  | join past after _ _ => exact after

theorem FreeMove.disposal {shared next : Shared} {pc after : FreePc}
    (moved : FreeMove shared pc next after) (before : pc.Disposing = true -> 5 ≤ shared.state.rank) :
    (next.disposed = shared.disposed ∨ 5 ≤ next.state.rank) ∧
      (after.Disposing = true -> 5 ≤ next.state.rank) := by
  cases moved with
  | free joined => exact ⟨Or.inl rfl, fun _ => show 5 ≤ Phase.freed.rank by decide⟩
  | delete => exact ⟨Or.inl rfl, fun _ => before rfl⟩
  | dispose found => exact ⟨Or.inr (before rfl), fun _ => before rfl⟩
  | _ => exact ⟨Or.inl rfl, Bool.noConfusion⟩

theorem CallMove.disposal {shared next : Shared} {index : Nat} {call after : Call}
    (moved : CallMove shared index call next after)
    (before : call.Disposing = true -> 5 ≤ shared.state.rank) :
    (next.disposed = shared.disposed ∨ 5 ≤ next.state.rank) ∧
      (after.Disposing = true -> 5 ≤ next.state.rank) := by
  cases moved with
  | send moved => cases moved <;> exact ⟨Or.inl rfl, Bool.noConfusion⟩
  | stop moved => cases moved <;> exact ⟨Or.inl rfl, Bool.noConfusion⟩
  | start moved => cases moved <;> exact ⟨Or.inl rfl, Bool.noConfusion⟩
  | free moved => exact moved.disposal before
  | join moved =>
      cases moved with
      | free moved => exact moved.disposal before
      | _ => exact ⟨Or.inl rfl, Bool.noConfusion⟩

theorem ThreadMove.disposed {self : ServiceId} {state next : State}
    (moved : ThreadMove self state next) : next.shared.disposed = state.shared.disposed := by
  cases moved with
  | quitStep located moved | failStep located moved => cases moved <;> rfl
  | shutdownStep located moved | shutdownDone located moved => cases moved <;> rfl
  | _ => rfl

theorem step_disposal (self : ServiceId) (state : State) (action : Action) (next : State)
    (reachable : (machine self).Reachable state) (disposal : Disposal state)
    (moved : (machine self).step state action = some next) : Disposal next := by
  have life := reachable_lifecycle reachable
  rcases reachable_step_cases reachable moved with
    ⟨request, rfl⟩ | ⟨index, call, shared, after, present, callMoved, rfl⟩ | threadMoved
  · refine ⟨disposal.disposed, ?_⟩
    apply forall_append_singleton disposal.calls
    cases request <;> exact Bool.noConfusion
  · have phase := (callMoved.phase (life.calls index call present)
      (Stage.Fits.late life.stage) life.joining).1
    have result := callMoved.disposal (disposal.calls index call present)
    constructor
    · intro some
      rcases result.1 with same | late
      · rw [same] at some
        exact phase.joined (disposal.disposed some)
      · exact late
    · exact forall_set (fun position member found disposing =>
        phase.joined (disposal.calls position member found disposing)) (fun _ => result.2)
  · have early := threadMoved.early life
    have never (late : 5 ≤ state.shared.state.rank) : False := early (Nat.le_of_succ_le late)
    constructor
    · intro some
      rw [threadMoved.disposed] at some
      exact False.elim (never (disposal.disposed some))
    · intro index call present disposing
      rw [threadMoved.calls] at present
      exact False.elim (never (disposal.calls index call present disposing))

theorem fresh_disposal (state : State) (fresh : Fresh state) : Disposal state := by
  rcases fresh with ⟨capacity, cells, box, _sized, _created, rfl⟩
  constructor
  · intro some
    exact False.elim (some rfl)
  · intro index call present
    cases present

theorem reachable_disposal {self : ServiceId} {state : State}
    (reachable : (machine self).Reachable state) : Disposal state :=
  reachable.induction fresh_disposal (step_disposal self)

/-! ## The result -/

theorem answers_filter (replies : List Reply) (tag : Nat) :
    weight (Reply.answers tag) replies =
      (replies.filter fun reply => reply.origin = tag).length := by
  induction replies with
  | nil => rfl
  | cons reply rest inductionHypothesis =>
      rw [weight_cons, inductionHypothesis]
      by_cases same : reply.origin = tag
      · rw [List.filter_cons_of_pos (by simpa using same), List.length_cons]
        simp only [Reply.answers, if_pos same]
        omega
      · rw [List.filter_cons_of_neg (by simpa using same)]
        simp only [Reply.answers, if_neg same]
        omega

/-- When a service that had a thread is STOPPED, every request it accepted
from a caller that waits has had exactly one reply handed to `service_send`,
a RESPONSE or an ERROR with the request's session, addressed to its sender. -/
theorem stop_answers_every_caller {self : ServiceId} {state : State}
    (reachable : (machine self).Reachable state) (created : state.shared.threadCreated = true)
    (stopped : state.shared.state = .stopped) {index : Nat} {message : Message}
    (sent : state.calls[index]? = some (.send message (.returned .ok)))
    (awaited : message.Awaited) :
    Exists fun reply : Message =>
      (state.shared.replies.filter fun reply => reply.origin = index) = [⟨index, reply⟩] ∧
      reply.session = message.session ∧ reply.toId = message.fromId ∧
      (reply.type = .response ∨ reply.type = .error) := by
  have accounts := reachable_accounts reachable
  have ended := (reachable_lifecycle reachable).ended_of_stopped created stopped
  have empty : state.shared.box.contents = [] := by
    have shut := accounts.shut
    rw [ended] at shut
    exact shut.2
  have kept : state.shared.disposed = [] := by
    by_contra some
    have late := (reachable_disposal reachable).disposed some
    rw [stopped] at late
    exact absurd late (by decide)
  have once : weight (Reply.answers index) state.shared.replies = 1 := by
    have balanced := accounts.balanced index
    rw [accounts.posted, sent] at balanced
    simp only [State.ledger, empty, kept, ended, ThreadPc.custody, ThreadPc.Finished, weight_nil,
      Option.elim_some, Call.posted, SendPc.Accepted, awaited, and_self, if_true] at balanced
    omega
  rw [answers_filter] at once
  rcases List.length_eq_one_iff.mp once with ⟨⟨origin, reply⟩, only⟩
  have member : (⟨origin, reply⟩ : Reply) ∈ state.shared.replies.filter (·.origin = index) := by
    rw [only]
    exact List.mem_singleton_self _
  rcases List.mem_filter.mp member with ⟨present, named⟩
  have same : origin = index := of_decide_eq_true named
  subst same
  rcases accounts.replied _ present with ⟨request, known, answers⟩
  have own : state.requests origin = some message := by simp only [State.requests, sent]
  rw [own] at known
  cases known
  exact ⟨reply, only, answers.session, answers.address, answers.type⟩

/-- Two callers and a stop.  The handler of the first request has suspended,
the second request is still queued: the drain answers the one, `reply_pending`
the other. -/
def stopRun : List Action :=
  let free : Outcome := ⟨none, 0⟩
  List.flatten
    [[.call .start, .advance 0 free],
      List.replicate 11 (.thread .next),
      [.call (.send ⟨1, 7, 5, .request, some 0⟩)],
      List.replicate 5 (.advance 1 free),
      [.thread .wakeInbox, .thread .next, .thread (.lua .next), .thread .next, .thread .next,
        .thread (.lua .next), .thread (.lua .decoded), .thread (.lua .yield)],
      [.call (.send ⟨2, 7, 9, .request, some 1⟩)],
      List.replicate 3 (.advance 2 free),
      [.call .stop],
      List.replicate 4 (.advance 3 free),
      [.thread (.lua .next), .thread .next, .thread (.lua .next), .thread (.lua .done),
        .thread .next, .thread .next, .thread .wakeControl],
      List.replicate 8 (.thread .next),
      [.thread .inboxClosed, .thread .controlClosed, .thread .exit],
      List.replicate 5 (.thread .next),
      [.thread (.visit [1]), .thread (.lua .next), .thread (.lua (.sent true)),
        .thread (.lua .next)],
      List.replicate 5 (.thread .next)]

theorem stop_answers_every_caller_twice :
    Exists fun state => (machine 7).Reachable state ∧ state.shared.state = .stopped ∧
      (Exists fun reply : Message =>
        (state.shared.replies.filter fun reply => reply.origin = 1) = [⟨1, reply⟩] ∧
        reply.session = 5 ∧ reply.toId = 1 ∧ (reply.type = .response ∨ reply.type = .error)) ∧
      (Exists fun reply : Message =>
        (state.shared.replies.filter fun reply => reply.origin = 2) = [⟨2, reply⟩] ∧
        reply.session = 9 ∧ reply.toId = 2 ∧ (reply.type = .response ∨ reply.type = .error)) := by
  let blank : Letter := ⟨⟨0, 0, 0, .system, none⟩, 0⟩
  let box : Mailbox Letter :=
    { items := [blank, blank], capacity := 2, head := 0, tail := 0, count := 0,
      initialCapacity := 2, overload := 0, overloadThreshold := 2, closed := false,
      scheduled := false }
  have fresh : (machine 7).initial (.start box) := ⟨2, box.items, box, rfl, by decide, rfl⟩
  have ends : ((machine 7).run (.start box) stopRun).any (fun final => decide
      (final.shared.threadCreated = true ∧ final.shared.state = .stopped ∧
        final.calls[1]? = some (.send ⟨1, 7, 5, .request, some 0⟩ (.returned .ok)) ∧
        final.calls[2]? = some (.send ⟨2, 7, 9, .request, some 1⟩ (.returned .ok)))) = true := by
    decide +kernel
  rcases (machine 7).exists_reachable fresh ends with
    ⟨state, reachable, created, stopped, first, second⟩
  exact ⟨state, reachable, stopped,
    stop_answers_every_caller reachable created stopped first (by decide),
    stop_answers_every_caller reachable created stopped second (by decide)⟩

end Service
end ServiceRuntime
