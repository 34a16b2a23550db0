import ServiceRuntime.Lua.Dispatcher

namespace ServiceRuntime
namespace Lua

/-!
# Everything the dispatcher can do

One constructor for every way the Lua code can move, with its guards.  Proofs
about `step` go through this relation: they see each transition once, with the
table operations spelled out, and do not unfold the step function again.
-/

/-- The coroutine that has control at a program counter, and where it was
resumed from. -/
def Pc.running : Pc -> Option (Co × Return)
  | .unpackRequest co _ ret => some (co, ret)
  | .unpackReply co _ ret => some (co, ret)
  | .user (.coroutine co ret) => some (co, ret)
  | _ => none

/-- The ways `raiseFrom` can end. -/
inductive Raised (self : ServiceId) (vm : Vm) (co : Co) (ret : Return) : Vm -> Pc -> Prop where
  | bootQuits (booting : co ∈ vm.booting) (quit : vm.quit = false) :
      Raised self vm co ret { leaveSession vm co with quit := true } (.quitting (.back ret))
  | bootEnds (booting : co ∈ vm.booting) (quit : vm.quit = true) :
      Raised self vm co ret (leaveSession vm co) ret.pc
  | answered {fromId : ServiceId} {session : Session} {payload : Payload}
      (ordinary : co ∉ vm.booting) (asked : vm.address.lookup co = some fromId)
      (awaited : vm.response.lookup co = some session) (positive : 0 < session) :
      Raised self vm co ret (leaveSession vm co)
        (.sending (replyMessage self .error fromId session payload) (.failure co ret))
  | unnoticed (ordinary : co ∉ vm.booting)
      (nobody : forall fromId session, vm.address.lookup co = some fromId ->
        vm.response.lookup co = some session -> session = 0) :
      Raised self vm co ret (leaveSession vm co) ret.pc

theorem raiseFrom_raised (self : ServiceId) (vm : Vm) (co : Co) (ret : Return) (payload : Payload) :
    Raised self vm co ret (raiseFrom self vm co ret payload).1
      (raiseFrom self vm co ret payload).2 := by
  unfold raiseFrom
  by_cases booting : co ∈ vm.booting
  · rw [if_pos booting]
    by_cases quit : vm.quit = true
    · rw [if_pos quit]
      exact .bootEnds booting quit
    · rw [if_neg quit]
      exact .bootQuits booting (Bool.eq_false_iff.mpr quit)
  · rw [if_neg booting]
    cases asked : vm.address.lookup co with
    | none =>
        apply Raised.unnoticed booting
        intro fromId session present
        rw [asked] at present
        cases present
    | some fromId =>
        cases awaited : vm.response.lookup co with
        | none =>
            apply Raised.unnoticed booting
            intro other session _ present
            rw [awaited] at present
            cases present
        | some session =>
            by_cases positive : 0 < session
            · simp only [if_pos positive]
              exact .answered booting asked awaited positive
            · simp only [if_neg positive]
              apply Raised.unnoticed booting
              intro other expected _ present
              rw [awaited] at present
              cases present
              exact Nat.eq_zero_of_not_pos positive

/-- The dispatcher's transitions. -/
inductive Move (self : ServiceId) : Vm -> Pc -> Choice -> Vm -> Pc -> Prop where
  -- the dispatch loop
  | headReceive {vm processed} (running : vm.quit = false) (room : processed < dispatchBatchSize) :
      Move self vm (.head processed) .next vm (.receiving processed)
  | headEnd {vm processed} (past : ¬ (vm.quit = false ∧ processed < dispatchBatchSize)) :
      Move self vm (.head processed) .next vm (.roundEnd processed)
  | received {vm processed letter} :
      Move self vm (.receiving processed) (.received (some letter)) vm (.got (processed + 1) letter)
  | receivedNone {vm processed} :
      Move self vm (.receiving processed) (.received none) vm (.roundEnd processed)
  | gotRequest {vm processed letter} (type : letter.message.type = .request) :
      Move self vm (.got processed letter) .next
        (newSession vm letter.tag letter.message.fromId letter.message.session)
        (.unpackRequest letter.tag letter (.round processed))
  | gotReply {vm processed letter co}
      (type : letter.message.type = .response ∨ letter.message.type = .error)
      (positive : 0 < letter.message.session)
      (waiting : vm.suspendLookup.lookup letter.message.session = some co) :
      Move self vm (.got processed letter) .next
        { vm with
          suspendLookup := vm.suspendLookup.erase letter.message.session
          runningThread := some co }
        (.unpackReply co letter (.round processed))
  | gotUnknownReply {vm processed letter}
      (type : letter.message.type = .response ∨ letter.message.type = .error)
      (unknown : 0 < letter.message.session ->
        vm.suspendLookup.lookup letter.message.session = none) :
      Move self vm (.got processed letter) .next vm (.removing letter (.round processed))
  | gotSystem {vm processed letter} (type : letter.message.type = .system) :
      Move self vm (.got processed letter) .next vm (.unpackSystem letter (.round processed))
  | gotOther {vm processed letter}
      (type : letter.message.type ≠ .request ∧ letter.message.type ≠ .response ∧
        letter.message.type ≠ .error ∧ letter.message.type ≠ .system) :
      Move self vm (.got processed letter) .next vm (.removing letter (.round processed))
  | removed {vm letter ret} : Move self vm (.removing letter ret) .next vm ret.pc
  | roundQuit {vm processed} (quit : vm.quit = true) :
      Move self vm (.roundEnd processed) .next vm (.finished false)
  | roundHooks {vm processed} (running : vm.quit = false) :
      Move self vm (.roundEnd processed) .next vm (.user (.hooks processed))
  -- unpacking
  | requestDecoded {vm co letter ret} :
      Move self vm (.unpackRequest co letter ret) .decoded vm (.user (.coroutine co ret))
  | replyDecoded {vm co letter ret} :
      Move self vm (.unpackReply co letter ret) .decoded vm (.user (.coroutine co ret))
  | booted {vm letter ret} :
      Move self vm (.unpackSystem letter ret) (.bootstrap true)
        { newSession vm letter.tag letter.message.fromId 0 with booting := letter.tag :: vm.booting }
        (.user (.coroutine letter.tag ret))
  | notBooted {vm letter ret} : Move self vm (.unpackSystem letter ret) (.bootstrap false) vm ret.pc
  | systemGarbled {vm letter ret payload} (packed : letter.message.msg.isSome = true) :
      Move self vm (.unpackSystem letter ret) (.decodeFailed payload) vm .raised
  -- user code
  | send {vm site toId payload} :
      Move self vm (.user site) (.send toId payload) vm
        (.sending ⟨self, toId, 0, .request, some payload⟩ (.user site))
  | sendMessage {vm site toId session type payload} :
      Move self vm (.user site) (.sendMessage toId session type payload) vm
        (.sending ⟨self, toId, session, type, payload⟩ (.user site))
  | quit {vm site} (running : vm.quit = false) :
      Move self vm (.user site) .quit { vm with quit := true } (.quitting (.user site))
  | quitAgain {vm site} (quit : vm.quit = true) : Move self vm (.user site) .quit vm (.user site)
  | call {vm co ret caller toId payload session next} (managed : vm.runningThread = some caller)
      (allocated : allocateSession vm = some (session, next)) :
      Move self vm (.user (.coroutine co ret)) (.call toId payload) { vm with nextSession := next }
        (.sending ⟨self, toId, session, .request, some payload⟩ (.call caller session ret))
  | callExhausted {vm co ret toId payload} (exhausted : allocateSession vm = none) :
      Move self vm (.user (.coroutine co ret)) (.call toId payload) vm (.user (.coroutine co ret))
  | callUnpackable {vm co ret session next} (allocated : allocateSession vm = some (session, next)) :
      Move self vm (.user (.coroutine co ret)) .callUnpackable { vm with nextSession := next }
        (.user (.coroutine co ret))
  | yield {vm co ret} :
      Move self vm (.user (.coroutine co ret)) .yield
        { vm with runningThread := none, yielded := co :: vm.yielded } ret.pc
  | finishAnswer {vm co ret running fromId session payload} (current : vm.runningThread = some running)
      (awaited : vm.response.lookup running = some session) (positive : 0 < session)
      (asked : vm.address.lookup running = some fromId) :
      Move self vm (.user (.coroutine co ret)) (.finish payload) vm
        (.sending (replyMessage self .response fromId session payload) (.response running ret))
  | finishSilent {vm co ret running payload} (current : vm.runningThread = some running)
      (unasked : vm.response.lookup running = some 0) :
      Move self vm (.user (.coroutine co ret)) (.finish payload) (leaveSession vm running) ret.pc
  | raise {vm pc choice co ret next after} (control : pc.running = some (co, ret))
      (raised : Raised self vm co ret next after)
      (inside : forall found, choice ≠ .received found) : Move self vm pc choice next after
  | hooksRaise {vm processed payload} :
      Move self vm (.user (.hooks processed)) (.raise payload) vm .raised
  | resume {vm site co ret} (place : site.resumes = some ret) (suspended : co ∈ vm.yielded) :
      Move self vm (.user site) (.resume co)
        { vm with runningThread := some co, yielded := vm.yielded.erase co }
        (.user (.coroutine co ret))
  | hooksDone {vm processed} :
      Move self vm (.user (.hooks processed)) .done vm
        (.finished (!vm.quit && processed == dispatchBatchSize))
  | callbackDone {vm} : Move self vm (.user .callback) .done vm .callbackDone
  -- back from C
  | sentUser {vm message site ok} :
      Move self vm (.sending message (.user site)) (.sent ok) vm (.user site)
  | sentCall {vm message caller session ret} :
      Move self vm (.sending message (.call caller session ret)) (.sent true)
        { vm with
          suspendLookup := vm.suspendLookup.insert session caller
          runningThread := none }
        ret.pc
  | sentCallRefused {vm message caller session ret} :
      Move self vm (.sending message (.call caller session ret)) (.sent false) vm
        (.user (.coroutine caller ret))
  | sentResponse {vm message co ret ok} :
      Move self vm (.sending message (.response co ret)) (.sent ok) (leaveSession vm co) ret.pc
  | sentFailure {vm message co ret ok} :
      Move self vm (.sending message (.failure co ret)) (.sent ok) vm ret.pc
  | sentPending {vm message co rest ok} :
      Move self vm (.sending message (.pending co rest)) (.sent ok) vm (.replyPending rest)
  | stopped {vm next} : Move self vm (.quitting next) .stopped vm next.pc
  -- the final call
  | pendingDone {vm} : Move self vm (.replyPending []) .next vm .stopDone
  | pendingAnswer {vm co rest fromId session} (asked : vm.address.lookup co = some fromId)
      (awaited : vm.response.lookup co = some session) (positive : 0 < session) :
      Move self vm (.replyPending (co :: rest)) .next vm
        (.sending ⟨self, fromId, session, .error, none⟩ (.pending co rest))
  | pendingSkip {vm co rest}
      (nobody : forall fromId session, vm.address.lookup co = some fromId ->
        vm.response.lookup co = some session -> session = 0) :
      Move self vm (.replyPending (co :: rest)) .next vm (.replyPending rest)

theorem raise_move {self : ServiceId} {vm next : Vm} {pc after : Pc} {choice : Choice} {co : Co}
    {ret : Return} {payload : Payload} (control : pc.running = some (co, ret))
    (inside : forall found, choice ≠ .received found)
    (moved : raiseFrom self vm co ret payload = (next, after)) : Move self vm pc choice next after := by
  have raised := raiseFrom_raised self vm co ret payload
  rw [moved] at raised
  exact .raise control raised inside

theorem sendResponse_move {self : ServiceId} {vm next : Vm} {after : Pc} {co : Co} {ret : Return}
    {payload : Payload} (moved : sendResponse self vm co ret payload = (next, after)) :
    Move self vm (.user (.coroutine co ret)) (.finish payload) next after := by
  unfold sendResponse at moved
  split at moved
  · exact raise_move rfl (fun _ => Choice.noConfusion) moved
  · rename_i running current
    split at moved
    · exact raise_move rfl (fun _ => Choice.noConfusion) moved
    · rename_i session awaited
      split at moved
      · rename_i positive
        split at moved
        · rename_i fromId asked
          cases moved
          exact .finishAnswer current awaited positive asked
        · exact raise_move rfl (fun _ => Choice.noConfusion) moved
      · rename_i zero
        cases moved
        rw [Nat.eq_zero_of_not_pos zero] at awaited
        exact .finishSilent current awaited

theorem dispatchMessage_move {self : ServiceId} {vm next : Vm} {after : Pc} {processed : Nat}
    {letter : Letter} (moved : dispatchMessage vm processed letter = (next, after)) :
    Move self vm (.got processed letter) .next next after := by
  have reply (type : letter.message.type = .response ∨ letter.message.type = .error) :
      Move self vm (.got processed letter) .next next after := by
    by_cases positive : 0 < letter.message.session
    · cases waiting : vm.suspendLookup.lookup letter.message.session with
      | none =>
          rcases type with type | type <;>
            simp only [dispatchMessage, type, positive, waiting, if_true] at moved <;> cases moved
          · exact .gotUnknownReply (Or.inl type) fun _ => waiting
          · exact .gotUnknownReply (Or.inr type) fun _ => waiting
      | some co =>
          rcases type with type | type <;>
            simp only [dispatchMessage, type, positive, waiting, if_true] at moved <;> cases moved
          · exact .gotReply (Or.inl type) positive waiting
          · exact .gotReply (Or.inr type) positive waiting
    · rcases type with type | type <;>
        simp only [dispatchMessage, type, positive, if_false] at moved <;> cases moved
      · exact .gotUnknownReply (Or.inl type) fun some => False.elim (positive some)
      · exact .gotUnknownReply (Or.inr type) fun some => False.elim (positive some)
  cases type : letter.message.type with
  | request =>
      simp only [dispatchMessage, type] at moved
      cases moved
      exact .gotRequest type
  | response => exact reply (Or.inl type)
  | error => exact reply (Or.inr type)
  | system =>
      simp only [dispatchMessage, type] at moved
      cases moved
      exact .gotSystem type
  | signal | other code =>
      simp only [dispatchMessage, type] at moved
      cases moved
      apply Move.gotOther
      simp only [type, ne_eq, reduceCtorEq, not_false_eq_true, and_self]

theorem userStep_move {self : ServiceId} {vm next : Vm} {site : Site} {choice : Choice} {after : Pc}
    (moved : userStep self vm site choice = some (next, after)) :
    Move self vm (.user site) choice next after := by
  cases choice with
  | send toId payload =>
      cases moved
      exact .send
  | sendMessage toId session type payload =>
      cases moved
      exact .sendMessage
  | quit =>
      simp only [userStep] at moved
      split at moved <;> rename_i quit <;> cases moved
      · exact .quitAgain quit
      · exact .quit (Bool.eq_false_iff.mpr quit)
  | call toId payload =>
      simp only [userStep] at moved
      split at moved
      · rename_i co ret caller managed
        split at moved
        · rename_i exhausted
          cases moved
          exact .callExhausted exhausted
        · rename_i session following allocated
          cases moved
          exact .call managed allocated
      · cases moved
  | callUnpackable =>
      simp only [userStep] at moved
      split at moved
      · rename_i co ret session following allocated
        cases moved
        exact .callUnpackable allocated
      · cases moved
  | yield =>
      cases site with
      | coroutine co ret =>
          cases moved
          exact .yield
      | hooks processed | callback => cases moved
  | finish payload =>
      cases site with
      | coroutine co ret => exact sendResponse_move (Option.some.inj moved)
      | hooks processed | callback => cases moved
  | raise payload =>
      cases site with
      | coroutine co ret => exact raise_move rfl (fun _ => Choice.noConfusion) (Option.some.inj moved)
      | hooks processed =>
          cases moved
          exact .hooksRaise
      | callback => cases moved
  | resume co =>
      simp only [userStep] at moved
      split at moved
      · rename_i ret place
        split at moved <;> rename_i suspended <;> cases moved
        exact .resume place suspended
      · cases moved
  | done =>
      cases site with
      | hooks processed =>
          cases moved
          exact .hooksDone
      | callback =>
          cases moved
          exact .callbackDone
      | coroutine co ret => cases moved
  | next | sent ok | decoded | decodeFailed payload | bootstrap found | received letter | stopped =>
      cases moved

theorem sentStep_move {self : ServiceId} {vm next : Vm} {message : Message} {continuation : AfterSend}
    {ok : Bool} {after : Pc} (moved : sentStep vm continuation ok = (next, after)) :
    Move self vm (.sending message continuation) (.sent ok) next after := by
  cases continuation with
  | user site =>
      cases moved
      exact .sentUser
  | call caller session ret =>
      cases ok with
      | true =>
          cases moved
          exact .sentCall
      | false =>
          cases moved
          exact .sentCallRefused
  | response co ret =>
      cases moved
      exact .sentResponse
  | failure co ret =>
      cases moved
      exact .sentFailure
  | pending co rest =>
      cases moved
      exact .sentPending

theorem replyPendingStep_move {self : ServiceId} {vm next : Vm} {rest : List Co} {after : Pc}
    (moved : replyPendingStep self vm rest = (next, after)) :
    Move self vm (.replyPending rest) .next next after := by
  cases rest with
  | nil =>
      cases moved
      exact .pendingDone
  | cons co rest =>
      simp only [replyPendingStep] at moved
      split at moved
      · rename_i fromId session asked awaited
        split at moved <;> rename_i positive <;> cases moved
        · exact .pendingAnswer asked awaited positive
        · apply Move.pendingSkip
          intro other expected _ present
          rw [awaited] at present
          cases present
          exact Nat.eq_zero_of_not_pos positive
      · rename_i missing
        cases moved
        apply Move.pendingSkip
        intro fromId session asked awaited
        exact False.elim (missing fromId session asked awaited)

/-- The relation covers the step function. -/
theorem step_move {self : ServiceId} {vm next : Vm} {pc after : Pc} {choice : Choice}
    (moved : step self vm pc choice = some (next, after)) : Move self vm pc choice next after := by
  unfold step at moved
  split at moved
  · split at moved <;> rename_i guard <;> cases moved
    · exact .headReceive guard.1 guard.2
    · exact .headEnd guard
  · cases moved
    exact .received
  · cases moved
    exact .receivedNone
  · exact dispatchMessage_move (Option.some.inj moved)
  · cases moved
    exact .removed
  · cases moved
    exact .requestDecoded
  · split at moved
    · exact raise_move rfl (fun _ => Choice.noConfusion) (Option.some.inj moved)
    · cases moved
  · cases moved
    exact .replyDecoded
  · split at moved
    · exact raise_move rfl (fun _ => Choice.noConfusion) (Option.some.inj moved)
    · cases moved
  · split at moved <;> rename_i found <;> cases moved
    · rw [found]
      exact .booted
    · rw [Bool.eq_false_iff.mpr found]
      exact .notBooted
  · split at moved <;> rename_i packed <;> cases moved
    exact .systemGarbled packed
  · exact userStep_move moved
  · exact sentStep_move (Option.some.inj moved)
  · cases moved
    exact .stopped
  · split at moved <;> rename_i quit <;> cases moved
    · exact .roundQuit quit
    · exact .roundHooks (Bool.eq_false_iff.mpr quit)
  · exact replyPendingStep_move (Option.some.inj moved)
  · cases moved

/-! ## The final call -/

/-- The Lua code is inside the final `"stop"` call. -/
def Pc.Stopping : Pc -> Bool
  | .replyPending _ | .sending _ (.pending _ _) | .stopDone => true
  | _ => false

@[simp] theorem Return.pc_stopping (ret : Return) : ret.pc.Stopping = false := by
  cases ret <;> rfl

@[simp] theorem AfterQuit.pc_stopping (next : AfterQuit) : next.pc.Stopping = false := by
  cases next with
  | user site => rfl
  | back ret => exact ret.pc_stopping

/-- Only the runtime's `"stop"` leads into the final call. -/
theorem Move.stopping {self : ServiceId} {vm next : Vm} {pc after : Pc} {choice : Choice}
    (moved : Move self vm pc choice next after) (stopping : after.Stopping = true) :
    pc.Stopping = true := by
  have back (ret : Return) : ¬ ret.pc.Stopping = true := by
    rw [ret.pc_stopping]
    exact Bool.false_ne_true
  cases moved with
  | raise control raised inside =>
      cases raised with
      | bootQuits | answered => cases stopping
      | bootEnds | unnoticed => exact False.elim (back _ stopping)
  | removed | notBooted | yield | finishSilent | sentCall | sentResponse | sentFailure =>
      exact False.elim (back _ stopping)
  | stopped =>
      rw [AfterQuit.pc_stopping] at stopping
      cases stopping
  | _ => first | rfl | cases stopping

/-- The final call is not left before it is over. -/
theorem Move.stops {self : ServiceId} {vm next : Vm} {pc after : Pc} {choice : Choice}
    (moved : Move self vm pc choice next after) : after.Stopping = pc.Stopping := by
  cases stopping : after.Stopping with
  | true => exact (moved.stopping stopping).symm
  | false =>
      cases moved with
      | raise control raised inside =>
          cases pc <;> first | rfl | cases control
      | sentPending | pendingDone | pendingAnswer | pendingSkip => cases stopping
      | _ => rfl

end Lua
end ServiceRuntime
