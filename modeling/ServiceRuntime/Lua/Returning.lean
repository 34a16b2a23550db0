import ServiceRuntime.Lua.Moves

namespace ServiceRuntime
namespace Lua

/-!
# Handlers that return

A handler may run for ever.  If all it does is return, the dispatcher comes
back to C: every program counter has a distance to that point, and one step
brings it down.  Each pending response counts, since the final `"stop"` visits
them all.
-/

/-- The environment lets the Lua code go on, and user code returns at once. -/
def Choice.returns : Choice -> Bool
  | .next | .finish _ | .done | .sent _ | .decoded | .bootstrap false | .received _ | .stopped => true
  | _ => false

def Return.steps : Return -> Nat
  | .callback => 2
  | .hooks _ => 12
  | .round _ => 15

def Site.steps : Site -> Nat
  | .callback => 2
  | .hooks _ => 12
  | .coroutine _ _ => 25

def AfterQuit.steps : AfterQuit -> Nat
  | .user site => site.steps
  | .back ret => ret.steps

/-- The distance to the end of the callback, or of the final call.  There are
`responses` requests that are not answered. -/
def Pc.left (responses : Nat) : Pc -> Nat
  | .stopDone => 7
  | .replyPending rest => 8 + 3 * rest.length
  | .sending _ (.pending _ rest) => 9 + 3 * rest.length
  | .callbackDone => 41 + 3 * responses
  | .finished _ | .raised => 51 + 3 * responses
  | .roundEnd _ => 53 + 3 * responses
  | .receiving _ => 54 + 3 * responses
  | .head _ => 55 + 3 * responses
  | .removing _ _ | .unpackSystem _ _ => 56 + 3 * responses
  | .sending _ (.response _ _) | .sending _ (.failure _ _) | .sending _ (.call _ _ _) =>
      56 + 3 * responses
  | .user site => 40 + site.steps + 3 * responses
  | .sending _ (.user site) => 41 + site.steps + 3 * responses
  | .quitting next => 47 + next.steps + 3 * responses
  | .unpackRequest _ _ _ | .unpackReply _ _ _ => 66 + 3 * responses
  | .got _ _ => 70 + 3 * responses

theorem Return.pc_left (ret : Return) (responses : Nat) :
    ret.pc.left responses = 40 + ret.steps + 3 * responses := by
  cases ret <;> rfl

theorem AfterQuit.pc_left (next : AfterQuit) (responses : Nat) :
    next.pc.left responses = 40 + next.steps + 3 * responses := by
  cases next with
  | user site => rfl
  | back ret => exact ret.pc_left responses

theorem Return.steps_le (ret : Return) : ret.steps ≤ 15 := by
  cases ret with
  | callback => decide
  | hooks processed => exact (by decide : 12 ≤ 15)
  | round processed => exact Nat.le_refl 15

/-- The requests whose answers are pending. -/
def Vm.unanswered (vm : Vm) : Nat := vm.response.keys.length

theorem leaveSession_unanswered (vm : Vm) (co : Co) : (leaveSession vm co).unanswered ≤ vm.unanswered := by
  show ((vm.response.erase co).keys).length ≤ vm.response.keys.length
  rw [AList.keys_erase]
  exact List.length_erase_le

theorem newSession_unanswered (vm : Vm) (co : Co) (fromId : ServiceId) (session : Session) :
    (newSession vm co fromId session).unanswered ≤ vm.unanswered + 1 := by
  show ((vm.response.insert co session).keys).length ≤ vm.response.keys.length + 1
  rw [AList.keys_insert, List.length_cons]
  exact Nat.succ_le_succ List.length_erase_le

/-- The step leads closer to the end. -/
def Closer (vm : Vm) (pc : Pc) (result : Vm × Pc) : Prop :=
  result.2.left result.1.unanswered < pc.left vm.unanswered

/-- The step comes closer, and leaves no more responses than before. -/
theorem closer_of_left {vm next : Vm} {pc after : Pc} {near far : Nat}
    (fewer : next.unanswered ≤ vm.unanswered) (there : after.left next.unanswered = near + 3 * next.unanswered)
    (here : pc.left vm.unanswered = far + 3 * vm.unanswered) (less : near < far) :
    Closer vm pc (next, after) := by
  show after.left next.unanswered < pc.left vm.unanswered
  omega

/-- Going back to where a coroutine was resumed. -/
theorem closer_of_return {vm next : Vm} {pc : Pc} {ret : Return} {far : Nat}
    (fewer : next.unanswered ≤ vm.unanswered) (here : pc.left vm.unanswered = far + 3 * vm.unanswered)
    (beyond : 55 < far) : Closer vm pc (next, ret.pc) := by
  refine closer_of_left fewer (ret.pc_left next.unanswered) here ?_
  have bound := ret.steps_le
  omega

section Ends

variable {self : ServiceId} {vm : Vm} {co : Co} {ret : Return} {payload : Payload}

theorem raiseFrom_closer {owner : Co} :
    Closer vm (.user (.coroutine owner ret)) (raiseFrom self vm co ret payload) := by
  have fewer := leaveSession_unanswered vm co
  have raised := raiseFrom_raised self vm co ret payload
  generalize raiseFrom self vm co ret payload = result at raised
  rcases result with ⟨next, after⟩
  cases raised with
  | bootQuits =>
      refine closer_of_left fewer rfl rfl ?_
      have bound := ret.steps_le
      show 47 + ret.steps < 65
      omega
  | bootEnds | unnoticed => exact closer_of_return fewer rfl (by decide : 55 < 65)
  | answered => exact closer_of_left fewer rfl rfl (by decide : 56 < 65)

theorem sendResponse_closer :
    Closer vm (.user (.coroutine co ret)) (sendResponse self vm co ret payload) := by
  unfold sendResponse
  split
  · exact raiseFrom_closer
  · split
    · exact raiseFrom_closer
    · split
      · split
        · exact closer_of_left (Nat.le_refl _) rfl rfl (by decide : 56 < 65)
        · exact raiseFrom_closer
      · exact closer_of_return (leaveSession_unanswered vm _) rfl (by decide : 55 < 65)

end Ends

theorem dispatchMessage_closer (vm : Vm) (processed : Nat) (letter : Letter) :
    Closer vm (.got processed letter) (dispatchMessage vm processed letter) := by
  have removes : Closer vm (.got processed letter) (vm, .removing letter (.round processed)) :=
    closer_of_left (Nat.le_refl _) rfl rfl (by decide : 56 < 70)
  cases type : letter.message.type with
  | request =>
      have more := newSession_unanswered vm letter.tag letter.message.fromId letter.message.session
      simp only [Closer, dispatchMessage, type, Pc.left]
      omega
  | response | error =>
      simp only [dispatchMessage, type]
      split
      · split
        · exact removes
        · exact closer_of_left (Nat.le_refl vm.unanswered) rfl rfl (by decide : 66 < 70)
      · exact removes
  | system =>
      simp only [dispatchMessage, type]
      exact closer_of_left (Nat.le_refl _) rfl rfl (by decide : 56 < 70)
  | signal | other => simpa only [dispatchMessage, type] using removes

theorem replyPendingStep_closer (self : ServiceId) (vm : Vm) (rest : List Co) :
    Closer vm (.replyPending rest) (replyPendingStep self vm rest) := by
  cases rest with
  | nil => exact Nat.lt_succ_self 7
  | cons co rest =>
      have skipped : Closer vm (.replyPending (co :: rest)) (vm, .replyPending rest) := by
        show 8 + 3 * rest.length < 8 + 3 * (rest.length + 1)
        omega
      simp only [replyPendingStep]
      split
      · split
        · show 9 + 3 * rest.length < 8 + 3 * (rest.length + 1)
          omega
        · exact skipped
      · exact skipped

theorem sentStep_closer (vm : Vm) (message : Message) (next : AfterSend) :
    Closer vm (.sending message next) (sentStep vm next true) := by
  cases next with
  | user site =>
      show 40 + site.steps + 3 * vm.unanswered < 41 + site.steps + 3 * vm.unanswered
      omega
  | call caller session ret =>
      exact closer_of_return (Nat.le_refl vm.unanswered) rfl (by decide : 55 < 56)
  | response co ret => exact closer_of_return (leaveSession_unanswered vm co) rfl (by decide : 55 < 56)
  | failure co ret => exact closer_of_return (Nat.le_refl _) rfl (by decide : 55 < 56)
  | pending co rest =>
      show 8 + 3 * rest.length < 9 + 3 * rest.length
      omega

/-- The points at which the Lua code waits for C. -/
def Pc.leaves : Pc -> Bool
  | .receiving _ | .quitting _ | .finished _ | .raised | .callbackDone | .stopDone => true
  | _ => false

/-- Wherever the Lua code stands, it can come closer to its end. -/
theorem step_returns (self : ServiceId) (vm : Vm) (pc : Pc) (inside : pc.leaves = false) :
    Exists fun choice => Exists fun result => choice.returns = true ∧
      step self vm pc choice = some result ∧ Closer vm pc result := by
  cases pc with
  | head processed =>
      by_cases goes : vm.quit = false ∧ processed < dispatchBatchSize
      · refine ⟨.next, (vm, .receiving processed), rfl, if_pos goes, ?_⟩
        exact closer_of_left (Nat.le_refl _) rfl rfl (by decide : 54 < 55)
      · refine ⟨.next, (vm, .roundEnd processed), rfl, if_neg goes, ?_⟩
        exact closer_of_left (Nat.le_refl _) rfl rfl (by decide : 53 < 55)
  | got processed letter =>
      exact ⟨.next, _, rfl, rfl, dispatchMessage_closer vm processed letter⟩
  | removing letter ret =>
      exact ⟨.next, (vm, ret.pc), rfl, rfl, closer_of_return (Nat.le_refl _) rfl (by decide : 55 < 56)⟩
  | unpackRequest co letter ret | unpackReply co letter ret =>
      refine ⟨.decoded, (vm, .user (.coroutine co ret)), rfl, rfl, ?_⟩
      exact closer_of_left (Nat.le_refl _) rfl rfl (by decide : 65 < 66)
  | unpackSystem letter ret =>
      exact ⟨.bootstrap false, (vm, ret.pc), rfl, rfl, closer_of_return (Nat.le_refl _) rfl (by decide : 55 < 56)⟩
  | user site =>
      cases site with
      | coroutine co ret => exact ⟨.finish 0, _, rfl, rfl, sendResponse_closer⟩
      | hooks processed =>
          refine ⟨.done, _, rfl, rfl, ?_⟩
          exact closer_of_left (Nat.le_refl vm.unanswered) rfl rfl (by decide : 51 < 52)
      | callback =>
          refine ⟨.done, _, rfl, rfl, ?_⟩
          exact closer_of_left (Nat.le_refl vm.unanswered) rfl rfl (by decide : 41 < 42)
  | sending message next => exact ⟨.sent true, _, rfl, rfl, sentStep_closer vm message next⟩
  | roundEnd processed =>
      cases quit : vm.quit with
      | true =>
          refine ⟨.next, (vm, .finished false), rfl, by simp only [step, quit, if_true], ?_⟩
          exact closer_of_left (Nat.le_refl _) rfl rfl (by decide : 51 < 53)
      | false =>
          refine ⟨.next, (vm, .user (.hooks processed)), rfl, ?_, ?_⟩
          · simp only [step, quit, Bool.false_eq_true, if_false]
          · exact closer_of_left (Nat.le_refl _) rfl rfl (by decide : 52 < 53)
  | replyPending rest => exact ⟨.next, _, rfl, rfl, replyPendingStep_closer self vm rest⟩
  | receiving | quitting | finished | raised | callbackDone | stopDone => cases inside

end Lua
end ServiceRuntime
