import Mathlib.Data.List.AList
import ServiceRuntime.Message

namespace ServiceRuntime
namespace Lua

/-!
# Sessions and the dispatcher of `service.lua`

One service's Lua code as an explicit machine.  The four module-level tables,
the session counter, `running_thread` and `quit` are the fields of `Vm`; the
program counter says where control stands inside `service._on_msg`, a handler
coroutine, an idle hook, a luv callback, or the final `"stop"` call.

Handler code is arbitrary.  At every point where it has control the choice
picks what it does next: send, call, suspend, return, raise or quit.  The
machine follows the source from there.  The calls into `service_c` are program
counters of their own (`receiving`, `sending`, `quitting`), so that a larger
model decides what the C side answers and when.

A coroutine is named by the delivery it was created for: `new_session` makes
one coroutine per message, and deliveries are never repeated.  The name is
ghost data; the source compares coroutines by identity only.
-/

/-- A Lua table with keys of one type and values of another. -/
abbrev Table (Key Value : Type) := AList fun _ : Key => Value

/-- A message together with the `service_send` call that delivered it. -/
structure Letter where
  message : Message
  tag : Nat
  deriving DecidableEq, Repr

/-- A handler coroutine, named by the tag of its letter. -/
abbrev Co := Nat

/-- `DISPATCH_BATCH_SIZE`. -/
def dispatchBatchSize : Nat := 256

/-- The module-level state of `service.lua`.  `yielded` holds the coroutines
suspended outside `service.call` (in `sleep` or a plain yield), `booting` the
ones started by a bootstrap message. -/
structure Vm where
  quit : Bool
  nextSession : Session
  suspendLookup : Table Session Co
  response : Table Co Session
  address : Table Co ServiceId
  runningThread : Option Co
  yielded : List Co
  booting : List Co

/-- The state after the module has been loaded. -/
def Vm.fresh : Vm where
  quit := false
  nextSession := 1
  suspendLookup := ∅
  response := ∅
  address := ∅
  runningThread := none
  yielded := []
  booting := []

/-- Where `resume_session` returns to: the dispatch loop, with the number of
messages processed so far, the hooks after it, or a luv callback. -/
inductive Return where
  | round (processed : Nat)
  | hooks (processed : Nat)
  | callback
  deriving DecidableEq, Repr

/-- Where user code has control. -/
inductive Site where
  | coroutine (co : Co) (ret : Return)
  | hooks (processed : Nat)
  | callback
  deriving DecidableEq, Repr

/-- What follows a `service._send_message`. -/
inductive AfterSend where
  | user (site : Site)
  | call (caller : Co) (session : Session) (ret : Return)
  | response (co : Co) (ret : Return)
  | failure (co : Co) (ret : Return)
  | pending (co : Co) (rest : List Co)
  deriving DecidableEq, Repr

/-- What follows the `service._stop` of `service.quit`. -/
inductive AfterQuit where
  | user (site : Site)
  | back (ret : Return)
  deriving DecidableEq, Repr

inductive Pc where
  | head (processed : Nat)
  | receiving (processed : Nat)
  | got (processed : Nat) (letter : Letter)
  | removing (letter : Letter) (ret : Return)
  | unpackRequest (co : Co) (letter : Letter) (ret : Return)
  | unpackReply (co : Co) (letter : Letter) (ret : Return)
  | unpackSystem (letter : Letter) (ret : Return)
  | user (site : Site)
  | sending (message : Message) (next : AfterSend)
  | quitting (next : AfterQuit)
  | roundEnd (processed : Nat)
  | finished (batchFull : Bool)
  | raised
  | callbackDone
  | replyPending (rest : List Co)
  | stopDone
  deriving DecidableEq, Repr

/-- What the environment, including the handler code, decides.  A `call` whose
arguments cannot be packed has already taken a session from the counter when
it raises. -/
inductive Choice where
  | next
  | send (toId : ServiceId) (payload : Payload)
  | sendMessage (toId : ServiceId) (session : Session) (type : MessageType) (payload : Option Payload)
  | call (toId : ServiceId) (payload : Payload)
  | callUnpackable
  | yield
  | finish (payload : Payload)
  | raise (payload : Payload)
  | quit
  | resume (co : Co)
  | done
  | sent (ok : Bool)
  | decoded
  | decodeFailed (payload : Payload)
  | bootstrap (found : Bool)
  | received (letter : Option Letter)
  | stopped
  deriving DecidableEq, Repr

/-! ## The session counter -/

/-- The counter after a session has been looked at: zero is skipped. -/
def followingSession (session : Session) : Session :=
  if session = uint32Max then 1 else session + 1

theorem followingSession_pos (session : Session) : 0 < followingSession session := by
  unfold followingSession
  split
  · exact Nat.one_pos
  · exact Nat.succ_pos session

/-- The `repeat` loop of `allocate_session`, at most `fuel` rounds. -/
def searchSession (lookup : Table Session Co) (first : Session) :
    Nat -> Session -> Option (Session × Session)
  | 0, _ => none
  | fuel + 1, session =>
      if (lookup.lookup session).isNone then some (session, followingSession session)
      else if followingSession session = first then none
      else searchSession lookup first fuel (followingSession session)

/-- `allocate_session`: the session and the new counter, or `none` for
`RPC_SESSION_EXHAUSTED`.  The counter runs through `1 .. UINT32_MAX`. -/
def allocateSession (vm : Vm) : Option (Session × Session) :=
  searchSession vm.suspendLookup vm.nextSession uint32Max vm.nextSession

/-- A session is only handed out while nobody waits under it. -/
theorem searchSession_unused {lookup : Table Session Co} {first : Session} {fuel : Nat}
    {start session next : Session}
    (found : searchSession lookup first fuel start = some (session, next)) :
    lookup.lookup session = none := by
  induction fuel generalizing start with
  | zero => cases found
  | succ fuel inductionHypothesis =>
      simp only [searchSession] at found
      split at found
      · rename_i free
        cases found
        exact Option.isNone_iff_eq_none.mp free
      · split at found
        · cases found
        · exact inductionHypothesis found

/-- Sessions handed out are never zero. -/
theorem searchSession_pos {lookup : Table Session Co} {first : Session} {fuel : Nat}
    {start session next : Session} (positive : 0 < start)
    (found : searchSession lookup first fuel start = some (session, next)) :
    0 < session ∧ 0 < next := by
  induction fuel generalizing start with
  | zero => cases found
  | succ fuel inductionHypothesis =>
      simp only [searchSession] at found
      split at found
      · cases found
        exact ⟨positive, followingSession_pos _⟩
      · split at found
        · cases found
        · exact inductionHypothesis (followingSession_pos _) found

/-! ## Coroutines and their sessions -/

/-- The program counter `resume_session` returns to. -/
def Return.pc : Return -> Pc
  | .round processed => .head processed
  | .hooks processed => .user (.hooks processed)
  | .callback => .user .callback

/-- The hooks (`on_idle` is the first of them) and the callbacks may call
`service.resume_session`; a running handler must not. -/
def Site.resumes : Site -> Option Return
  | .coroutine _ _ => none
  | .hooks processed => some (.hooks processed)
  | .callback => some .callback

def AfterQuit.pc : AfterQuit -> Pc
  | .user site => .user site
  | .back ret => ret.pc

/-- `new_session`, followed by the first half of `resume_session`. -/
def newSession (vm : Vm) (co : Co) (fromId : ServiceId) (session : Session) : Vm :=
  { vm with
    address := vm.address.insert co fromId
    response := vm.response.insert co session
    runningThread := some co }

/-- Clear both session tables for one coroutine. -/
def endSession (vm : Vm) (co : Co) : Vm :=
  { vm with
    address := vm.address.erase co
    response := vm.response.erase co }

/-- The same, back in `resume_session` after the coroutine has ended. -/
def leaveSession (vm : Vm) (co : Co) : Vm :=
  { endSession vm co with runningThread := none }

/-- The reply `send_response` and the error path hand to `service_send`. -/
def replyMessage (self : ServiceId) (type : MessageType) (toId : ServiceId) (session : Session)
    (payload : Payload) : Message where
  fromId := self
  toId
  session
  type
  msg := some payload

/-- A coroutine raised.  An ordinary one lands in the error path of
`resume_session`: both tables are cleared first, and an awaited request is
answered with the error text.  The coroutine of a bootstrap message catches
the error itself and quits the service. -/
def raiseFrom (self : ServiceId) (vm : Vm) (co : Co) (ret : Return) (payload : Payload) : Vm × Pc :=
  if co ∈ vm.booting then
    if vm.quit then (leaveSession vm co, ret.pc)
    else ({ leaveSession vm co with quit := true }, .quitting (.back ret))
  else
    match vm.address.lookup co, vm.response.lookup co with
    | some fromId, some session =>
        if 0 < session then
          (leaveSession vm co,
            .sending (replyMessage self .error fromId session payload) (.failure co ret))
        else (leaveSession vm co, ret.pc)
    | _, _ => (leaveSession vm co, ret.pc)

/-- The handler returned: `send_response` looks the session up under
`running_thread`. -/
def sendResponse (self : ServiceId) (vm : Vm) (co : Co) (ret : Return) (payload : Payload) : Vm × Pc :=
  match vm.runningThread with
  | none => raiseFrom self vm co ret payload
  | some running =>
      match vm.response.lookup running with
      | none => raiseFrom self vm co ret payload
      | some session =>
          if 0 < session then
            match vm.address.lookup running with
            | some fromId =>
                (vm, .sending (replyMessage self .response fromId session payload) (.response running ret))
            | none => raiseFrom self vm co ret payload
          else (leaveSession vm running, ret.pc)

/-- The branch of the dispatch loop a received message takes. -/
def dispatchMessage (vm : Vm) (processed : Nat) (letter : Letter) : Vm × Pc :=
  match letter.message.type with
  | .request =>
      (newSession vm letter.tag letter.message.fromId letter.message.session,
        .unpackRequest letter.tag letter (.round processed))
  | .response | .error =>
      if 0 < letter.message.session then
        match vm.suspendLookup.lookup letter.message.session with
        | none => (vm, .removing letter (.round processed))
        | some co =>
            ({ vm with
                suspendLookup := vm.suspendLookup.erase letter.message.session
                runningThread := some co },
              .unpackReply co letter (.round processed))
      else (vm, .removing letter (.round processed))
  | .system => (vm, .unpackSystem letter (.round processed))
  | .signal | .other _ => (vm, .removing letter (.round processed))

/-! ## The machine -/

/-- What user code does at a site where it has control. -/
def userStep (self : ServiceId) (vm : Vm) (site : Site) (choice : Choice) : Option (Vm × Pc) :=
  match choice with
  | .send toId payload =>
      some (vm, .sending ⟨self, toId, 0, .request, some payload⟩ (.user site))
  | .sendMessage toId session type payload =>
      some (vm, .sending ⟨self, toId, session, type, payload⟩ (.user site))
  | .quit =>
      if vm.quit then some (vm, .user site)
      else some ({ vm with quit := true }, .quitting (.user site))
  | .call toId payload =>
      match site, vm.runningThread with
      | .coroutine _ ret, some caller =>
          match allocateSession vm with
          | none => some (vm, .user site)
          | some (session, next) =>
              some ({ vm with nextSession := next },
                .sending ⟨self, toId, session, .request, some payload⟩ (.call caller session ret))
      | _, _ => none
  | .callUnpackable =>
      match site, allocateSession vm with
      | .coroutine _ _, some (_, next) => some ({ vm with nextSession := next }, .user site)
      | _, _ => none
  | .yield =>
      match site with
      | .coroutine co ret =>
          some ({ vm with runningThread := none, yielded := co :: vm.yielded }, ret.pc)
      | _ => none
  | .finish payload =>
      match site with
      | .coroutine co ret => some (sendResponse self vm co ret payload)
      | _ => none
  | .raise payload =>
      match site with
      | .coroutine co ret => some (raiseFrom self vm co ret payload)
      | .hooks _ => some (vm, .raised)
      | .callback => none
  | .resume co =>
      match site.resumes with
      | some ret =>
          if co ∈ vm.yielded then
            some ({ vm with runningThread := some co, yielded := vm.yielded.erase co },
              .user (.coroutine co ret))
          else none
      | none => none
  | .done =>
      match site with
      | .hooks processed =>
          some (vm, .finished (!vm.quit && processed == dispatchBatchSize))
      | .callback => some (vm, .callbackDone)
      | _ => none
  | _ => none

/-- What follows the return of `service._send_message`. -/
def sentStep (vm : Vm) (next : AfterSend) (ok : Bool) : Vm × Pc :=
  match next with
  | .user site => (vm, .user site)
  | .call caller session ret =>
      if ok then
        ({ vm with
            suspendLookup := vm.suspendLookup.insert session caller
            runningThread := none },
          ret.pc)
      else (vm, .user (.coroutine caller ret))
  | .response co ret => (leaveSession vm co, ret.pc)
  | .failure _ ret => (vm, ret.pc)
  | .pending _ rest => (vm, .replyPending rest)

/-- One step of `reply_pending` over the coroutines still to visit. -/
def replyPendingStep (self : ServiceId) (vm : Vm) : List Co -> Vm × Pc
  | [] => (vm, .stopDone)
  | co :: rest =>
      match vm.address.lookup co, vm.response.lookup co with
      | some fromId, some session =>
          if 0 < session then
            (vm, .sending ⟨self, fromId, session, .error, none⟩ (.pending co rest))
          else (vm, .replyPending rest)
      | _, _ => (vm, .replyPending rest)

/-- The Lua code of the service `self`.  `none` means that the choice does not
fit the program counter. -/
def step (self : ServiceId) (vm : Vm) (pc : Pc) (choice : Choice) : Option (Vm × Pc) :=
  match pc, choice with
  | .head processed, .next =>
      if vm.quit = false ∧ processed < dispatchBatchSize then some (vm, .receiving processed)
      else some (vm, .roundEnd processed)
  | .receiving processed, .received (some letter) => some (vm, .got (processed + 1) letter)
  | .receiving processed, .received none => some (vm, .roundEnd processed)
  | .got processed letter, .next => some (dispatchMessage vm processed letter)
  | .removing _ ret, .next => some (vm, ret.pc)
  | .unpackRequest co _ ret, .decoded => some (vm, .user (.coroutine co ret))
  | .unpackRequest co letter ret, .decodeFailed payload =>
      if letter.message.msg.isSome then some (raiseFrom self vm co ret payload) else none
  | .unpackReply co _ ret, .decoded => some (vm, .user (.coroutine co ret))
  | .unpackReply co letter ret, .decodeFailed payload =>
      if letter.message.msg.isSome then some (raiseFrom self vm co ret payload) else none
  | .unpackSystem letter ret, .bootstrap found =>
      if found then
        some ({ newSession vm letter.tag letter.message.fromId 0 with
            booting := letter.tag :: vm.booting },
          .user (.coroutine letter.tag ret))
      else some (vm, ret.pc)
  | .unpackSystem letter _, .decodeFailed _ =>
      if letter.message.msg.isSome then some (vm, .raised) else none
  | .user site, choice => userStep self vm site choice
  | .sending _ next, .sent ok => some (sentStep vm next ok)
  | .quitting next, .stopped => some (vm, next.pc)
  | .roundEnd processed, .next =>
      if vm.quit then some (vm, .finished false) else some (vm, .user (.hooks processed))
  | .replyPending rest, .next => some (replyPendingStep self vm rest)
  | _, _ => none

end Lua
end ServiceRuntime
