import Mathlib.Logic.Function.Basic
import ServiceRuntime.Service.StopReplies

namespace ServiceRuntime
namespace Network

open Lua (Letter Co)
open Service (ThreadPc ThreadChoice)
open Foundation

/-!
# Services that send to each other

A pool of services in which the sends of one are calls on another.  Each
service is the machine of its own thread and callers; a thread that stands in
`service._send_message`, or in the reply of `service_drain_mailbox`, enters
`service_send` of the target, and goes on when that call has returned.  Host
threads send as well.

The machine keeps three kinds of books.  For every `service_send` call: who
waits for its result, which request it answers, and which coroutine made it.
For every service: which request each of its suspended calls has sent.  And
for the payloads: which buffers have been packed and which have been freed.
-/

/-- The thread that is inside a `service_send`. -/
inductive Sender where
  | service (id : Nat)
  | host
  deriving DecidableEq, Repr

/-- A request, named by the service it was sent to and by its delivery. -/
structure RequestId where
  target : Nat
  tag : Nat
  deriving DecidableEq, Repr

/-- What is known about a call on a service: the thread that still waits for
its result, the request it answers if it carries a reply, and the coroutine
that made it if it is the request of a `service.call`. -/
structure Post where
  sender : Option Sender
  origin : Option RequestId
  caller : Option (Nat × Co)
  deriving DecidableEq, Repr

/-- Where a service thread stands with the message it is sending.  `returned`
tells where the message was accepted, if it was. -/
inductive Outgoing where
  | idle
  | entered (request : RequestId)
  | returned (accepted : Option RequestId)
  deriving DecidableEq, Repr

/-- A service with the books on its calls. -/
structure Node where
  service : Service.State
  posts : List Post
  outgoing : Outgoing

/-- A reply has resumed the coroutine `co` of a service, which had been waiting
for the answer to `request`. -/
structure Resumption where
  service : Nat
  reply : Nat
  co : Co
  request : Option RequestId
  deriving DecidableEq, Repr

structure State where
  nodes : List Node
  waiting : Nat -> Session -> Option RequestId
  resumed : List Resumption
  packed : List Payload
  freed : List Payload

inductive Action where
  | register (capacity : Nat) (cells : List Letter)
  | call (id : Nat) (request : Service.Request)
  | advance (id index : Nat) (outcome : Service.Outcome)
  | thread (id : Nat) (choice : ThreadChoice)
  | post (id : Nat)
  | collect (id : Nat)
  | hostSend (message : Message)
  | hostCollect (id index : Nat)
  deriving DecidableEq, Repr

/-! ## What a service thread sends -/

/-- The message a thread is handing to `service_send`. -/
def outbound (self : ServiceId) : ThreadPc -> Option Message
  | .lua (.sending message _) => some message
  | .shutdown _ (.drained letter) =>
      if letter.message.Awaited then some (stopReply self letter.message) else none
  | _ => none

/-- The books on that call. -/
def bookkeeping (self : ServiceId) : ThreadPc -> Post
  | .lua (.sending _ (.call caller _ _)) => ⟨some (.service self), none, some (self, caller)⟩
  | .lua (.sending _ (.response co _)) | .lua (.sending _ (.failure co _))
  | .lua (.sending _ (.pending co _)) => ⟨some (.service self), some ⟨self, co⟩, none⟩
  | .shutdown _ (.drained letter) => ⟨some (.service self), some ⟨self, letter.tag⟩, none⟩
  | _ => ⟨some (.service self), none, none⟩

/-- The choice with which a thread leaves the call. -/
def resultChoice (ok : Bool) : ThreadPc -> ThreadChoice
  | .lua _ => .lua (.sent ok)
  | _ => .next

/-! ## Payloads -/

/-- The buffer packed for the message a thread is about to send. -/
def packing : ThreadPc -> List Payload
  | .lua (.sending message _) => message.msg.toList
  | _ => []

/-- The buffers a step of a service frees: `service.remove` and
`service.unpack_remove` free a message after reading it, also when it cannot be
decoded; the drain and `mailbox_delete` dispose of it. -/
def released (state : Service.State) : Service.Action -> List Payload
  | .thread _ =>
      match state.thread with
      | .lua (.removing letter _) | .lua (.unpackRequest _ letter _)
      | .lua (.unpackReply _ letter _) | .lua (.unpackSystem letter _)
      | .shutdown _ (.drained letter) => letter.message.msg.toList
      | _ => []
  | .advance index _ =>
      match state.calls[index]? with
      | some (.free .dispose) | some (.join _ (.free .dispose)) =>
          ((Service.popInbox state.shared).2.bind fun letter => letter.message.msg).toList
      | _ => []
  | .call _ => []

/-! ## Waiting calls -/

/-- Which request each suspended session waits for, after a step of the thread:
`service.call` registers its session when its send was accepted, and a reply
takes the session out. -/
def noteWaiting (outgoing : Outgoing) (before after : ThreadPc)
    (waiting : Session -> Option RequestId) : Session -> Option RequestId :=
  match before, after, outgoing with
  | .lua (.sending _ (.call _ session _)), _, .returned (some request) =>
      Function.update waiting session (some request)
  | .lua (.got _ letter), .lua (.unpackReply _ _ _), _ =>
      Function.update waiting letter.message.session none
  | _, _, _ => waiting

def noteResumed (self : Nat) (before after : ThreadPc) (waiting : Session -> Option RequestId) :
    List Resumption :=
  match before, after with
  | .lua (.got _ letter), .lua (.unpackReply co _ _) =>
      [⟨self, letter.tag, co, waiting letter.message.session⟩]
  | _, _ => []

/-! ## The machine -/

/-- A call enters a service. -/
def Node.enter (request : Service.Request) (post : Post) (node : Node) : Node :=
  { node with
    service := { node.service with calls := node.service.calls ++ [request.call] }
    posts := node.posts ++ [post] }

/-- The thread inside a call has its result. -/
def Node.settle (index : Nat) (node : Node) : Node :=
  { node with posts := node.posts.modify index fun post => { post with sender := none } }

def Node.leave (outgoing : Outgoing) (node : Node) : Node :=
  { node with outgoing }

/-- `service_new` registers a service. -/
def register (state : State) (capacity : Nat) (cells : List Letter) : Option State :=
  if cells.length = capacity then
    (Mailbox.new capacity (some cells)).map fun box =>
      { state with nodes := state.nodes ++ [⟨.start box, [], .idle⟩] }
  else none

/-- Stop, start, join and free are called by anybody at any time. -/
def call (state : State) (id : Nat) (request : Service.Request) : Option State :=
  match request with
  | .send _ => none
  | request =>
      some { state with nodes := state.nodes.modify id (Node.enter request ⟨none, none, none⟩) }

def advance (state : State) (id index : Nat) (outcome : Service.Outcome) : Option State :=
  (state.nodes[id]?).bind fun node =>
    (Service.step id node.service (.advance index outcome)).map fun next =>
      { state with
        nodes := state.nodes.set id { node with service := next }
        freed := state.freed ++ released node.service (.advance index outcome) }

/-- A thread inside a send waits for its result; otherwise it goes its way. -/
def mayStep (id : Nat) (node : Node) (choice : ThreadChoice) : Bool :=
  match outbound id node.service.thread, node.outgoing with
  | none, _ => true
  | some _, .returned accepted =>
      decide (choice = resultChoice accepted.isSome node.service.thread)
  | some _, _ => false

def thread (state : State) (id : Nat) (choice : ThreadChoice) : Option State :=
  (state.nodes[id]?).bind fun node =>
    if mayStep id node choice then
      (Service.step id node.service (.thread choice)).bind fun next =>
        if forall payload, payload ∈ packing next.thread -> payload ∉ state.packed then
          some
            { nodes := state.nodes.set id { node with service := next, outgoing := .idle }
              waiting := Function.update state.waiting id
                (noteWaiting node.outgoing node.service.thread next.thread (state.waiting id))
              resumed := state.resumed ++
                noteResumed id node.service.thread next.thread (state.waiting id)
              packed := state.packed ++ packing next.thread
              freed := state.freed ++ released node.service (.thread choice) }
        else none
    else none

/-- A thread enters `service_send`.  Without a target the result is
`SERVICE_NOT_FOUND`, and the message is disposed of. -/
def post (state : State) (id : Nat) : Option State :=
  (state.nodes[id]?).bind fun node =>
    match outbound id node.service.thread, node.outgoing with
    | some message, .idle =>
        match state.nodes[message.toId]? with
        | some target =>
            some { state with
              nodes := (state.nodes.modify message.toId
                (Node.enter (.send message) (bookkeeping id node.service.thread))).modify id
                  (Node.leave (.entered ⟨message.toId, target.service.calls.length⟩)) }
        | none =>
            some { state with
              nodes := state.nodes.modify id (Node.leave (.returned none))
              freed := state.freed ++ message.msg.toList }
    | _, _ => none

/-- The result of a `service_send` that has returned, with its message. -/
def resultOf (state : State) (request : RequestId) : Option (Message × Service.SendResult) :=
  match (state.nodes[request.target]?).bind fun node => node.service.calls[request.tag]? with
  | some (.send message (.returned result)) => some (message, result)
  | _ => none

/-- `lservice_send_message` after `service_send`: what was not accepted is
disposed of. -/
def disposal (message : Message) (result : Service.SendResult) : List Payload :=
  if result = .ok then [] else message.msg.toList

def collect (state : State) (id : Nat) : Option State :=
  (state.nodes[id]?).bind fun node =>
    match node.outgoing with
    | .entered request =>
        (resultOf state request).map fun (message, result) =>
          { state with
            nodes := (state.nodes.modify request.target (Node.settle request.tag)).modify id
              (Node.leave (.returned (if result = .ok then some request else none)))
            freed := state.freed ++ disposal message result }
    | _ => none

/-- A host thread packs a message and sends it. -/
def hostSend (state : State) (message : Message) : Option State :=
  if forall payload, payload ∈ message.msg.toList -> payload ∉ state.packed then
    if message.toId < state.nodes.length then
      some { state with
        nodes := state.nodes.modify message.toId
          (Node.enter (.send message) ⟨some .host, none, none⟩)
        packed := state.packed ++ message.msg.toList }
    else
      some { state with
        packed := state.packed ++ message.msg.toList
        freed := state.freed ++ message.msg.toList }
  else none

def hostCollect (state : State) (id index : Nat) : Option State :=
  (state.nodes[id]?).bind fun node =>
    (node.posts[index]?).bind fun post =>
      if post.sender = some .host then
        (resultOf state ⟨id, index⟩).map fun (message, result) =>
          { state with
            nodes := state.nodes.modify id (Node.settle index)
            freed := state.freed ++ disposal message result }
      else none

def step (state : State) : Action -> Option State
  | .register capacity cells => register state capacity cells
  | .call id request => call state id request
  | .advance id index outcome => advance state id index outcome
  | .thread id choice => thread state id choice
  | .post id => post state id
  | .collect id => collect state id
  | .hostSend message => hostSend state message
  | .hostCollect id index => hostCollect state id index

def State.empty : State where
  nodes := []
  waiting := fun _ _ => none
  resumed := []
  packed := []
  freed := []

def machine : Machine State Action where
  initial := fun state => state = .empty
  step := step

end Network
end ServiceRuntime
