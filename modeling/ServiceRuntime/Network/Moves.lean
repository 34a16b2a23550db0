import ServiceRuntime.Network.System

namespace ServiceRuntime
namespace Network

open Lua (Letter Co)
open Service (ThreadPc ThreadChoice)
open Foundation

/-!
# Everything a pool of services can do

The steps of the pool, one constructor each.  Every step changes at most two
services: the one that moves, and the one it sends to.
-/

inductive Move (state : State) : Action -> State -> Prop where
  | register {capacity : Nat} {cells : List Letter} {box : Mailbox Letter}
      (fresh : Service.Fresh (.start box)) :
      Move state (.register capacity cells)
        { state with nodes := state.nodes ++ [⟨.start box, [], .idle⟩] }
  | call {id : Nat} {request : Service.Request} (silent : forall message, request ≠ .send message) :
      Move state (.call id request)
        { state with nodes := state.nodes.modify id (Node.enter request ⟨none, none, none⟩) }
  | advance {id index : Nat} {outcome : Service.Outcome} {node : Node} {next : Service.State}
      (present : state.nodes[id]? = some node)
      (moved : Service.step id node.service (.advance index outcome) = some next) :
      Move state (.advance id index outcome)
        { state with
          nodes := state.nodes.set id { node with service := next }
          freed := state.freed ++ released node.service (.advance index outcome) }
  | thread {id : Nat} {choice : ThreadChoice} {node : Node} {next : Service.State}
      (present : state.nodes[id]? = some node) (may : mayStep id node choice = true)
      (moved : Service.step id node.service (.thread choice) = some next)
      (fresh : forall payload, payload ∈ packing next.thread -> payload ∉ state.packed) :
      Move state (.thread id choice)
        { nodes := state.nodes.set id { node with service := next, outgoing := .idle }
          waiting := Function.update state.waiting id
            (noteWaiting node.outgoing node.service.thread next.thread (state.waiting id))
          resumed := state.resumed ++
            noteResumed id node.service.thread next.thread (state.waiting id)
          packed := state.packed ++ packing next.thread
          freed := state.freed ++ released node.service (.thread choice) }
  | post {id : Nat} {message : Message} {node target : Node} (present : state.nodes[id]? = some node)
      (sends : outbound id node.service.thread = some message) (idle : node.outgoing = .idle)
      (found : state.nodes[message.toId]? = some target) :
      Move state (.post id)
        { state with
          nodes := (state.nodes.modify message.toId
            (Node.enter (.send message) (bookkeeping id node.service.thread))).modify id
              (Node.leave (.entered ⟨message.toId, target.service.calls.length⟩)) }
  | misdirect {id : Nat} {message : Message} {node : Node} (present : state.nodes[id]? = some node)
      (sends : outbound id node.service.thread = some message) (idle : node.outgoing = .idle) :
      Move state (.post id)
        { state with
          nodes := state.nodes.modify id (Node.leave (.returned none))
          freed := state.freed ++ message.msg.toList }
  | collect {id : Nat} {request : RequestId} {message : Message} {result : Service.SendResult}
      {node target : Node} (present : state.nodes[id]? = some node)
      (entered : node.outgoing = .entered request)
      (found : state.nodes[request.target]? = some target)
      (returned : target.service.calls[request.tag]? = some (.send message (.returned result))) :
      Move state (.collect id)
        { state with
          nodes := (state.nodes.modify request.target (Node.settle request.tag)).modify id
            (Node.leave (.returned (if result = .ok then some request else none)))
          freed := state.freed ++ disposal message result }
  | hostSend {message : Message} {target : Node}
      (fresh : forall payload, payload ∈ message.msg.toList -> payload ∉ state.packed)
      (found : state.nodes[message.toId]? = some target) :
      Move state (.hostSend message)
        { state with
          nodes := state.nodes.modify message.toId
            (Node.enter (.send message) ⟨some .host, none, none⟩)
          packed := state.packed ++ message.msg.toList }
  | hostMisdirect {message : Message}
      (fresh : forall payload, payload ∈ message.msg.toList -> payload ∉ state.packed) :
      Move state (.hostSend message)
        { state with
          packed := state.packed ++ message.msg.toList
          freed := state.freed ++ message.msg.toList }
  | hostCollect {id index : Nat} {message : Message} {result : Service.SendResult} {node : Node}
      {post : Post} (present : state.nodes[id]? = some node)
      (found : node.posts[index]? = some post) (host : post.sender = some .host)
      (returned : node.service.calls[index]? = some (.send message (.returned result))) :
      Move state (.hostCollect id index)
        { state with
          nodes := state.nodes.modify id (Node.settle index)
          freed := state.freed ++ disposal message result }

theorem resultOf_eq_some {state : State} {request : RequestId} {message : Message}
    {result : Service.SendResult} (found : resultOf state request = some (message, result)) :
    Exists fun target => state.nodes[request.target]? = some target ∧
      target.service.calls[request.tag]? = some (.send message (.returned result)) := by
  unfold resultOf at found
  split at found
  · rename_i located
    cases found
    exact Option.bind_eq_some_iff.mp located
  · cases found

theorem post_move {state next : State} {id : Nat} (moved : post state id = some next) :
    Move state (.post id) next := by
  rcases Option.bind_eq_some_iff.mp moved with ⟨node, present, inner⟩
  split at inner
  · rename_i message sends idle
    split at inner
    · rename_i target found
      cases inner
      exact .post present sends idle found
    · cases inner
      exact .misdirect present sends idle
  · cases inner

theorem collect_move {state next : State} {id : Nat} (moved : collect state id = some next) :
    Move state (.collect id) next := by
  rcases Option.bind_eq_some_iff.mp moved with ⟨node, present, inner⟩
  split at inner
  · rename_i request entered
    rcases Option.map_eq_some_iff.mp inner with ⟨⟨message, result⟩, found, rfl⟩
    rcases resultOf_eq_some found with ⟨target, located, returned⟩
    exact .collect present entered located returned
  · cases inner

theorem hostSend_move {state next : State} {message : Message}
    (moved : hostSend state message = some next) : Move state (.hostSend message) next := by
  unfold hostSend at moved
  split at moved
  · rename_i fresh
    split at moved
    · rename_i below
      cases moved
      exact .hostSend fresh (List.getElem?_eq_getElem below)
    · cases moved
      exact .hostMisdirect fresh
  · cases moved

theorem hostCollect_move {state next : State} {id index : Nat}
    (moved : hostCollect state id index = some next) :
    Move state (.hostCollect id index) next := by
  rcases Option.bind_eq_some_iff.mp moved with ⟨node, present, inner⟩
  rcases Option.bind_eq_some_iff.mp inner with ⟨post, found, innermost⟩
  split at innermost
  · rename_i host
    rcases Option.map_eq_some_iff.mp innermost with ⟨⟨message, result⟩, located, rfl⟩
    rcases resultOf_eq_some located with ⟨target, same, returned⟩
    cases present.symm.trans same
    exact .hostCollect present found host returned
  · cases innermost

theorem thread_move {state next : State} {id : Nat} {choice : ThreadChoice}
    (moved : thread state id choice = some next) : Move state (.thread id choice) next := by
  rcases Option.bind_eq_some_iff.mp moved with ⟨node, present, inner⟩
  split at inner
  · rename_i may
    rcases Option.bind_eq_some_iff.mp inner with ⟨later, serviceMoved, innermost⟩
    split at innermost
    · rename_i fresh
      cases innermost
      exact .thread present may serviceMoved fresh
    · cases innermost
  · cases inner

theorem step_move {state next : State} {action : Action} (moved : step state action = some next) :
    Move state action next := by
  cases action with
  | register capacity cells =>
      have moved : register state capacity cells = some next := moved
      unfold register at moved
      split at moved
      · rename_i sized
        rcases Option.map_eq_some_iff.mp moved with ⟨box, created, rfl⟩
        exact .register ⟨capacity, cells, box, sized, created, rfl⟩
      · cases moved
  | call id request =>
      have moved : call state id request = some next := moved
      unfold call at moved
      split at moved
      · cases moved
      · rename_i silent
        cases moved
        exact .call silent
  | advance id index outcome =>
      rcases Option.bind_eq_some_iff.mp moved with ⟨node, present, inner⟩
      rcases Option.map_eq_some_iff.mp inner with ⟨later, serviceMoved, rfl⟩
      exact .advance present serviceMoved
  | thread id choice => exact thread_move moved
  | post id => exact post_move moved
  | collect id => exact collect_move moved
  | hostSend message => exact hostSend_move moved
  | hostCollect id index => exact hostCollect_move moved

end Network
end ServiceRuntime
