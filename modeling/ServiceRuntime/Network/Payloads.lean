import ServiceRuntime.Network.Wiring
import ServiceRuntime.Service.Letters

namespace ServiceRuntime
namespace Network

open Lua (Letter Co)
open Service (ThreadPc ThreadChoice SendPc Call)
open Foundation

/-!
# Who owns a payload

A packed buffer belongs to the thread that sends it until the mailbox of the
target has accepted it; then to its slot in the mailbox; then to whoever has
popped it; and in the end it is freed.  A send that is not accepted leaves it
with the sender, who disposes of it.  The books add up: all owners of a buffer
together, with its frees, are as many as its packings, and a buffer is packed
once.
-/

/-! ## The owners -/

/-- How often a message carries this buffer. -/
def carries (payload : Payload) (message : Message) : Nat :=
  message.msg.toList.count payload

def letterCarries (payload : Payload) (letter : Letter) : Nat :=
  carries payload letter.message

/-- A call that its sender still waits for holds the message unless the mailbox
has taken it. -/
def entryCarries (payload : Payload) : Call × Post -> Nat
  | (.send message pc, post) =>
      if post.sender.isSome ∧ pc.Accepted = false then carries payload message else 0
  | _ => 0

/-- The thread of a service holds what it has packed until it enters
`service_send`. -/
def unsent (payload : Payload) (thread : ThreadPc) : Outgoing -> Nat
  | .idle => (packing thread).count payload
  | .entered _ | .returned _ => 0

/-- In the hands of senders: of the thread of this service before it enters
`service_send`, and of those inside a `service_send` to it. -/
def Node.sending (payload : Payload) (node : Node) : Nat :=
  unsent payload node.service.thread node.outgoing +
    weight (entryCarries payload) (node.service.calls.zip node.posts)

/-- In the slots of the mailbox. -/
def Node.slots (payload : Payload) (node : Node) : Nat :=
  weight (letterCarries payload) node.service.shared.box.contents

/-- In the hands of the receiver: the thread of the service has popped the
message and not yet freed it. -/
def Node.receiving (payload : Payload) (node : Node) : Nat :=
  node.service.thread.inHand.elim 0 (letterCarries payload)

def Node.owns (payload : Payload) (node : Node) : Nat :=
  node.sending payload + node.slots payload + node.receiving payload

structure Ownership (state : State) : Prop where
  once : state.packed.Nodup
  balanced : forall payload, weight (Node.owns payload) state.nodes + state.freed.count payload =
    state.packed.count payload

/-! ## Steps of one service -/

theorem released_thread (service : Service.State) (choice : ThreadChoice) (payload : Payload) :
    (released service (.thread choice)).count payload =
      if service.thread.disposes then service.thread.inHand.elim 0 (letterCarries payload) else 0 := by
  cases pc : service.thread with
  | lua inner =>
      simp only [released, pc]
      cases inner <;> rfl
  | shutdown caller inner =>
      simp only [released, pc]
      cases inner <;> rfl
  | _ =>
      simp only [released, pc]
      rfl

theorem released_advance {service : Service.State} {index : Nat} {call : Call}
    (present : service.calls[index]? = some call) (outcome : Service.Outcome) (payload : Payload) :
    (released service (.advance index outcome)).count payload =
      if call.disposes then
        (Service.popInbox service.shared).2.elim 0 (letterCarries payload)
      else 0 := by
  have popped : ((Service.popInbox service.shared).2.bind fun letter =>
      letter.message.msg).toList.count payload =
        (Service.popInbox service.shared).2.elim 0 (letterCarries payload) := by
    cases (Service.popInbox service.shared).2 <;> rfl
  simp only [released, present]
  cases call with
  | free pc =>
      cases pc with
      | dispose => exact popped
      | retire | wait | lock | delete | returned => rfl
  | join fromThread pc =>
      cases pc with
      | free pc =>
          cases pc with
          | dispose => exact popped
          | retire | wait | lock | delete | returned => rfl
      | enter | waiting | pthreadJoin | publish | finish | returned => rfl
  | send | stop | start => rfl

/-- What a call holds only depends on its message and on whether it was
accepted. -/
theorem entryCarries_congr {call after : Call} (message : after.message = call.message)
    (accepted : after.accepted = call.accepted) (post : Post) (payload : Payload) :
    entryCarries payload (after, post) = entryCarries payload (call, post) := by
  cases call with
  | send text pc =>
      cases after with
      | send other later =>
          cases message
          have same : later.Accepted = pc.Accepted := by
            simp only [Call.accepted] at accepted
            cases first : later.Accepted <;> cases second : pc.Accepted <;>
              simp_all only [Bool.toNat_true, Bool.toNat_false, Nat.one_ne_zero, Nat.zero_ne_one]
          simp only [entryCarries, same]
      | stop | start | join | free => cases message
  | stop | start | join | free =>
      cases after with
      | send => cases message
      | stop | start | join | free => rfl

theorem returned_rests {shared next : Service.Shared} {index : Nat} {message : Message}
    {result : Service.SendResult} {after : Call} :
    ¬ Service.CallMove shared index (.send message (.returned result)) next after := by
  intro moved
  cases moved with
  | send sendMoved =>
      cases sendMoved with
      | stored entering | shut entering | full entering =>
          rcases entering with impossible | ⟨capacity, grown, impossible⟩ <;> cases impossible

theorem advance_owns {id index : Nat} {outcome : Service.Outcome} {node : Node}
    {next : Service.State} (reachable : (Service.machine id).Reachable node.service)
    (parallel : node.posts.length = node.service.calls.length) (settled : node.Settled)
    (moved : Service.step id node.service (.advance index outcome) = some next) (payload : Payload) :
    Node.owns payload { node with service := next } +
        (released node.service (.advance index outcome)).count payload =
      node.owns payload := by
  have valid := (Service.reachable_inbox reachable).valid
  rcases Service.reachable_advance reachable moved with
    ⟨call, shared, after, present, callMoved, rfl⟩
  have below : index < node.posts.length := parallel ▸ length_of_getElem? present
  have booked := List.getElem?_eq_getElem below
  generalize node.posts[index] = post at booked
  have entry : (node.service.calls.zip node.posts)[index]? = some (call, post) :=
    List.getElem?_zip_eq_some.mpr ⟨present, booked⟩
  have exchange := weight_set (entryCarries payload) entry (after, post)
  rw [← zip_set_left booked] at exchange
  rw [released_advance present]
  simp only [Node.owns, Node.sending, Node.slots, Node.receiving]
  cases callMoved.flow valid with
  | rests same accepted message nothing =>
      rw [entryCarries_congr message accepted] at exchange
      have none : (if call.disposes then
          (Service.popInbox node.service.shared).2.elim 0 (letterCarries payload) else 0) = 0 := by
        split
        · rename_i disposes
          rw [nothing disposes]
          rfl
        · rfl
      rw [none, same.contents]
      omega
  | stored before stands kept given contents popped drained disposed =>
      subst before stands
      have sent : post.sender.isSome = true := by
        by_contra unsent
        rcases settled index _ _ post present booked (Option.not_isSome_iff_eq_none.mp unsent) with
          ⟨result, rfl⟩
        exact returned_rests callMoved
      simp only [entryCarries, sent, kept, given, and_self, if_true, Bool.true_eq_false, and_false,
        if_false] at exchange
      rw [contents, weight_append, weight_cons, weight_nil]
      simp only [Call.disposes, Bool.false_eq_true, if_false, letterCarries]
      omega
  | disposed disposes still found contents popped drained disposed =>
      subst still
      rw [if_pos disposes, found, contents, weight_cons]
      simp only [Option.elim]
      omega

theorem packing_of_outbound {id : Nat} {thread : ThreadPc} {message : Message}
    (sends : outbound id thread = some message) (payload : Payload) :
    (packing thread).count payload = carries payload message := by
  cases thread with
  | lua pc =>
      cases pc with
      | sending text next =>
          cases sends
          rfl
      | _ => cases sends
  | shutdown caller pc =>
      cases pc with
      | drained letter =>
          simp only [outbound] at sends
          split at sends
          · cases sends
            rfl
          · cases sends
      | _ => cases sends
  | _ => cases sends

theorem packing_of_silent {id : Nat} {thread : ThreadPc} (silent : outbound id thread = none) :
    packing thread = [] := by
  cases thread with
  | lua pc =>
      cases pc with
      | sending text next => cases silent
      | _ => rfl
  | _ => rfl

/-- A thread that may go on holds nothing that is still to be sent. -/
theorem unsent_of_mayStep {id : Nat} {node : Node} {choice : ThreadChoice}
    (may : mayStep id node choice = true) (payload : Payload) :
    unsent payload node.service.thread node.outgoing = 0 := by
  unfold mayStep at may
  split at may
  · rename_i silent
    cases node.outgoing with
    | idle =>
        simp only [unsent, packing_of_silent silent]
        rfl
    | entered | returned => rfl
  · rename_i returned
    rw [returned]
    rfl
  · cases may

theorem thread_owns {id : Nat} {choice : ThreadChoice} {node : Node} {next : Service.State}
    (reachable : (Service.machine id).Reachable node.service) (may : mayStep id node choice = true)
    (moved : Service.step id node.service (.thread choice) = some next) (payload : Payload) :
    Node.owns payload { node with service := next, outgoing := .idle } +
        (released node.service (.thread choice)).count payload =
      node.owns payload + (packing next.thread).count payload := by
  have valid := (Service.reachable_inbox reachable).valid
  have threadMoved := Service.threadStep_move moved
  have sent := unsent_of_mayStep may payload
  have calls := threadMoved.calls
  rw [released_thread]
  have packed : unsent payload next.thread .idle = (packing next.thread).count payload := rfl
  simp only [Node.owns, Node.sending, Node.slots, Node.receiving, sent, packed, calls]
  cases threadMoved.flow valid with
  | rests same hand =>
      rw [same.contents]
      rcases hand with ⟨keeps, equal⟩ | ⟨disposes, gone⟩
      · rw [keeps, equal]
        simp only [Bool.false_eq_true, if_false]
        omega
      · rw [disposes, gone]
        simp only [if_true, Option.elim]
        omega
  | popped empty idle takes contents popped drained disposed
  | drained empty idle takes contents popped drained disposed =>
      rw [empty, idle, takes, contents, weight_cons]
      simp only [Bool.false_eq_true, if_false, Option.elim]
      omega

/-! ## Sends -/

theorem enter_owns {node : Node} (parallel : node.posts.length = node.service.calls.length)
    (request : Service.Request) (book : Post) (payload : Payload) :
    (node.enter request book).owns payload =
      node.owns payload + entryCarries payload (request.call, book) := by
  simp only [Node.owns, Node.sending, Node.slots, Node.receiving, Node.enter]
  rw [List.zip_append parallel.symm, weight_append]
  simp only [List.zip_cons_cons, List.zip_nil_right, weight_cons, weight_nil]
  omega

theorem settle_owns {node : Node} {index : Nat} {message : Message} {result : Service.SendResult}
    {post : Post} (returned : node.service.calls[index]? = some (.send message (.returned result)))
    (booked : node.posts[index]? = some post) (waits : post.sender.isSome = true)
    (payload : Payload) :
    (node.settle index).owns payload + (disposal message result).count payload =
      node.owns payload := by
  have entry : (node.service.calls.zip node.posts)[index]? =
      some (.send message (.returned result), post) :=
    List.getElem?_zip_eq_some.mpr ⟨returned, booked⟩
  have exchange := weight_modify (entryCarries payload) entry
    fun entry => (entry.1, { entry.2 with sender := none })
  have modified := zip_modify_right node.service.calls node.posts index
    fun post => { post with sender := none }
  rw [← modified] at exchange
  simp only [Node.owns, Node.sending, Node.slots, Node.receiving, Node.settle]
  have gone : entryCarries payload
      (.send message (.returned result), { post with sender := none }) = 0 := by
    simp only [entryCarries, Option.isSome_none, Bool.false_eq_true, false_and, if_false]
  have held : entryCarries payload (.send message (.returned result), post) =
      (disposal message result).count payload := by
    simp only [entryCarries, waits, disposal]
    cases result <;> rfl
  simp only [gone, held] at exchange
  omega

theorem leave_owns (node : Node) {outgoing : Outgoing} (busy : outgoing ≠ .idle) (payload : Payload) :
    (node.leave outgoing).owns payload + unsent payload node.service.thread node.outgoing =
      node.owns payload := by
  have sent : unsent payload node.service.thread outgoing = 0 := by
    cases outgoing with
    | idle => exact False.elim (busy rfl)
    | entered | returned => rfl
  simp only [Node.owns, Node.sending, Node.slots, Node.receiving, Node.leave, sent]
  omega

/-! ## The invariant -/

theorem nodup_append_fresh {packed new : List Payload} (once : packed.Nodup) (single : new.Nodup)
    (fresh : forall payload, payload ∈ new -> payload ∉ packed) : (packed ++ new).Nodup := by
  apply List.Nodup.append once single
  intro payload old added
  exact fresh payload added old

theorem toList_nodup (payload : Option Payload) : payload.toList.Nodup := by
  cases payload with
  | none => exact List.nodup_nil
  | some payload => exact List.nodup_singleton payload

theorem packing_nodup (thread : ThreadPc) : (packing thread).Nodup := by
  unfold packing
  split
  · exact toList_nodup _
  · exact List.nodup_nil

theorem start_owns {box : Mailbox Letter} (fresh : Service.Fresh (.start box)) (payload : Payload) :
    Node.owns payload ⟨.start box, [], .idle⟩ = 0 := by
  rcases fresh with ⟨capacity, cells, other, _sized, created, equal⟩
  have same : box = other := congrArg (fun state => state.shared.box) equal
  subst same
  have empty := (Mailbox.new_contents created).1
  simp only [Node.owns, Node.sending, Node.slots, Node.receiving, Service.State.start,
    Service.Shared.new, empty]
  rfl

/-- What the thread of a node shows: where it stands, also with its send. -/
def Node.front (node : Node) : ThreadPc × Outgoing :=
  (node.service.thread, node.outgoing)

/-- Entering `service_send` takes the message out of the hands of the thread
into the call. -/
theorem post_weight {nodes : List Node} (wiring : Wiring nodes) {id : Nat} {node target : Node}
    {message : Message} (present : nodes[id]? = some node)
    (sends : outbound id node.service.thread = some message) (idle : node.outgoing = .idle)
    (found : nodes[message.toId]? = some target) (payload : Payload) :
    weight (Node.owns payload) ((nodes.modify message.toId
      (Node.enter (.send message) (bookkeeping id node.service.thread))).modify id
        (Node.leave (.entered ⟨message.toId, target.service.calls.length⟩))) =
      weight (Node.owns payload) nodes := by
  have entering := weight_modify (Node.owns payload) found
    (Node.enter (.send message) (bookkeeping id node.service.thread))
  rw [enter_owns (wiring.parallel _ target found)] at entering
  have waits : (bookkeeping id node.service.thread).sender.isSome = true := by
    rw [bookkeeping_sender]
    rfl
  have held : entryCarries payload ((Service.Request.send message).call,
      bookkeeping id node.service.thread) = carries payload message := if_pos ⟨waits, rfl⟩
  have view (member : Node) :
      (Node.enter (.send message) (bookkeeping id node.service.thread) member).front =
        member.front := rfl
  rcases getElem?_modify_view view present message.toId with ⟨sender, own, same⟩
  rcases Prod.mk.inj same with ⟨thread, outgoing⟩
  have leaving := weight_modify (Node.owns payload) own
    (Node.leave (.entered ⟨message.toId, target.service.calls.length⟩))
  have busy : Outgoing.entered ⟨message.toId, target.service.calls.length⟩ ≠ .idle :=
    Outgoing.noConfusion
  have left := leave_owns sender busy payload
  rw [thread, outgoing, idle, unsent, packing_of_outbound sends] at left
  omega

/-- What was not accepted is disposed of by its sender. -/
theorem collect_weight {nodes : List Node} (wiring : Wiring nodes) {id : Nat} {node target : Node}
    {request : RequestId} {message : Message} {result : Service.SendResult}
    (present : nodes[id]? = some node) (entered : node.outgoing = .entered request)
    (found : nodes[request.target]? = some target)
    (returned : target.service.calls[request.tag]? = some (.send message (.returned result)))
    (payload : Payload) :
    weight (Node.owns payload) ((nodes.modify request.target (Node.settle request.tag)).modify id
      (Node.leave (.returned (if result = .ok then some request else none)))) +
        (disposal message result).count payload =
      weight (Node.owns payload) nodes := by
  have booked := (wiring.entered present entered found returned).2.2
  have waits : (bookkeeping id node.service.thread).sender.isSome = true := by
    rw [bookkeeping_sender]
    rfl
  have settling := weight_modify (Node.owns payload) found (Node.settle request.tag)
  have settled := settle_owns returned booked waits payload
  have view (member : Node) : (Node.settle request.tag member).front = member.front := rfl
  rcases getElem?_modify_view view present request.target with ⟨sender, own, same⟩
  have outgoing := (Prod.mk.inj same).2
  generalize outcome : Outgoing.returned (if result = .ok then some request else none) = after
  have busy : after ≠ .idle := by
    rw [← outcome]
    exact Outgoing.noConfusion
  have leaving := weight_modify (Node.owns payload) own (Node.leave after)
  have left := leave_owns sender busy payload
  rw [outgoing, entered, unsent] at left
  omega

theorem move_ownership {state next : State} {action : Action} (wiring : Wiring state.nodes)
    (ownership : Ownership state) (moved : Move state action next) : Ownership next := by
  have balanced := ownership.balanced
  cases moved with
  | register fresh =>
      refine ⟨ownership.once, fun payload => ?_⟩
      have before := balanced payload
      have start := start_owns fresh payload
      simp only [weight_append, weight_cons, weight_nil, start]
      exact before
  | call silent =>
      rename_i id request
      refine ⟨ownership.once, fun payload => ?_⟩
      have before := balanced payload
      cases present : state.nodes[id]? with
      | none =>
          rw [List.modify_eq_set_getElem?, present]
          exact before
      | some node =>
          have exchange := weight_modify (Node.owns payload) present
            (Node.enter request ⟨none, none, none⟩)
          have change := enter_owns (wiring.parallel id node present) request ⟨none, none, none⟩ payload
          have nothing : entryCarries payload (request.call, ⟨none, none, none⟩) = 0 := by
            cases request with
            | send message => exact False.elim (silent message rfl)
            | stop | start | join | free => rfl
          show weight (Node.owns payload) (state.nodes.modify id _) + state.freed.count payload =
            state.packed.count payload
          omega
  | advance present moved =>
      rename_i id index outcome node later
      refine ⟨ownership.once, fun payload => ?_⟩
      have exchange := weight_set (Node.owns payload) present { node with service := later }
      have change := advance_owns (wiring.reachable id node present) (wiring.parallel id node present)
        (wiring.settled id node present) moved payload
      have before := balanced payload
      simp only [List.count_append]
      omega
  | thread present may moved fresh =>
      rename_i id choice node later
      refine ⟨nodup_append_fresh ownership.once (packing_nodup _) fresh, fun payload => ?_⟩
      have exchange := weight_set (Node.owns payload) present
        { node with service := later, outgoing := .idle }
      have change := thread_owns (wiring.reachable id node present) may moved payload
      have before := balanced payload
      simp only [List.count_append]
      omega
  | post present sends idle found =>
      refine ⟨ownership.once, fun payload => ?_⟩
      rw [post_weight wiring present sends idle found]
      exact balanced payload
  | misdirect present sends idle =>
      rename_i id message node
      refine ⟨ownership.once, fun payload => ?_⟩
      have exchange := weight_modify (Node.owns payload) present (Node.leave (.returned none))
      have busy : Outgoing.returned none ≠ .idle := Outgoing.noConfusion
      have change := leave_owns node busy payload
      have before := balanced payload
      rw [idle, unsent, packing_of_outbound sends] at change
      simp only [List.count_append]
      have equal : message.msg.toList.count payload = carries payload message := rfl
      omega
  | collect present entered found returned =>
      refine ⟨ownership.once, fun payload => ?_⟩
      have before := balanced payload
      have change := collect_weight wiring present entered found returned payload
      simp only [List.count_append]
      omega
  | hostSend fresh found =>
      rename_i message target
      refine ⟨nodup_append_fresh ownership.once (toList_nodup _) fresh, fun payload => ?_⟩
      have entering := weight_modify (Node.owns payload) found
        (Node.enter (.send message) ⟨some .host, none, none⟩)
      have entered := enter_owns (wiring.parallel _ target found) (.send message)
        ⟨some .host, none, none⟩ payload
      have held : entryCarries payload ((Service.Request.send message).call,
          ⟨some .host, none, none⟩) = message.msg.toList.count payload := rfl
      have before := balanced payload
      show weight (Node.owns payload) (state.nodes.modify message.toId _) +
        state.freed.count payload = (state.packed ++ message.msg.toList).count payload
      rw [List.count_append]
      omega
  | hostMisdirect fresh =>
      refine ⟨nodup_append_fresh ownership.once (toList_nodup _) fresh, fun payload => ?_⟩
      have before := balanced payload
      simp only [List.count_append]
      omega
  | hostCollect present found host returned =>
      rename_i id index message result node post
      refine ⟨ownership.once, fun payload => ?_⟩
      have waits : post.sender.isSome = true := by
        rw [host]
        rfl
      have settling := weight_modify (Node.owns payload) present (Node.settle index)
      have settled := settle_owns returned found waits payload
      have before := balanced payload
      show weight (Node.owns payload) (state.nodes.modify id _) +
        (state.freed ++ disposal message result).count payload = state.packed.count payload
      rw [List.count_append]
      omega

theorem reachable_ownership {state : State} (reachable : machine.Reachable state) :
    Ownership state := by
  apply reachable.induction
  · rintro start rfl
    exact ⟨List.nodup_nil, fun _ => rfl⟩
  · intro state action next reachable ownership moved
    exact move_ownership (reachable_wiring reachable) ownership (step_move moved)

/-! ## The whole pool -/

/-- Every service is FREED and no send is in progress. -/
def AtRest (state : State) : Prop :=
  forall node, node ∈ state.nodes -> node.service.shared.state = .freed ∧
    forall post, post ∈ node.posts -> post.sender = none

instance (state : State) : Decidable (AtRest state) :=
  inferInstanceAs (Decidable (forall node, node ∈ state.nodes -> _))

/-- The buffer is still in the mailbox of a FREED service, which the call that
freed the service is emptying in `mailbox_delete`. -/
def Node.Deleting (payload : Payload) (node : Node) : Prop :=
  0 < node.slots payload ∧ Exists fun call => call ∈ node.service.calls ∧ call.deletes = true

theorem AtRest.owns {state : State} (rest : AtRest state) (wiring : Wiring state.nodes)
    {payload : Payload} (deleted : forall node, node ∈ state.nodes -> ¬ node.Deleting payload) :
    weight (Node.owns payload) state.nodes = 0 := by
  apply weight_eq_zero
  intro id node present
  have member := List.mem_of_getElem? present
  have reachable := wiring.reachable id node present
  rcases rest node member with ⟨freed, sends⟩
  have late : 4 ≤ node.service.shared.state.rank := by
    rw [freed]
    decide
  have quiet : packing node.service.thread = [] ∧ node.service.thread.inHand = none := by
    rcases (Service.reachable_lifecycle reachable).over_of_late late with past | past <;> rw [past] <;>
      exact ⟨rfl, rfl⟩
  have unsent : unsent payload node.service.thread node.outgoing = 0 := by
    cases node.outgoing with
    | idle =>
        rw [Network.unsent, quiet.1]
        rfl
    | entered | returned => rfl
  have entries : weight (entryCarries payload) (node.service.calls.zip node.posts) = 0 := by
    apply weight_eq_zero
    rintro tag ⟨call, post⟩ entry
    have sender := sends post (List.mem_of_getElem? (List.getElem?_zip_eq_some.mp entry).2)
    cases call with
    | send message pc =>
        simp only [entryCarries, sender, Option.isSome_none, Bool.false_eq_true, false_and, if_false]
    | stop | start | join | free => rfl
  have empty : node.slots payload = 0 := by
    rcases (Service.reachable_emptied reachable).freed freed with empty | ⟨index, call, found, deletes⟩
    · simp only [Node.slots, empty.2, weight_nil]
    · by_contra held
      exact deleted node member
        ⟨Nat.pos_of_ne_zero held, call, List.mem_of_getElem? found, deletes⟩
  simp only [Node.owns, Node.sending, Node.receiving, unsent, entries, empty, quiet.2]
  rfl

/-- Every packed buffer has exactly one owner: a sender, a slot of a mailbox, a
receiver, or nobody any more because it has been freed.  No buffer is freed
twice, and what somebody owns has not been freed.  A letter is in one place of
its target exactly when its send returned OK.  When the pool has come to rest,
every buffer has been freed, or is about to be by a `mailbox_delete` that has
not returned. -/
theorem payload_ownership {state : State} (reachable : machine.Reachable state) :
    (forall payload, payload ∈ state.packed ->
      weight (Node.owns payload) state.nodes + state.freed.count payload = 1) ∧
    state.freed.Nodup ∧
    (forall (id : Nat) node payload, state.nodes[id]? = some node -> 0 < node.owns payload ->
      payload ∈ state.packed ∧ payload ∉ state.freed) ∧
    (forall (id : Nat) node (tag : Nat) message result, state.nodes[id]? = some node ->
      node.service.calls[tag]? = some (.send message (.returned result)) ->
      node.service.shared.places tag = if result = .ok then 1 else 0) ∧
    (AtRest state -> forall payload, payload ∈ state.packed ->
      payload ∈ state.freed ∨ Exists fun node => node ∈ state.nodes ∧ node.Deleting payload) := by
  have wiring := reachable_wiring reachable
  have ownership := reachable_ownership reachable
  have single (payload : Payload) (packed : payload ∈ state.packed) :
      weight (Node.owns payload) state.nodes + state.freed.count payload = 1 :=
    (ownership.balanced payload).trans (List.count_eq_one_of_mem ownership.once packed)
  refine ⟨single, ?_, ?_, ?_, ?_⟩
  · apply List.nodup_iff_count_le_one.mpr
    intro payload
    have balanced := ownership.balanced payload
    have once := List.nodup_iff_count_le_one.mp ownership.once payload
    omega
  · intro id node payload present owned
    have part := quantity_le_weight (Node.owns payload) present
    have balanced := ownership.balanced payload
    have once := List.nodup_iff_count_le_one.mp ownership.once payload
    constructor
    · apply List.count_pos_iff.mp
      omega
    · apply List.count_eq_zero.mp
      omega
  · intro id node tag message result present returned
    have placed := Service.reachable_placed (wiring.reachable id node present) tag
    rw [returned] at placed
    rw [placed]
    cases result <;> rfl
  · intro rest payload packed
    by_cases deleting : Exists fun node => node ∈ state.nodes ∧ node.Deleting payload
    · exact Or.inr deleting
    · left
      have alone := single payload packed
      rw [rest.owns wiring fun node member still => deleting ⟨node, member, still⟩] at alone
      apply List.count_pos_iff.mp
      omega

/-- A host sends twice to a service that never starts: once before and once
after it is stopped.  Then the service is joined. -/
def disposalRun : List Action :=
  let free : Service.Outcome := ⟨none, 0⟩
  List.flatten
    [[.register 1 [⟨⟨0, 0, 0, .system, none⟩, 0⟩], .hostSend ⟨0, 0, 0, .system, some 5⟩],
      List.replicate 4 (.advance 0 0 free),
      [.hostCollect 0 0, .call 0 .stop],
      List.replicate 3 (.advance 0 1 free),
      [.hostSend ⟨0, 0, 0, .system, some 6⟩],
      List.replicate 2 (.advance 0 2 free),
      [.hostCollect 0 2, .call 0 (.join false)],
      List.replicate 11 (.advance 0 3 free)]

theorem payload_ownership_disposed :
    Exists fun state => machine.Reachable state ∧ state.packed = [5, 6] ∧ AtRest state ∧
      state.freed.Nodup ∧ (forall payload, payload ∈ state.packed -> payload ∈ state.freed) := by
  have ends : (machine.run .empty disposalRun).any (fun final => decide
      (final.packed = [5, 6] ∧ AtRest final ∧ forall node, node ∈ final.nodes ->
        forall call, call ∈ node.service.calls -> call.deletes = false)) = true := by
    decide +kernel
  rcases machine.exists_reachable rfl ends with ⟨state, reachable, packed, rest, deleted⟩
  have result := payload_ownership reachable
  refine ⟨state, reachable, packed, rest, result.2.1, fun payload member => ?_⟩
  rcases result.2.2.2.2 rest payload member with freed | ⟨node, present, _, call, made, deletes⟩
  · exact freed
  · cases (deleted node present call made).symm.trans deletes

end Network
end ServiceRuntime
