import ServiceRuntime.Network.Moves

namespace ServiceRuntime
namespace Network

open Lua (Letter Co)
open Service (ThreadPc ThreadChoice SendPc)
open Foundation

/-!
# Senders and the calls they are in

A thread inside `service_send` and the call it has entered know each other:
the thread remembers the position of the call, and the books of the target
name the thread.  Both stay as they are until the thread has its result, so a
call belongs to one thread and is settled once.
-/

/-! ## One service on its own -/

/-- A later point of the same `service_send`. -/
def SendPc.Later (pc after : SendPc) : Prop :=
  (pc.Accepted = true -> after.Accepted = true) ∧
    forall result, pc = .returned result -> after = .returned result

theorem SendPc.Later.refl (pc : SendPc) : SendPc.Later pc pc :=
  ⟨id, fun _ returned => returned⟩

theorem sendMove_later {shared next : Service.Shared} {letter : Letter} {pc after : SendPc}
    (moved : Service.SendMove shared letter pc next after) : SendPc.Later pc after := by
  constructor
  · intro accepted
    cases moved with
    | notReady | notified | ready => rfl
    | unpinned =>
        rename_i result
        cases result <;> first | rfl | cases accepted
    | stored entering | shut entering | full entering =>
        rcases entering with rfl | ⟨capacity, grown, rfl⟩ <;> cases accepted
    | pinned | refused | reported | allocated | exhausted | tooLate => cases accepted
  · rintro result rfl
    cases moved with
    | stored entering | shut entering | full entering =>
        rcases entering with impossible | ⟨capacity, grown, impossible⟩ <;> cases impossible

/-- A send stays at its position, with its message. -/
theorem step_sendCall {self : ServiceId} {state next : Service.State} {action : Service.Action}
    (reachable : (Service.machine self).Reachable state)
    (moved : Service.step self state action = some next) {tag : Nat} {message : Message}
    {pc : SendPc} (located : state.calls[tag]? = some (.send message pc)) :
    Exists fun after => next.calls[tag]? = some (.send message after) ∧ SendPc.Later pc after := by
  rcases Service.reachable_call_step reachable moved located with ⟨call, later, rfl | callMoved⟩
  · exact ⟨pc, later, .refl pc⟩
  · cases callMoved with
    | send sendMoved => exact ⟨_, later, sendMove_later sendMoved⟩

theorem step_advance_thread {self : ServiceId} {state next : Service.State} {index : Nat}
    {outcome : Service.Outcome} (moved : Service.step self state (.advance index outcome) = some next) :
    next.thread = state.thread ∧ next.calls.length = state.calls.length := by
  rcases Service.advance_cases moved with ⟨call, shared, after, _, _, rfl⟩
  exact ⟨rfl, List.length_set⟩

theorem step_thread_calls {self : ServiceId} {state next : Service.State} {choice : ThreadChoice}
    (moved : Service.step self state (.thread choice) = some next) : next.calls = state.calls :=
  (Service.threadStep_move moved).calls

/-! ## Calls in the books of their target -/

/-- The message is in a call on its target, and `post` is what the books of the
target say; with `done` the call has returned OK. -/
def Lodged (nodes : List Node) (request : RequestId) (message : Message) (post : Post)
    (done : Bool) : Prop :=
  Exists fun target => Exists fun pc => nodes[request.target]? = some target ∧
    target.service.calls[request.tag]? = some (.send message pc) ∧
    target.posts[request.tag]? = some post ∧ (done = true -> pc = .returned .ok)

namespace Lodged

variable {nodes : List Node} {request : RequestId} {message : Message} {post : Post} {done : Bool}

theorem append (lodged : Lodged nodes request message post done) (node : Node) :
    Lodged (nodes ++ [node]) request message post done := by
  rcases lodged with ⟨target, pc, found, rest⟩
  exact ⟨target, pc, (List.getElem?_append_left (length_of_getElem? found)).trans found, rest⟩

/-- A change of one service that keeps its sends and its books. -/
theorem modify (lodged : Lodged nodes request message post done) {id : Nat} {change : Node -> Node}
    (calls : forall node (tag : Nat) call, node.service.calls[tag]? = some call ->
      (change node).service.calls[tag]? = some call)
    (posts : forall node, nodes[id]? = some node -> id = request.target ->
      node.posts[request.tag]? = some post -> (change node).posts[request.tag]? = some post) :
    Lodged (nodes.modify id change) request message post done := by
  rcases lodged with ⟨target, pc, found, located, booked, finished⟩
  refine ⟨_, pc, getElem?_modify_of_some found id change, ?_, ?_, finished⟩
  · split
    · exact calls target request.tag _ located
    · exact located
  · split
    · rename_i same
      exact posts target (same ▸ found) same booked
    · exact booked

theorem enter (lodged : Lodged nodes request message post done) (id : Nat)
    (entering : Service.Request) (book : Post) :
    Lodged (nodes.modify id (Node.enter entering book)) request message post done := by
  apply lodged.modify
  · intro node tag call located
    exact (List.getElem?_append_left (length_of_getElem? located)).trans located
  · intro node _ _ booked
    exact (List.getElem?_append_left (length_of_getElem? booked)).trans booked

theorem leave (lodged : Lodged nodes request message post done) (id : Nat) (outgoing : Outgoing) :
    Lodged (nodes.modify id (Node.leave outgoing)) request message post done :=
  lodged.modify (fun _ _ _ located => located) (fun _ _ _ booked => booked)

/-- Settling another call. -/
theorem settle (lodged : Lodged nodes request message post done) {other : RequestId}
    (distinct : other ≠ request) :
    Lodged (nodes.modify other.target (Node.settle other.tag)) request message post done := by
  refine lodged.modify (fun node tag call located => ?_) ?_
  · exact located
  intro node _ same booked
  have elsewhere : other.tag ≠ request.tag := by
    intro equal
    apply distinct
    cases other
    cases request
    cases same
    cases equal
    rfl
  exact (List.getElem?_modify_ne _ _ elsewhere).trans booked

/-- A step of a service. -/
theorem serve (lodged : Lodged nodes request message post done) {id : Nat} {node : Node}
    {action : Service.Action} {next : Service.State} (present : nodes[id]? = some node)
    (reachable : (Service.machine id).Reachable node.service)
    (moved : Service.step id node.service action = some next) (outgoing : Outgoing) :
    Lodged (nodes.set id { node with service := next, outgoing }) request message post done := by
  rcases lodged with ⟨target, pc, found, located, booked, finished⟩
  by_cases own : id = request.target
  · subst own
    cases found.symm.trans present
    rcases step_sendCall reachable moved located with ⟨after, later, order⟩
    refine ⟨_, after, List.getElem?_set_self (length_of_getElem? present), later, booked, ?_⟩
    intro past
    exact order.2 .ok (finished past)
  · exact ⟨target, pc, (List.getElem?_set_ne own).trans found, located, booked, finished⟩

end Lodged

/-! ## Threads and their calls -/

theorem bookkeeping_sender (id : Nat) (thread : ThreadPc) :
    (bookkeeping id thread).sender = some (.service id) := by
  unfold bookkeeping
  split <;> rfl

/-- What a thread knows about the message it is sending. -/
def Linked (nodes : List Node) (id : Nat) (thread : ThreadPc) : Outgoing -> Prop
  | .idle => True
  | .entered request =>
      Exists fun message => outbound id thread = some message ∧ request.target = message.toId ∧
        Lodged nodes request message (bookkeeping id thread) false
  | .returned none => (outbound id thread).isSome = true
  | .returned (some request) =>
      Exists fun message => outbound id thread = some message ∧ request.target = message.toId ∧
        Lodged nodes request message { bookkeeping id thread with sender := none } true

theorem Linked.of_lodged {nodes later : List Node} {id : Nat} {thread : ThreadPc}
    {outgoing : Outgoing} (linked : Linked nodes id thread outgoing)
    (keeps : forall request message post done,
      post.sender = some (.service id) ∨ post.sender = none ->
      Lodged nodes request message post done -> Lodged later request message post done) :
    Linked later id thread outgoing := by
  cases outgoing with
  | idle => trivial
  | entered request =>
      rcases linked with ⟨message, sends, target, lodged⟩
      exact ⟨message, sends, target, keeps _ _ _ _ (Or.inl (bookkeeping_sender id thread)) lodged⟩
  | returned accepted =>
      cases accepted with
      | none => exact linked
      | some request =>
          rcases linked with ⟨message, sends, target, lodged⟩
          exact ⟨message, sends, target, keeps _ _ _ _ (Or.inr rfl) lodged⟩

/-- A send nobody waits for any more has returned. -/
def Node.Settled (node : Node) : Prop :=
  forall (tag : Nat) message pc post, node.service.calls[tag]? = some (.send message pc) ->
    node.posts[tag]? = some post -> post.sender = none -> Exists fun result => pc = .returned result

structure Wiring (nodes : List Node) : Prop where
  reachable : forall (id : Nat) node, nodes[id]? = some node ->
    (Service.machine id).Reachable node.service
  parallel : forall (id : Nat) node, nodes[id]? = some node ->
    node.posts.length = node.service.calls.length
  linked : forall (id : Nat) node, nodes[id]? = some node ->
    Linked nodes id node.service.thread node.outgoing
  settled : forall (id : Nat) node, nodes[id]? = some node -> node.Settled

/-! ## The steps -/

theorem Node.Settled.serve {id : Nat} {node : Node} (settled : node.Settled)
    {action : Service.Action} {next : Service.State}
    (reachable : (Service.machine id).Reachable node.service)
    (moved : Service.step id node.service action = some next)
    (same : next.calls.length = node.service.calls.length) (outgoing : Outgoing) :
    Node.Settled { node with service := next, outgoing } := by
  intro tag message pc post located booked unsent
  have below : tag < node.service.calls.length := same ▸ length_of_getElem? located
  have before := List.getElem?_eq_getElem below
  rcases Service.reachable_call_step reachable moved before with ⟨after, later, rest⟩
  cases later.symm.trans located
  rcases rest with equal | callMoved
  · exact settled tag message pc post (before.trans (congrArg some equal.symm)) booked unsent
  · generalize node.service.calls[tag] = call at before callMoved
    cases callMoved with
    | send sendMoved =>
        rcases settled tag message _ post before booked unsent with ⟨result, returned⟩
        exact ⟨result, (sendMove_later sendMoved).2 result returned⟩

theorem Node.Settled.enter {node : Node} (settled : node.Settled) {request : Service.Request}
    {book : Post} (parallel : node.posts.length = node.service.calls.length)
    (named : forall message, request = .send message -> book.sender ≠ none) :
    (Node.enter request book node).Settled := by
  intro tag message pc post located booked unsent
  have located : (node.service.calls ++ [request.call])[tag]? = some (.send message pc) := located
  have booked : (node.posts ++ [book])[tag]? = some post := booked
  by_cases below : tag < node.service.calls.length
  · rw [List.getElem?_append_left below] at located
    rw [List.getElem?_append_left (parallel ▸ below)] at booked
    exact settled tag message pc post located booked unsent
  · have last : tag = node.service.calls.length := by
      have bound := length_of_getElem? located
      rw [List.length_append, List.length_singleton] at bound
      omega
    subst last
    rw [List.getElem?_concat_length] at located
    rw [← parallel, List.getElem?_concat_length] at booked
    cases booked
    cases request with
    | send text => exact False.elim (named text rfl unsent)
    | stop | start | join | free => cases located

theorem Node.Settled.settle {node : Node} (settled : node.Settled) {index : Nat} {text : Message}
    {result : Service.SendResult}
    (returned : node.service.calls[index]? = some (.send text (.returned result))) :
    (node.settle index).Settled := by
  intro tag message pc post located booked unsent
  rcases getElem?_of_modify booked with ⟨before, found, equal⟩
  by_cases own : index = tag
  · subst own
    cases located.symm.trans returned
    exact ⟨result, rfl⟩
  · rw [if_neg own] at equal
    subst equal
    exact settled tag message pc post located found unsent

theorem register_wiring {nodes : List Node} (wiring : Wiring nodes) {box : Mailbox Letter}
    (fresh : Service.Fresh (.start box)) :
    Wiring (nodes ++ [⟨.start box, [], .idle⟩]) := by
  constructor
  · apply forall_append_singleton wiring.reachable
    exact ⟨.start box, [], fresh, rfl⟩
  · exact forall_append_singleton wiring.parallel rfl
  · let added : Node := ⟨.start box, [], .idle⟩
    have others (id : Nat) (node : Node) (present : nodes[id]? = some node) :
        Linked (nodes ++ [added]) id node.service.thread node.outgoing :=
      (wiring.linked id node present).of_lodged fun _ _ _ _ _ lodged => lodged.append added
    exact forall_append_singleton others trivial
  · apply forall_append_singleton wiring.settled
    intro tag message pc post located
    cases located

/-- A step of one service; `outgoing` is what its thread knows afterwards. -/
theorem serve_wiring {nodes : List Node} (wiring : Wiring nodes) {id : Nat} {node : Node}
    {action : Service.Action} {next : Service.State} (present : nodes[id]? = some node)
    (moved : Service.step id node.service action = some next)
    (same : next.calls.length = node.service.calls.length) {outgoing : Outgoing}
    (linked : Linked (nodes.set id { node with service := next, outgoing }) id next.thread
      outgoing) :
    Wiring (nodes.set id { node with service := next, outgoing }) := by
  have reachable := wiring.reachable id node present
  constructor
  · exact forall_set wiring.reachable fun _ => reachable.step moved
  · apply forall_set wiring.parallel
    intro _
    exact (wiring.parallel id node present).trans same.symm
  · have others (position : Nat) (other : Node) (found : nodes[position]? = some other) :
        Linked (nodes.set id { node with service := next, outgoing }) position
          other.service.thread other.outgoing :=
      (wiring.linked position other found).of_lodged
        fun _ _ _ _ _ lodged => lodged.serve present reachable moved outgoing
    exact forall_set others fun _ => linked
  · apply forall_set wiring.settled
    intro _
    exact (wiring.settled id node present).serve reachable moved same outgoing

theorem enter_wiring {nodes : List Node} (wiring : Wiring nodes) (id : Nat)
    {request : Service.Request} {book : Post}
    (named : forall message, request = .send message -> book.sender ≠ none) :
    Wiring (nodes.modify id (Node.enter request book)) := by
  constructor
  · intro position node found
    rcases getElem?_of_modify found with ⟨before, present, equal⟩
    have reachable := wiring.reachable position before present
    subst equal
    split
    · have moved : (Service.machine position).step before.service (.call request) =
          some { before.service with calls := before.service.calls ++ [request.call] } := rfl
      exact reachable.step moved
    · exact reachable
  · intro position node found
    rcases getElem?_of_modify found with ⟨before, present, equal⟩
    have parallel := wiring.parallel position before present
    subst equal
    split
    · simp only [Node.enter, List.length_append, List.length_singleton, parallel]
    · exact parallel
  · intro position node found
    rcases getElem?_of_modify found with ⟨before, present, equal⟩
    have linked := (wiring.linked position before present).of_lodged
      fun _ _ _ _ _ lodged => lodged.enter id request book
    subst equal
    split
    · exact linked
    · exact linked
  · intro position node found
    rcases getElem?_of_modify found with ⟨before, present, equal⟩
    have settled := wiring.settled position before present
    subst equal
    split
    · exact settled.enter (wiring.parallel position before present) named
    · exact settled

theorem leave_wiring {nodes : List Node} (wiring : Wiring nodes) {id : Nat} {node : Node}
    {outgoing : Outgoing} (present : nodes[id]? = some node)
    (linked : Linked nodes id node.service.thread outgoing) :
    Wiring (nodes.modify id (Node.leave outgoing)) := by
  constructor
  · intro position other found
    rcases getElem?_of_modify found with ⟨before, located, rfl⟩
    have reachable := wiring.reachable position before located
    split <;> exact reachable
  · intro position other found
    rcases getElem?_of_modify found with ⟨before, located, rfl⟩
    have parallel := wiring.parallel position before located
    split <;> exact parallel
  · intro position other found
    rcases getElem?_of_modify found with ⟨before, located, rfl⟩
    split
    · rename_i same
      subst same
      cases located.symm.trans present
      exact linked.of_lodged fun _ _ _ _ _ lodged => lodged.leave id outgoing
    · exact (wiring.linked position before located).of_lodged
        fun _ _ _ _ _ lodged => lodged.leave id outgoing
  · intro position other found
    rcases getElem?_of_modify found with ⟨before, located, rfl⟩
    have settled := wiring.settled position before located
    split <;> exact settled

/-- Two entries of the books with different senders are different. -/
theorem Lodged.distinct {nodes : List Node} {request other : RequestId} {message text : Message}
    {post book : Post} {done past : Bool} (lodged : Lodged nodes request message post done)
    (beside : Lodged nodes other text book past) (senders : post.sender ≠ book.sender) :
    other ≠ request := by
  rintro rfl
  rcases lodged with ⟨target, pc, found, _, booked, _⟩
  rcases beside with ⟨same, pc', found', _, booked', _⟩
  cases found.symm.trans found'
  cases booked.symm.trans booked'
  exact senders rfl

/-- Settling a call disturbs nobody but its sender. -/
theorem Linked.settle {nodes : List Node} {id : Nat} {thread : ThreadPc} {outgoing : Outgoing}
    (linked : Linked nodes id thread outgoing) {request : RequestId} {message : Message} {post : Post}
    {done : Bool} (lodged : Lodged nodes request message post done) {sender : Sender}
    (sent : post.sender = some sender) (foreign : sender ≠ .service id) :
    Linked (nodes.modify request.target (Node.settle request.tag)) id thread outgoing := by
  apply linked.of_lodged
  intro other text book past mine beside
  apply beside.settle
  refine beside.distinct lodged ?_
  rw [sent]
  rcases mine with mine | mine <;> rw [mine]
  · intro equal
    exact foreign (Option.some.inj equal).symm
  · intro equal
    cases equal

theorem settle_local {nodes : List Node} (wiring : Wiring nodes) {request : RequestId}
    {target : Node} {text : Message} {result : Service.SendResult}
    (found : nodes[request.target]? = some target)
    (returned : target.service.calls[request.tag]? = some (.send text (.returned result))) :
    forall (id : Nat) node,
      (nodes.modify request.target (Node.settle request.tag))[id]? = some node ->
      (Service.machine id).Reachable node.service ∧
        node.posts.length = node.service.calls.length ∧ node.Settled := by
  intro id node located
  rcases getElem?_of_modify located with ⟨before, present, rfl⟩
  have reachable := wiring.reachable id before present
  have parallel := wiring.parallel id before present
  have settled := wiring.settled id before present
  split
  · rename_i own
    subst own
    cases present.symm.trans found
    exact ⟨reachable, (List.length_modify _ _ _).trans parallel, settled.settle returned⟩
  · exact ⟨reachable, parallel, settled⟩

theorem hostCollect_wiring {nodes : List Node} (wiring : Wiring nodes) {id index : Nat} {node : Node}
    {post : Post} {message : Message} {result : Service.SendResult}
    (present : nodes[id]? = some node) (found : node.posts[index]? = some post)
    (host : post.sender = some .host)
    (returned : node.service.calls[index]? = some (.send message (.returned result))) :
    Wiring (nodes.modify id (Node.settle index)) := by
  have lodged : Lodged nodes ⟨id, index⟩ message post false :=
    ⟨node, .returned result, present, returned, found, Bool.noConfusion⟩
  have place : nodes[(RequestId.mk id index).target]? = some node := present
  have kept := settle_local wiring place returned
  refine ⟨fun id node found => (kept id node found).1, fun id node found => (kept id node found).2.1,
    ?_, fun id node found => (kept id node found).2.2⟩
  intro position other located
  rcases getElem?_of_modify located with ⟨before, there, rfl⟩
  have linked := (wiring.linked position before there).settle lodged host Sender.noConfusion
  split
  · exact linked
  · exact linked

/-- The sender of a call and its books at the moment the result is known. -/
theorem Wiring.entered {nodes : List Node} (wiring : Wiring nodes) {id : Nat} {node target : Node}
    {request : RequestId} {message : Message} {result : Service.SendResult}
    (present : nodes[id]? = some node) (entered : node.outgoing = .entered request)
    (found : nodes[request.target]? = some target)
    (returned : target.service.calls[request.tag]? = some (.send message (.returned result))) :
    outbound id node.service.thread = some message ∧ request.target = message.toId ∧
      target.posts[request.tag]? = some (bookkeeping id node.service.thread) := by
  have linked := wiring.linked id node present
  rw [entered] at linked
  rcases linked with ⟨text, sends, place, same, pc, located, stands, booked, _⟩
  cases located.symm.trans found
  cases stands.symm.trans returned
  exact ⟨sends, place, booked⟩

theorem collect_wiring {nodes : List Node} (wiring : Wiring nodes) {id : Nat} {node target : Node}
    {request : RequestId} {message : Message} {result : Service.SendResult}
    (present : nodes[id]? = some node) (entered : node.outgoing = .entered request)
    (found : nodes[request.target]? = some target)
    (returned : target.service.calls[request.tag]? = some (.send message (.returned result))) :
    Wiring ((nodes.modify request.target (Node.settle request.tag)).modify id
      (Node.leave (.returned (if result = .ok then some request else none)))) := by
  rcases wiring.entered present entered found returned with ⟨sends, place, booked⟩
  have sender := bookkeeping_sender id node.service.thread
  have lodged : Lodged nodes request message (bookkeeping id node.service.thread) false :=
    ⟨target, .returned result, found, returned, booked, Bool.noConfusion⟩
  have kept := settle_local wiring found returned
  refine ⟨?_, ?_, ?_, ?_⟩
  · intro position other located
    rcases getElem?_of_modify located with ⟨before, there, rfl⟩
    have reachable := (kept position before there).1
    split <;> exact reachable
  · intro position other located
    rcases getElem?_of_modify located with ⟨before, there, rfl⟩
    have parallel := (kept position before there).2.1
    split <;> exact parallel
  · intro position other located
    rcases getElem?_of_modify located with ⟨settled, there, rfl⟩
    rcases getElem?_of_modify there with ⟨before, origin, equal⟩
    have thread : settled.service = before.service ∧ settled.outgoing = before.outgoing := by
      rw [equal]
      split <;> exact ⟨rfl, rfl⟩
    by_cases own : id = position
    · subst own
      have same : before = node := Option.some.inj (origin.symm.trans present)
      subst same
      rw [if_pos rfl]
      simp only [Node.leave, thread.1]
      by_cases accepted : result = .ok
      · subst accepted
        rw [if_pos rfl]
        refine ⟨message, sends, place, Lodged.leave ?_ _ _⟩
        refine ⟨_, .returned .ok, getElem?_modify_of_some found _ _, ?_, ?_, fun _ => rfl⟩
        · rw [if_pos rfl]
          exact returned
        · rw [if_pos rfl]
          exact (getElem?_modify_of_some booked _ _).trans (by rw [if_pos rfl])
      · rw [if_neg accepted]
        exact Option.isSome_iff_exists.mpr ⟨message, sends⟩
    · rw [if_neg own, thread.1, thread.2]
      have linked := (wiring.linked position before origin).settle lodged sender
        (fun same => own (Sender.service.inj same))
      exact linked.of_lodged fun _ _ _ _ _ beside => beside.leave id _
  · intro position other located
    rcases getElem?_of_modify located with ⟨before, there, rfl⟩
    have settled := (kept position before there).2.2
    split <;> exact settled

/-- A thread enters the call in which its message is. -/
theorem post_wiring {nodes : List Node} (wiring : Wiring nodes) {id : Nat} {node target : Node}
    {message : Message} (present : nodes[id]? = some node)
    (sends : outbound id node.service.thread = some message)
    (found : nodes[message.toId]? = some target) :
    Wiring ((nodes.modify message.toId
      (Node.enter (.send message) (bookkeeping id node.service.thread))).modify id
        (Node.leave (.entered ⟨message.toId, target.service.calls.length⟩))) := by
  let book := bookkeeping id node.service.thread
  have named (text : Message) (_ : Service.Request.send message = .send text) :
      book.sender ≠ none := by
    rw [bookkeeping_sender id node.service.thread]
    exact Option.some_ne_none _
  have entered := enter_wiring wiring message.toId named
  have own := getElem?_modify_of_some present message.toId (Node.enter (.send message) book)
  have thread : (if message.toId = id then Node.enter (.send message) book node
      else node).service.thread = node.service.thread := by
    split <;> rfl
  apply leave_wiring entered own
  rw [thread]
  refine ⟨message, sends, rfl, ?_⟩
  refine ⟨_, .pin, getElem?_modify_of_some found _ _, ?_, ?_, Bool.noConfusion⟩
  · rw [if_pos rfl]
    exact List.getElem?_concat_length
  · rw [if_pos rfl]
    have parallel := wiring.parallel message.toId target found
    simp only [Node.enter, ← parallel]
    exact List.getElem?_concat_length

theorem move_wiring {state next : State} {action : Action} (wiring : Wiring state.nodes)
    (moved : Move state action next) :
    Wiring next.nodes := by
  cases moved with
  | register fresh => exact register_wiring wiring fresh
  | call silent =>
      exact enter_wiring wiring _ fun message equal => False.elim (silent message equal)
  | advance present moved =>
      rename_i id index outcome node next
      have still := step_advance_thread moved
      have linked := (wiring.linked id node present).of_lodged fun _ _ _ _ _ lodged =>
        lodged.serve present (wiring.reachable id node present) moved node.outgoing
      rw [← still.1] at linked
      exact serve_wiring wiring present moved still.2 linked
  | thread present may moved fresh =>
      have calls := congrArg List.length (step_thread_calls moved)
      exact serve_wiring wiring present moved calls trivial
  | post present sends idle found => exact post_wiring wiring present sends found
  | misdirect present sends idle =>
      exact leave_wiring wiring present (Option.isSome_iff_exists.mpr ⟨_, sends⟩)
  | collect present entered found returned =>
      exact collect_wiring wiring present entered found returned
  | hostSend fresh found => exact enter_wiring wiring _ fun _ _ => Option.some_ne_none _
  | hostMisdirect fresh => exact wiring
  | hostCollect present found host returned =>
      exact hostCollect_wiring wiring present found host returned

theorem empty_wiring : Wiring [] := by
  constructor <;>
  · intro id node present
    cases present

theorem reachable_wiring {state : State} (reachable : machine.Reachable state) :
    Wiring state.nodes := by
  apply reachable.invariant
  · rintro start rfl
    exact empty_wiring
  · intro state action next wiring moved
    exact move_wiring wiring (step_move moved)

end Network
end ServiceRuntime
