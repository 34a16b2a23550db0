import ServiceRuntime.Network.Books

namespace ServiceRuntime
namespace Network

open Lua (Letter Co Answers)
open Service (ThreadPc ThreadChoice SendPc)
open Foundation

/-!
# Calls and their replies

In a pool whose services talk to each other by `service.send` and
`service.call` only, every reply finds the call it was made for.  The books of
the pool are kept in order by every step, and the theorem reads them.
-/

/-- Lua code uses `service.send` and `service.call` only; what a host thread
sends asks for no reply and is none. -/
def Disciplined (_state : State) : Action -> Prop
  | .thread _ (.lua (.sendMessage _ _ _ _)) => False
  | .hostSend message => ¬ message.Awaited ∧ ¬ Replies message
  | _ => True

instance (state : State) (action : Action) : Decidable (Disciplined state action) := by
  unfold Disciplined
  split <;> infer_instance

structure Orderly (state : State) : Prop where
  ledger : Ledger (entriesOf state.nodes) (AnsweredIn state.nodes)
    (ExpectedIn state.waiting state.nodes) (ArrivedIn state.nodes)
  sessions : Sessions (entriesOf state.nodes) (lookupOf state.nodes) state.waiting
    (pendingOf state.nodes) state.resumed
  polite : forall (id : Nat) node message site, state.nodes[id]? = some node ->
    node.service.thread = .lua (.sending message (.user site)) ->
    ¬ message.Awaited ∧ ¬ Replies message
  reading : forall (id : Nat) node co letter ret, state.nodes[id]? = some node ->
    node.service.thread = .lua (.unpackReply co letter ret) ->
    (Exists fun resumption => resumption ∈ state.resumed ∧ resumption.service = id ∧
      resumption.reply = letter.tag ∧ resumption.co = co) ∧
    Exists fun entry => entriesOf state.nodes ⟨id, letter.tag⟩ = some entry ∧
      entry.message = letter.message

/-! ## Steps that send nothing and resume nobody -/

/-- What such a step leaves as it was. -/
structure Undisturbed (state next : State) : Prop where
  entries : Follows (entriesOf state.nodes) (entriesOf next.nodes)
  threads : forall (id : Nat) node, next.nodes[id]? = some node ->
    node.service.thread = .unborn ∨ Exists fun before => state.nodes[id]? = some before ∧
      node.service.thread = before.service.thread
  lookup : lookupOf next.nodes = lookupOf state.nodes
  waiting : next.waiting = state.waiting
  resumed : next.resumed = state.resumed
  pending : forall id request, pendingOf next.nodes id = some request ->
    pendingOf state.nodes id = some request
  sent : forall id request, pendingOf state.nodes id = some request ->
    pendingOf next.nodes id = some request ∨
      forall entry, entriesOf next.nodes request = some entry -> entry.caller = none ∨ entry.Failed
  answered : forall origin, AnsweredIn state.nodes origin -> AnsweredIn next.nodes origin
  arrived : forall place, ArrivedIn state.nodes place -> ArrivedIn next.nodes place

theorem Orderly.of_threads {state next : State} (orderly : Orderly state)
    (threads : forall (id : Nat) node, next.nodes[id]? = some node ->
      node.service.thread = .unborn ∨ Exists fun before => state.nodes[id]? = some before ∧
        node.service.thread = before.service.thread)
    (entries : forall request entry, entriesOf state.nodes request = some entry ->
      Exists fun after => entriesOf next.nodes request = some after ∧
        after.message = entry.message)
    (resumed : next.resumed = state.resumed)
    (ledger : Ledger (entriesOf next.nodes) (AnsweredIn next.nodes)
      (ExpectedIn next.waiting next.nodes) (ArrivedIn next.nodes))
    (sessions : Sessions (entriesOf next.nodes) (lookupOf next.nodes) next.waiting
      (pendingOf next.nodes) next.resumed) : Orderly next := by
  refine ⟨ledger, sessions, ?_, ?_⟩
  · intro id node message site present sends
    rcases threads id node present with unborn | ⟨before, found, same⟩
    · cases unborn.symm.trans sends
    · exact orderly.polite id before message site found (same.symm.trans sends)
  · intro id node co letter ret present reads
    rcases threads id node present with unborn | ⟨before, found, same⟩
    · cases unborn.symm.trans reads
    · rcases orderly.reading id before co letter ret found (same.symm.trans reads) with
        ⟨listed, entry, known, text⟩
      rcases entries _ entry known with ⟨after, there, message⟩
      rw [resumed]
      exact ⟨listed, after, there, message.trans text⟩

theorem Undisturbed.orderly {state next : State} (undisturbed : Undisturbed state next)
    (orderly : Orderly state) : Orderly next := by
  refine orderly.of_threads undisturbed.threads ?_ undisturbed.resumed ?_ ?_
  · intro request entry known
    rcases undisturbed.entries.forth request entry known with ⟨after, there, order⟩
    exact ⟨after, there, order.message⟩
  · apply orderly.ledger.follows undisturbed.entries undisturbed.answered _ undisturbed.arrived
    intro id request expected
    rcases expected with ⟨session, waits⟩ | sends
    · rw [← undisturbed.waiting] at waits
      exact Or.inl (Or.inl ⟨session, waits⟩)
    · rcases undisturbed.sent id request sends with still | given
      · exact Or.inl (Or.inr still)
      · exact Or.inr given
  · rw [undisturbed.lookup, undisturbed.waiting, undisturbed.resumed]
    exact orderly.sessions.follows undisturbed.entries undisturbed.pending

/-! ### Threads and senders after a change in place -/

theorem threads_modify {nodes : List Node} {id : Nat} (change : Node -> Node)
    (same : forall node, (change node).service.thread = node.service.thread) (position : Nat)
    (node : Node) (present : (nodes.modify id change)[position]? = some node) :
    node.service.thread = .unborn ∨ Exists fun before => nodes[position]? = some before ∧
      node.service.thread = before.service.thread := by
  rcases getElem?_of_modify present with ⟨before, found, rfl⟩
  refine Or.inr ⟨before, found, ?_⟩
  split
  · exact same before
  · rfl

theorem pendingOf_leave {nodes : List Node} {id : Nat} {node : Node}
    (present : nodes[id]? = some node) (outgoing : Outgoing) (position : Nat) :
    pendingOf (nodes.modify id (Node.leave outgoing)) position =
      if id = position then outgoing.pending else pendingOf nodes position := by
  unfold pendingOf
  rw [modify_eq_set present, viewOf_set present]
  rfl

theorem lookupOf_modify (nodes : List Node) (id : Nat) (change : Node -> Node)
    (same : forall node, (change node).service.vm = node.service.vm) :
    lookupOf (nodes.modify id change) = lookupOf nodes := by
  funext position session
  apply viewOf_modify
  intro node
  rw [same]

theorem pendingOf_modify (nodes : List Node) (id : Nat) (change : Node -> Node)
    (same : forall node, (change node).outgoing = node.outgoing) :
    pendingOf (nodes.modify id change) = pendingOf nodes := by
  funext position
  apply viewOf_modify
  intro node
  rw [same]

/-- A change that touches neither the letters nor the thread keeps what has
been answered and what has arrived. -/
theorem answeredIn_modify {nodes : List Node} {id : Nat} {change : Node -> Node} {origin : RequestId}
    (shared : forall node, (change node).service.shared = node.service.shared)
    (thread : forall node, (change node).service.thread = node.service.thread)
    (busy : forall node, nodes[id]? = some node -> node.outgoing ≠ .idle ->
      (change node).outgoing ≠ .idle)
    (answered : AnsweredIn nodes origin) : AnsweredIn (nodes.modify id change) origin := by
  apply exists_modify answered
  rintro node present (⟨reply, listed, same⟩ | ⟨sends, book⟩)
  · exact Or.inl ⟨reply, by rw [shared]; exact listed, same⟩
  · refine Or.inr ⟨busy node present sends, ?_⟩
    rw [thread]
    exact book

theorem arrivedIn_modify {nodes : List Node} {id : Nat} {change : Node -> Node} {place : RequestId}
    (shared : forall node, (change node).service.shared = node.service.shared)
    (thread : forall node, (change node).service.thread = node.service.thread)
    (arrived : ArrivedIn nodes place) : ArrivedIn (nodes.modify id change) place := by
  apply exists_modify arrived
  intro node present received
  unfold Node.Received
  rw [shared, thread]
  exact received

theorem register_undisturbed (state : State) (box : Mailbox Letter) :
    Undisturbed state { state with nodes := state.nodes ++ [⟨.start box, [], .idle⟩] } where
  entries := .of_eq (entriesOf_register state.nodes box)
  threads := by
    have others (id : Nat) (node : Node) (present : state.nodes[id]? = some node) :
        node.service.thread = .unborn ∨ Exists fun before => state.nodes[id]? = some before ∧
          node.service.thread = before.service.thread := Or.inr ⟨node, present, rfl⟩
    exact forall_append_singleton others (Or.inl rfl)
  lookup := by
    funext id session
    exact viewOf_append state.nodes id rfl
  waiting := rfl
  resumed := rfl
  pending := fun id request found => by
    unfold pendingOf at found
    rw [viewOf_append state.nodes id rfl] at found
    exact found
  sent := fun id request found => by
    unfold pendingOf
    rw [viewOf_append state.nodes id rfl]
    exact Or.inl found
  answered := fun _ => exists_append
  arrived := fun _ => exists_append

/-- A change of the books that neither the service nor its sends notice. -/
theorem modify_undisturbed {state : State} {id : Nat} {change : Node -> Node}
    (entries : entriesOf (state.nodes.modify id change) = entriesOf state.nodes)
    (shared : forall node, (change node).service.shared = node.service.shared)
    (thread : forall node, (change node).service.thread = node.service.thread)
    (vm : forall node, (change node).service.vm = node.service.vm)
    (outgoing : forall node, (change node).outgoing = node.outgoing) (freed : List Payload) :
    Undisturbed state { state with nodes := state.nodes.modify id change, freed } := by
  have pending := pendingOf_modify state.nodes id change outgoing
  refine ⟨.of_eq entries, threads_modify change thread, lookupOf_modify _ _ change vm, rfl, rfl, ?_, ?_, ?_, ?_⟩
  · intro position request found
    rw [← pending]
    exact found
  · intro position request found
    rw [← pending] at found
    exact Or.inl found
  · intro origin
    apply answeredIn_modify shared thread
    intro node _ busy
    rw [outgoing]
    exact busy
  · intro place
    exact arrivedIn_modify shared thread

theorem call_undisturbed {state : State} (wiring : Wiring state.nodes) (id : Nat)
    {request : Service.Request} (silent : forall message, request ≠ .send message) (book : Post) :
    Undisturbed state { state with nodes := state.nodes.modify id (Node.enter request book) } :=
  modify_undisturbed (entriesOf_enter_other (wiring.parallel id) silent book) (fun _ => rfl)
    (fun _ => rfl) (fun _ => rfl) (fun _ => rfl) state.freed

theorem hostCollect_undisturbed (state : State) (id index : Nat) (freed : List Payload) :
    Undisturbed state { state with nodes := state.nodes.modify id (Node.settle index), freed } :=
  modify_undisturbed (entriesOf_settle state.nodes id index) (fun _ => rfl) (fun _ => rfl)
    (fun _ => rfl) (fun _ => rfl) freed

/-- A thread learns how its send has ended. -/
theorem leave_undisturbed {state : State} {id : Nat} {node : Node} {outgoing : Outgoing}
    (present : state.nodes[id]? = some node) (busy : outgoing ≠ .idle)
    (keeps : forall request, outgoing.pending = some request ->
      node.outgoing.pending = some request)
    (sent : forall request, node.outgoing.pending = some request ->
      outgoing.pending = some request ∨ forall entry,
        entriesOf state.nodes request = some entry -> entry.caller = none ∨ entry.Failed)
    (freed : List Payload) :
    Undisturbed state
      { state with nodes := state.nodes.modify id (Node.leave outgoing), freed } where
  entries := .of_eq (entriesOf_leave state.nodes id outgoing)
  threads := threads_modify _ fun _ => rfl
  lookup := lookupOf_modify _ _ _ fun _ => rfl
  waiting := rfl
  resumed := rfl
  pending := fun position request found => by
    rw [pendingOf_leave present] at found
    split at found
    · rename_i own
      subst own
      unfold pendingOf viewOf
      rw [present]
      exact keeps request found
    · exact found
  sent := fun position request found => by
    rw [pendingOf_leave present, entriesOf_leave]
    split
    · rename_i own
      subst own
      unfold pendingOf viewOf at found
      rw [present] at found
      exact sent request found
    · exact Or.inl found
  answered := fun _ => answeredIn_modify (fun _ => rfl) (fun _ => rfl) fun _ _ _ => busy
  arrived := fun _ => arrivedIn_modify (fun _ => rfl) fun _ => rfl

theorem Undisturbed.trans {first second third : State} (one : Undisturbed first second)
    (two : Undisturbed second third) (same : entriesOf second.nodes = entriesOf first.nodes)
    (same' : entriesOf third.nodes = entriesOf second.nodes) : Undisturbed first third where
  entries := .of_eq (same'.trans same)
  threads := fun id node present => by
    rcases two.threads id node present with unborn | ⟨middle, found, equal⟩
    · exact Or.inl unborn
    · rcases one.threads id middle found with unborn | ⟨before, located, equal'⟩
      · exact Or.inl (equal.trans unborn)
      · exact Or.inr ⟨before, located, equal.trans equal'⟩
  lookup := two.lookup.trans one.lookup
  waiting := two.waiting.trans one.waiting
  resumed := two.resumed.trans one.resumed
  pending := fun id request found => one.pending id request (two.pending id request found)
  sent := fun id request found => by
    rcases one.sent id request found with still | given
    · exact two.sent id request still
    · rw [same']
      exact Or.inr given
  answered := fun origin answered => two.answered origin (one.answered origin answered)
  arrived := fun place arrived => two.arrived place (one.arrived place arrived)

theorem advance_undisturbed {state : State} (wiring : Wiring state.nodes) {id index : Nat}
    {outcome : Service.Outcome} {node : Node} {next : Service.State}
    (present : state.nodes[id]? = some node)
    (moved : Service.step id node.service (.advance index outcome) = some next)
    (freed : List Payload) :
    Undisturbed state
      { state with nodes := state.nodes.set id { node with service := next }, freed } := by
  have reachable := wiring.reachable id node present
  have valid := (Service.reachable_inbox reachable).valid
  have length := (step_advance_thread moved).2
  rcases Service.reachable_advance reachable moved with
    ⟨call, shared, after, located, callMoved, rfl⟩
  constructor
  · exact entriesOf_serve present reachable moved length node.outgoing
  · have others (position : Nat) (other : Node) (found : state.nodes[position]? = some other) :
        other.service.thread = .unborn ∨ Exists fun before =>
          state.nodes[position]? = some before ∧
            other.service.thread = before.service.thread := Or.inr ⟨other, found, rfl⟩
    exact forall_set others fun _ => Or.inr ⟨node, present, rfl⟩
  · funext position session
    unfold lookupOf
    rw [viewOf_set present]
    split
    · rename_i own
      subst own
      unfold viewOf
      rw [present]
      rfl
    · rfl
  · rfl
  · rfl
  · intro position request found
    unfold pendingOf at found ⊢
    rw [viewOf_set present] at found
    split at found
    · rename_i own
      subst own
      unfold viewOf
      rw [present]
      exact found
    · exact found
  · intro position request found
    unfold pendingOf at found ⊢
    rw [viewOf_set present]
    split
    · rename_i own
      subst own
      unfold viewOf at found
      rw [present] at found
      exact Or.inl found
    · exact Or.inl found
  · intro origin answered
    apply exists_set present answered
    rintro _ (⟨reply, listed, same⟩ | sends)
    · refine Or.inl ⟨reply, ?_, same⟩
      show reply ∈ shared.replies
      rw [callMoved.replies]
      exact listed
    · exact Or.inr sends
  · intro place arrived
    apply exists_set present arrived
    rintro _ ⟨gone, looked⟩
    refine ⟨?_, looked⟩
    cases callMoved.flow valid with
    | rests same accepted message nothing =>
        simp only [same.popped, same.drained, same.disposed]
        exact gone
    | stored before stands kept given contents popped drained disposed =>
        simp only [popped, drained, disposed]
        exact gone
    | disposed disposes still found contents popped drained disposed =>
        simp only [popped, drained, disposed, weight_append]
        omega

theorem collect_undisturbed {state : State} {id : Nat} {request : RequestId} {message : Message}
    {result : Service.SendResult} {node target : Node} (present : state.nodes[id]? = some node)
    (entered : node.outgoing = .entered request)
    (found : state.nodes[request.target]? = some target)
    (returned : target.service.calls[request.tag]? = some (.send message (.returned result)))
    (freed : List Payload) :
    Undisturbed state
      { state with
        nodes := (state.nodes.modify request.target (Node.settle request.tag)).modify id
          (Node.leave (.returned (if result = .ok then some request else none)))
        freed } := by
  have entries := entriesOf_settle state.nodes request.target request.tag
  have located := getElem?_modify_of_some present request.target (Node.settle request.tag)
  have outgoing : (if request.target = id then node.settle request.tag else node).outgoing =
      node.outgoing := by
    split <;> rfl
  have failed (refused : result ≠ .ok) (entry : Entry)
      (known : entriesOf state.nodes request = some entry) : entry.Failed := by
    rcases entriesOf_eq_some.mp known with ⟨other, there, inside⟩
    cases found.symm.trans there
    rcases Node.entry_eq_some.mp inside with ⟨post, stands, _⟩
    have same := Service.Call.send.inj (Option.some.inj (returned.symm.trans stands))
    exact ⟨result, same.2.symm, refused⟩
  refine (hostCollect_undisturbed state request.target request.tag freed).trans
    (leave_undisturbed located Outgoing.noConfusion ?_ ?_ freed) entries (entriesOf_leave _ _ _)
  · intro other same
    rw [outgoing, entered]
    split at same
    · exact same
    · cases same
  · intro other same
    rw [outgoing, entered] at same
    cases same
    by_cases accepted : result = .ok
    · rw [if_pos accepted]
      exact Or.inl rfl
    · refine Or.inr fun entry known => Or.inr ?_
      rw [entries] at known
      exact failed accepted entry known

/-! ## Sending -/

/-- What the thread knows about the reply it is sending. -/
theorem sending_duty {id : Nat} {service : Service.State}
    (reachable : (Service.machine id).Reachable service) {message : Message}
    (sends : outbound id service.thread = some message) {origin : RequestId}
    (book : (bookkeeping id service.thread).origin = some origin) :
    origin.target = id ∧ message.fromId = id ∧
      (Exists fun request => service.requests origin.tag = some request ∧
        Answers message request) ∧ 0 < service.thread.custody service.vm origin.tag := by
  have carries := (Service.reachable_accounts reachable).carries
  have signed := (Service.reachable_coroutines reachable).orderly.signed
  have own (co : Co) : Lua.names co co = 1 := if_pos rfl
  cases located : service.thread with
  | lua pc =>
      rw [located] at sends book carries signed
      cases pc with
      | sending text next =>
          cases sends
          cases next with
          | response co ret =>
              cases book
              refine ⟨rfl, signed, carries.1, ?_⟩
              show 0 < service.vm.live co
              rw [carries.2]
              exact Nat.one_pos
          | failure co ret =>
              cases book
              refine ⟨rfl, signed, carries, ?_⟩
              show 0 < Lua.names co co + service.vm.live co
              rw [own]
              omega
          | pending co rest =>
              cases book
              refine ⟨rfl, signed, carries.1, ?_⟩
              show 0 < Lua.names co co + service.vm.pending rest co
              rw [own]
              omega
          | user site | call caller session ret => cases book
      | _ => cases sends
  | shutdown caller pc =>
      rw [located] at sends book carries
      cases pc with
      | drained letter =>
          cases book
          simp only [outbound] at sends
          split at sends
          · rename_i awaited
            cases sends
            refine ⟨rfl, rfl, ⟨letter.message, carries, awaited, rfl, rfl, Or.inr rfl⟩, ?_⟩
            have claimed : Lua.Letter.claims letter.tag letter = 1 := if_pos ⟨rfl, awaited⟩
            show 0 < Lua.Letter.claims letter.tag letter + service.vm.live letter.tag
            omega
          · cases sends
      | retire | close | waitPins | drain => cases sends
  | _ =>
      rw [located] at sends
      cases sends

/-- A duty that is still open: the request was accepted, and no reply has been
given. -/
theorem open_duty {id : Nat} {service : Service.State}
    (reachable : (Service.machine id).Reachable service) {tag : Nat}
    (owed : 0 < service.thread.custody service.vm tag) :
    (forall reply, reply ∈ service.shared.replies -> reply.origin ≠ tag) ∧
      forall request, service.requests tag = some request -> Exists fun pc =>
        service.calls[tag]? = some (.send request pc) ∧ pc.Accepted = true := by
  have accounts := Service.reachable_accounts reachable
  have balanced := accounts.balanced tag
  have posted := accounts.posted tag
  have bound := accounts.ledger_le_one tag
  unfold Service.State.ledger at balanced bound
  constructor
  · intro reply listed same
    rcases List.mem_iff_getElem?.mp listed with ⟨position, found⟩
    have counted := quantity_le_weight (Service.Reply.answers tag) found
    have one : reply.answers tag = 1 := if_pos same
    omega
  · intro request known
    unfold Service.State.requests at known
    split at known
    · rename_i message pc located
      cases known
      refine ⟨pc, located, ?_⟩
      by_contra refused
      rw [located] at posted
      have none : Service.Call.posted (.send request pc) = 0 := if_neg fun both => refused both.1
      simp only [Option.elim_some, none] at posted
      omega
    · cases known

/-- A reply that is being sent answers an accepted request, and no other reply
to it has been given. -/
theorem sending_reply {nodes : List Node} (wiring : Wiring nodes) {id : Nat} {node : Node}
    (present : nodes[id]? = some node) {message : Message}
    (sends : outbound id node.service.thread = some message) {origin : RequestId}
    (book : (bookkeeping id node.service.thread).origin = some origin)
    (idle : node.outgoing = .idle) :
    origin.target = id ∧ message.fromId = id ∧ ¬ AnsweredIn nodes origin ∧
      Exists fun asked => entriesOf nodes origin = some asked ∧ Answers message asked.message ∧
        asked.pc.Accepted = true := by
  have reachable := wiring.reachable id node present
  rcases sending_duty reachable sends book with ⟨rfl, sender, ⟨request, known, answers⟩, owed⟩
  rcases open_duty reachable owed with ⟨unanswered, accepted⟩
  rcases accepted request known with ⟨pc, located, posted⟩
  refine ⟨rfl, sender, ?_, ?_⟩
  · rintro ⟨other, found, ⟨reply, listed, same⟩ | ⟨busy, _⟩⟩
    · cases present.symm.trans found
      exact unanswered reply listed same
    · cases present.symm.trans found
      exact busy idle
  · have below : origin.tag < node.posts.length := by
      rw [wiring.parallel _ node present]
      exact length_of_getElem? located
    refine ⟨⟨request, pc, node.posts[origin.tag].origin, node.posts[origin.tag].caller⟩,
      entriesOf_eq_some.mpr ⟨node, present, Node.entry_eq_some.mpr ?_⟩, answers, posted⟩
    exact ⟨_, located, List.getElem?_eq_getElem below, rfl, rfl⟩

/-- What a thread sends: a plain message of its user code, the request of a
call, or a reply. -/
theorem outbound_cases {id : Nat} {thread : ThreadPc} {message : Message}
    (sends : outbound id thread = some message) :
    (Exists fun site => thread = .lua (.sending message (.user site))) ∨
    (Exists fun caller => Exists fun session => Exists fun ret =>
      thread = .lua (.sending message (.call caller session ret))) ∨
    ((bookkeeping id thread).caller = none ∧
      Exists fun origin => (bookkeeping id thread).origin = some origin) := by
  cases thread with
  | lua pc =>
      cases pc with
      | sending text next =>
          cases sends
          cases next with
          | user site => exact Or.inl ⟨site, rfl⟩
          | call caller session ret => exact Or.inr (Or.inl ⟨caller, session, ret, rfl⟩)
          | response co ret | failure co ret | pending co rest => exact Or.inr (Or.inr ⟨rfl, _, rfl⟩)
      | _ => cases sends
  | shutdown caller pc =>
      cases pc with
      | drained letter => exact Or.inr (Or.inr ⟨rfl, _, rfl⟩)
      | retire | close | waitPins | drain => cases sends
  | _ => cases sends

theorem bookkeeping_caller {id other : Nat} {thread : ThreadPc} {co : Co}
    (book : (bookkeeping id thread).caller = some (other, co)) : other = id := by
  unfold bookkeeping at book
  split at book
  · cases book
    rfl
  all_goals cases book

/-- A thread enters its send in the books of the target. -/
theorem post_honest {state : State} (orderly : Orderly state) (wiring : Wiring state.nodes) {id : Nat}
    {message : Message} {node target : Node} (present : state.nodes[id]? = some node)
    (sends : outbound id node.service.thread = some message) (idle : node.outgoing = .idle)
    {answered' : RequestId -> Prop} {expected' : Nat -> RequestId -> Prop}
    (expects : expected' id ⟨message.toId, target.service.calls.length⟩)
    (answers : forall origin, (bookkeeping id node.service.thread).origin = some origin ->
      answered' origin) :
    Honest (entriesOf state.nodes) (AnsweredIn state.nodes) answered' expected'
      ⟨message.toId, target.service.calls.length⟩
      ⟨message, .pin, (bookkeeping id node.service.thread).origin,
        (bookkeeping id node.service.thread).caller⟩ := by
  have signed := (Service.reachable_coroutines (wiring.reachable id node present)).orderly.signed
  have polite := orderly.polite id node message
  rcases outbound_cases sends with ⟨site, located⟩ | ⟨caller, session, ret, located⟩ |
    ⟨uncalled, origin, book⟩
  · have silent := polite site present located
    rw [located]
    refine ⟨rfl, fun awaited => False.elim (silent.1 awaited), ?_,
      fun replies => False.elim (silent.2 replies), ?_⟩
    · intro other co book
      cases book
    · intro origin book
      cases book
  · rw [located] at signed
    rw [located]
    refine ⟨rfl, fun _ => ⟨caller, ?_⟩, ?_, ?_, ?_⟩
    · show some (id, caller) = some (message.fromId, caller)
      rw [signed.1]
    · intro other co book
      cases book
      exact ⟨signed.2.2.1, signed.1, expects⟩
    · intro replies
      have type := signed.2.2.1.1
      rcases replies.1 with other | other <;> cases type.symm.trans other
    · intro origin book
      cases book
  · rcases sending_reply wiring present sends book idle with ⟨own, sender, unanswered, asked, known, reply⟩
    refine ⟨rfl, ?_, ?_, fun _ => ⟨origin, book⟩, ?_⟩
    · intro awaited
      rcases reply.1.type with type | type <;> cases type.symm.trans awaited.1
    · intro other co called
      cases uncalled.symm.trans called
    · intro other same
      cases book.symm.trans same
      exact ⟨sender.trans own.symm, ⟨asked, known, reply⟩, unanswered, answers origin book⟩

theorem post_orderly {state : State} (orderly : Orderly state) (wiring : Wiring state.nodes) {id : Nat}
    {message : Message} {node target : Node} (present : state.nodes[id]? = some node)
    (sends : outbound id node.service.thread = some message) (idle : node.outgoing = .idle)
    (found : state.nodes[message.toId]? = some target) :
    Orderly
      { state with
        nodes := (state.nodes.modify message.toId
          (Node.enter (.send message) (bookkeeping id node.service.thread))).modify id
            (Node.leave (.entered ⟨message.toId, target.service.calls.length⟩)) } := by
  let book := bookkeeping id node.service.thread
  let place : RequestId := ⟨message.toId, target.service.calls.length⟩
  let entered := state.nodes.modify message.toId (Node.enter (.send message) book)
  have inside := getElem?_modify_of_some present message.toId (Node.enter (.send message) book)
  have free := entriesOf_free found
  have entries : entriesOf (entered.modify id (Node.leave (.entered place))) =
      Function.update (entriesOf state.nodes) place
        (some ⟨message, .pin, book.origin, book.caller⟩) :=
    (entriesOf_leave entered id _).trans
      (entriesOf_enter_send found (wiring.parallel _ target found) message book)
  have lookup : lookupOf (entered.modify id (Node.leave (.entered place))) = lookupOf state.nodes := by
    have outer : lookupOf (entered.modify id (Node.leave (.entered place))) = lookupOf entered :=
      lookupOf_modify entered id _ fun _ => rfl
    have inner : lookupOf entered = lookupOf state.nodes :=
      lookupOf_modify state.nodes message.toId _ fun _ => rfl
    exact outer.trans inner
  have pending (position : Nat) : pendingOf (entered.modify id (Node.leave (.entered place))) position =
      if id = position then some place else pendingOf state.nodes position := by
    rw [pendingOf_leave inside]
    split
    · rfl
    · have inner : pendingOf entered = pendingOf state.nodes :=
        pendingOf_modify state.nodes message.toId _ fun _ => rfl
      exact congrFun inner position
  have quiet : pendingOf state.nodes id = none := by
    unfold pendingOf viewOf
    rw [present]
    simp only [Option.bind_some, idle, Outgoing.pending]
  have answers (origin : RequestId) (answered : AnsweredIn state.nodes origin) :
      AnsweredIn (entered.modify id (Node.leave (.entered place))) origin := by
    refine answeredIn_modify (fun _ => rfl) (fun _ => rfl) (fun _ _ _ => Outgoing.noConfusion) ?_
    exact answeredIn_modify (fun _ => rfl) (fun _ => rfl) (fun _ _ busy => busy) answered
  have mine (origin : RequestId) (same : book.origin = some origin) :
      AnsweredIn (entered.modify id (Node.leave (.entered place))) origin := by
    have own := (sending_reply wiring present sends same idle).1
    refine ⟨_, getElem?_modify_of_some (own ▸ inside) id _, Or.inr ?_⟩
    rw [if_pos own.symm]
    refine ⟨Outgoing.noConfusion, ?_⟩
    have thread : (if message.toId = id then Node.enter (.send message) book node
        else node).service.thread = node.service.thread := by
      split <;> rfl
    simp only [Node.leave, thread, own]
    rw [← own]
    exact (congrArg (fun position => (bookkeeping position node.service.thread).origin) own).trans same
  refine orderly.of_threads ?_ ?_ rfl ?_ ?_
  · intro position other located
    rcases threads_modify (Node.leave (.entered place)) (fun _ => rfl) position other located with
      unborn | ⟨middle, there, same⟩
    · exact Or.inl unborn
    · rcases threads_modify (Node.enter (.send message) book) (fun _ => rfl) position middle there with
        unborn | ⟨before, there', same'⟩
      · exact Or.inl (same.trans unborn)
      · exact Or.inr ⟨before, there', same.trans same'⟩
  · intro request entry known
    refine ⟨entry, ?_, rfl⟩
    rw [entries, Function.update_of_ne, known]
    rintro rfl
    cases free.symm.trans known
  · rw [entries]
    refine orderly.ledger.post free (post_honest orderly wiring present sends idle ?_ mine) answers ?_ ?_
    · refine Or.inr ?_
      rw [pending, if_pos rfl]
    · intro position request expected
      rcases expected with waits | sent
      · exact Or.inl waits
      · refine Or.inr ?_
        rw [pending]
        split
        · rename_i own
          subst own
          cases quiet.symm.trans sent
        · exact sent
    · intro arrival arrived
      refine arrivedIn_modify (fun _ => rfl) (fun _ => rfl) ?_
      exact arrivedIn_modify (fun _ => rfl) (fun _ => rfl) arrived
  · rw [entries, lookup]
    refine orderly.sessions.post free (fun other co called => bookkeeping_caller called) ?_
    intro position request sent
    rw [pending] at sent
    split at sent
    · rename_i own
      exact Or.inr ⟨own.symm, (Option.some.inj sent).symm⟩
    · exact Or.inl sent

/-- A host thread enters its send. -/
theorem hostSend_orderly {state : State} (orderly : Orderly state) (wiring : Wiring state.nodes)
    {message : Message} {target : Node} (silent : ¬ message.Awaited ∧ ¬ Replies message)
    (found : state.nodes[message.toId]? = some target) (packed : List Payload) :
    Orderly
      { state with
        nodes := state.nodes.modify message.toId
          (Node.enter (.send message) ⟨some .host, none, none⟩)
        packed } := by
  let book : Post := ⟨some .host, none, none⟩
  have free := entriesOf_free found
  have entries := entriesOf_enter_send found (wiring.parallel _ target found) message book
  let entered := state.nodes.modify message.toId (Node.enter (.send message) book)
  have pending : pendingOf entered = pendingOf state.nodes :=
    pendingOf_modify state.nodes message.toId _ fun _ => rfl
  have lookup : lookupOf entered = lookupOf state.nodes :=
    lookupOf_modify state.nodes message.toId _ fun _ => rfl
  have answers (origin : RequestId) (answered : AnsweredIn state.nodes origin) :
      AnsweredIn entered origin :=
    answeredIn_modify (fun _ => rfl) (fun _ => rfl) (fun _ _ busy => busy) answered
  have arrives (place : RequestId) (arrived : ArrivedIn state.nodes place) :
      ArrivedIn entered place :=
    arrivedIn_modify (fun _ => rfl) (fun _ => rfl) arrived
  refine orderly.of_threads (threads_modify _ fun _ => rfl) ?_ rfl ?_ ?_
  · intro request entry known
    refine ⟨entry, ?_, rfl⟩
    show entriesOf entered request = some entry
    rw [entries, Function.update_of_ne, known]
    rintro rfl
    cases free.symm.trans known
  · show Ledger (entriesOf entered) (AnsweredIn entered) (ExpectedIn state.waiting entered)
      (ArrivedIn entered)
    rw [entries]
    refine orderly.ledger.post free ?_ answers ?_ arrives
    · refine ⟨rfl, fun awaited => False.elim (silent.1 awaited), ?_,
        fun replies => False.elim (silent.2 replies), ?_⟩
      · intro id co called
        cases called
      · intro origin answering
        cases answering
    · intro id request expected
      unfold ExpectedIn at expected ⊢
      rw [pending]
      exact expected
  · show Sessions (entriesOf entered) (lookupOf entered) state.waiting (pendingOf entered) state.resumed
    rw [entries, lookup, pending]
    have nobody (other : Nat) (co : Co) (called : (none : Option (Nat × Co)) = some (other, co)) :
        other = 0 := by
      cases called
    exact orderly.sessions.post free nobody fun id request sent => Or.inl sent

end Network
end ServiceRuntime
