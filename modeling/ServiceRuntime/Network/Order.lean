import ServiceRuntime.Network.Wiring
import ServiceRuntime.Service.Order

namespace ServiceRuntime
namespace Network

open Lua (Letter Co)
open Service (ThreadPc ThreadChoice SendPc)
open Foundation

/-!
# Messages of one sender keep their order

A service thread is in one `service_send` at a time, so what it sends to a
service is accepted in the order in which it was sent, as far as it is
accepted, and the queue hands it out in that order.  The log below notes every
`service_send` a service thread enters; the pool itself does not know it.
-/

/-- A service thread has entered `service_send`.  The tag of the letter is the
position of the call on its target. -/
structure Sending where
  sender : Nat
  target : Nat
  letter : Letter
  deriving DecidableEq, Repr

/-- The log of the sends of the service threads. -/
def noted (state : State) : Action -> State -> List Sending
  | .post id, _ =>
      ((state.nodes[id]?).bind fun node =>
        (outbound id node.service.thread).bind fun message =>
          (state.nodes[message.toId]?).map fun target =>
            ⟨id, message.toId, ⟨message, target.service.calls.length⟩⟩).toList
  | _, _ => []

/-- The letters one service has sent to another, in the order of sending. -/
def sentBy (log : List Sending) (sender target : Nat) : List Letter :=
  (log.filter fun sending => sending.sender = sender ∧ sending.target = target).map Sending.letter

/-- Those of the target's letters which this service has sent. -/
def fromSender (log : List Sending) (sender target : Nat) (letters : List Letter) : List Letter :=
  letters.filter fun letter => decide (⟨sender, target, letter⟩ ∈ log)

theorem mem_sentBy {log : List Sending} {sender target : Nat} {letter : Letter} :
    letter ∈ sentBy log sender target <-> ⟨sender, target, letter⟩ ∈ log := by
  unfold sentBy
  constructor
  · intro member
    rcases List.mem_map.mp member with ⟨sending, present, rfl⟩
    rcases List.mem_filter.mp present with ⟨logged, named⟩
    rcases of_decide_eq_true named with ⟨rfl, rfl⟩
    exact logged
  · intro logged
    exact List.mem_map.mpr ⟨_, List.mem_filter.mpr ⟨logged, decide_eq_true ⟨rfl, rfl⟩⟩, rfl⟩

theorem sentBy_append (log extra : List Sending) (sender target : Nat) :
    sentBy (log ++ extra) sender target = sentBy log sender target ++ sentBy extra sender target := by
  simp only [sentBy, List.filter_append, List.map_append]

theorem sentBy_singleton (sending : Sending) (sender target : Nat) :
    sentBy [sending] sender target =
      if sending.sender = sender ∧ sending.target = target then [sending.letter] else [] := by
  unfold sentBy
  rw [List.filter_cons, List.filter_nil]
  simp only [decide_eq_true_eq]
  split <;> rfl

/-! ## One step of one service -/

/-- Calls stay at their position, and at most one letter is accepted, whose
call had not returned. -/
structure Grown (before after : Service.State) : Prop where
  calls : forall (tag : Nat) message pc, before.calls[tag]? = some (.send message pc) ->
    Exists fun later => after.calls[tag]? = some (.send message later) ∧ SendPc.Later pc later
  length : before.calls.length ≤ after.calls.length
  accepted : after.shared.accepted = before.shared.accepted ∨
    Exists fun letter : Letter => Exists fun pc =>
      after.shared.accepted = before.shared.accepted ++ [letter] ∧
      before.calls[letter.tag]? = some (.send letter.message pc) ∧ pc.Accepted = false ∧
      forall result, pc ≠ .returned result

theorem Grown.refl (state : Service.State) : Grown state state :=
  ⟨fun _ _ pc located => ⟨pc, located, .refl pc⟩, Nat.le_refl _, Or.inl rfl⟩

theorem Grown.enter (state : Service.State) (request : Service.Request) :
    Grown state { state with calls := state.calls ++ [request.call] } := by
  refine ⟨fun tag message pc located => ⟨pc, ?_, .refl pc⟩, ?_, Or.inl rfl⟩
  · exact (List.getElem?_append_left (length_of_getElem? located)).trans located
  · rw [List.length_append]
    exact Nat.le_add_right _ _

theorem callMove_accepted {shared next : Service.Shared} {index : Nat} {call after : Service.Call}
    (moved : Service.CallMove shared index call next after) :
    next.accepted = shared.accepted ∨ Exists fun message => Exists fun pc : SendPc =>
      next.accepted = shared.accepted ++ [⟨message, index⟩] ∧ call = .send message pc ∧
      pc.Accepted = false ∧ forall result, pc ≠ .returned result := by
  cases moved with
  | send moved =>
      rename_i message pc later
      cases moved with
      | stored entering =>
          refine Or.inr ⟨message, pc, rfl, rfl, ?_⟩
          rcases entering with rfl | ⟨capacity, grown, rfl⟩ <;>
            exact ⟨rfl, fun result => SendPc.noConfusion⟩
      | _ => exact Or.inl rfl
  | stop moved | start moved => cases moved <;> exact Or.inl rfl
  | free moved => cases moved <;> exact Or.inl rfl
  | join moved =>
      cases moved with
      | free moved => cases moved <;> exact Or.inl rfl
      | _ => exact Or.inl rfl

theorem threadMove_accepted {self : ServiceId} {state next : Service.State}
    (moved : Service.ThreadMove self state next) : next.shared.accepted = state.shared.accepted := by
  cases moved with
  | quitStep located moved | failStep located moved => cases moved <;> rfl
  | shutdownStep located moved | shutdownDone located moved => cases moved <;> rfl
  | _ => rfl

theorem step_grown {id : Nat} {state next : Service.State} {action : Service.Action}
    (reachable : (Service.machine id).Reachable state)
    (moved : Service.step id state action = some next) : Grown state next := by
  have calls (tag : Nat) (message : Message) (pc : SendPc)
      (located : state.calls[tag]? = some (.send message pc)) :=
    step_sendCall reachable moved located
  rcases Service.reachable_step_cases reachable moved with
    ⟨request, rfl⟩ | ⟨index, call, shared, after, present, callMoved, rfl⟩ | threadMoved
  · exact .enter state request
  · refine ⟨calls, Nat.le_of_eq List.length_set.symm, ?_⟩
    rcases callMove_accepted callMoved with same | ⟨message, pc, accepted, rfl, fresh, inside⟩
    · exact Or.inl same
    · exact Or.inr ⟨⟨message, index⟩, pc, accepted, present, fresh, inside⟩
  · exact ⟨calls, Nat.le_of_eq (congrArg List.length threadMoved.calls).symm,
      Or.inl (threadMove_accepted threadMoved)⟩

/-! ## One step of the pool -/

/-- The thread of this service is inside the call. -/
def Inside (nodes : List Node) (id : Nat) (request : RequestId) : Prop :=
  Exists fun node => nodes[id]? = some node ∧ node.outgoing = .entered request

/-- The call has its result. -/
def Decided (nodes : List Node) (request : RequestId) : Prop :=
  Exists fun node => nodes[request.target]? = some node ∧ Exists fun message =>
    Exists fun result => node.service.calls[request.tag]? = some (.send message (.returned result))

/-- A step in which no service thread enters a send. -/
structure Silent (nodes later : List Node) : Prop where
  forth : forall (id : Nat) node, nodes[id]? = some node ->
    Exists fun after => later[id]? = some after ∧ Grown node.service after.service
  back : forall (id : Nat) after, later[id]? = some after ->
    (Exists fun node => nodes[id]? = some node ∧ Grown node.service after.service) ∨
      after.service.shared.accepted = []
  enters : forall id request, Inside later id request -> Inside nodes id request
  leaves : forall id request, Inside nodes id request ->
    Inside later id request ∨ Decided later request

theorem Silent.refl (nodes : List Node) : Silent nodes nodes where
  forth := fun _ node found => ⟨node, found, .refl node.service⟩
  back := fun _ node found => Or.inl ⟨node, found, .refl node.service⟩
  enters := fun _ _ inside => inside
  leaves := fun _ _ inside => Or.inl inside

/-- A change of one service in place. -/
theorem Silent.modify (nodes : List Node) (id : Nat) {change : Node -> Node}
    (grown : forall node, nodes[id]? = some node -> Grown node.service (change node).service)
    (outgoing : forall node, nodes[id]? = some node -> (change node).outgoing = node.outgoing ∨
      forall request, node.outgoing ≠ .entered request ∧ (change node).outgoing ≠ .entered request) :
    Silent nodes (nodes.modify id change) where
  forth := by
    intro position node found
    refine ⟨_, getElem?_modify_of_some found id change, ?_⟩
    split
    · rename_i own
      exact grown node (own ▸ found)
    · exact .refl node.service
  back := by
    intro position after found
    rcases getElem?_of_modify found with ⟨node, there, rfl⟩
    refine Or.inl ⟨node, there, ?_⟩
    split
    · rename_i own
      exact grown node (own ▸ there)
    · exact .refl node.service
  enters := by
    rintro position request ⟨after, found, entered⟩
    rcases getElem?_of_modify found with ⟨node, there, rfl⟩
    refine ⟨node, there, ?_⟩
    split at entered
    · rename_i own
      rcases outgoing node (own ▸ there) with same | idle
      · exact same.symm.trans entered
      · exact absurd entered (idle request).2
    · exact entered
  leaves := by
    rintro position request ⟨node, found, entered⟩
    refine Or.inl ⟨_, getElem?_modify_of_some found id change, ?_⟩
    split
    · rename_i own
      rcases outgoing node (own ▸ found) with same | idle
      · exact same.trans entered
      · exact absurd entered (idle request).1
    · exact entered

/-- A change of what the threads know about their calls. -/
theorem Silent.of_services {nodes later : List Node}
    (services : forall id : Nat, (later[id]?).map Node.service = (nodes[id]?).map Node.service)
    (enters : forall id request, Inside later id request -> Inside nodes id request)
    (leaves : forall id request, Inside nodes id request ->
      Inside later id request ∨ Decided later request) : Silent nodes later := by
  refine ⟨fun id node found => ?_, fun id after found => Or.inl ?_, enters, leaves⟩
  · have same := services id
    rw [found] at same
    rcases Option.map_eq_some_iff.mp same with ⟨after, there, equal⟩
    exact ⟨after, there, equal ▸ .refl node.service⟩
  · have same := services id
    rw [found] at same
    rcases Option.map_eq_some_iff.mp same.symm with ⟨node, there, equal⟩
    exact ⟨node, there, equal ▸ .refl node.service⟩

theorem service_modify (nodes : List Node) (position : Nat) (change : Node -> Node)
    (same : forall node, (change node).service = node.service) (id : Nat) :
    ((nodes.modify position change)[id]?).map Node.service = (nodes[id]?).map Node.service := by
  rw [List.getElem?_modify]
  cases nodes[id]? with
  | none => rfl
  | some node =>
      by_cases own : position = id
      · simp only [own, if_true, Option.map_eq_map, Option.map_some, same]
      · simp only [own, if_false, Option.map_eq_map, Option.map_some]

theorem register_silent (nodes : List Node) (box : Mailbox Letter) :
    Silent nodes (nodes ++ [⟨.start box, [], .idle⟩]) where
  forth := fun _ node found =>
    ⟨node, (List.getElem?_append_left (length_of_getElem? found)).trans found, .refl node.service⟩
  back := forall_append_singleton
    (fun _ node found => Or.inl ⟨node, found, .refl node.service⟩) (Or.inr rfl)
  enters := by
    rintro id request ⟨after, found, entered⟩
    by_cases below : id < nodes.length
    · rw [List.getElem?_append_left below] at found
      exact ⟨after, found, entered⟩
    · rw [List.getElem?_append_right (Nat.not_lt.mp below)] at found
      have only := List.mem_singleton.mp (List.mem_of_getElem? found)
      rw [only] at entered
      cases entered
  leaves := by
    rintro id request ⟨node, found, entered⟩
    exact Or.inl ⟨node, (List.getElem?_append_left (length_of_getElem? found)).trans found, entered⟩

theorem collect_silent {nodes : List Node} {id : Nat} {node target : Node} {request : RequestId}
    {message : Message} {result : Service.SendResult} (present : nodes[id]? = some node)
    (entered : node.outgoing = .entered request)
    (found : nodes[request.target]? = some target)
    (returned : target.service.calls[request.tag]? = some (.send message (.returned result)))
    (accepted : Option RequestId) :
    Silent nodes ((nodes.modify request.target (Node.settle request.tag)).modify id
      (Node.leave (.returned accepted))) := by
  have services (position : Nat) :=
    (service_modify (nodes.modify request.target (Node.settle request.tag)) id
      (Node.leave (.returned accepted)) (fun _ => rfl) position).trans
    (service_modify nodes request.target (Node.settle request.tag) (fun _ => rfl) position)
  refine .of_services services ?_ ?_
  · rintro position other ⟨after, there, inside⟩
    rcases getElem?_of_modify there with ⟨settled, between, rfl⟩
    rcases getElem?_of_modify between with ⟨before, origin, rfl⟩
    refine ⟨before, origin, ?_⟩
    split at inside
    · cases inside
    · split at inside <;> exact inside
  · rintro position other ⟨before, origin, inside⟩
    by_cases own : id = position
    · subst own
      cases origin.symm.trans present
      cases inside.symm.trans entered
      have same := services request.target
      rw [found] at same
      rcases Option.map_eq_some_iff.mp same with ⟨after, there, equal⟩
      exact Or.inr ⟨after, there, message, result, by rw [equal]; exact returned⟩
    · refine Or.inl ⟨_, getElem?_modify_of_some (getElem?_modify_of_some origin _ _) _ _, ?_⟩
      rw [if_neg own]
      split <;> exact inside

/-- Every step but entering a send is silent. -/
theorem move_silent {state next : State} {action : Action} (wiring : Wiring state.nodes)
    (moved : Move state action next) (quiet : forall id, action ≠ .post id) :
    Silent state.nodes next.nodes := by
  cases moved with
  | register fresh => exact register_silent state.nodes _
  | call silent => exact .modify state.nodes _ (fun node _ => .enter node.service _) fun _ _ => Or.inl rfl
  | advance present moved =>
      rename_i id index outcome node next
      have grown := step_grown (wiring.reachable id node present) moved
      show Silent state.nodes (state.nodes.set id { node with service := next })
      rw [← modify_eq_set present fun _ => { node with service := next }]
      refine .modify state.nodes id (fun other found => ?_) fun other found => Or.inl ?_
      · cases found.symm.trans present
        exact grown
      · cases found.symm.trans present
        rfl
  | thread present may moved fresh =>
      rename_i id choice node next
      have grown := step_grown (wiring.reachable id node present) moved
      have idle (request : RequestId) : node.outgoing ≠ .entered request := by
        intro entered
        have linked := wiring.linked id node present
        rw [entered] at linked
        rcases linked with ⟨message, sends, _⟩
        simp only [mayStep, sends, entered] at may
        cases may
      show Silent state.nodes (state.nodes.set id { node with service := next, outgoing := .idle })
      rw [← modify_eq_set present fun _ => { node with service := next, outgoing := .idle }]
      refine .modify state.nodes id (fun other found => ?_) fun other found => Or.inr fun request => ?_
      · cases found.symm.trans present
        exact grown
      · cases found.symm.trans present
        exact ⟨idle request, Outgoing.noConfusion⟩
  | post present sends idle found => exact absurd rfl (quiet _)
  | misdirect present sends idle => exact absurd rfl (quiet _)
  | collect present entered found returned => exact collect_silent present entered found returned _
  | hostSend fresh found =>
      exact .modify state.nodes _ (fun node _ => .enter node.service _) fun _ _ => Or.inl rfl
  | hostMisdirect fresh => exact .refl state.nodes
  | hostCollect present found host returned =>
      exact .modify state.nodes _ (fun node _ => .refl node.service) fun _ _ => Or.inl rfl

/-! ## The log and the pool -/

/-- What has been sent is in a call on its target.  As long as the call has no
result its sender is inside it, and has sent nothing since. -/
structure Traced (nodes : List Node) (log : List Sending) : Prop where
  recorded : forall sending, sending ∈ log -> Exists fun node => Exists fun pc =>
    nodes[sending.target]? = some node ∧
    node.service.calls[sending.letter.tag]? = some (.send sending.letter.message pc) ∧
    ((Exists fun result => pc = .returned result) ∨
      (Inside nodes sending.sender ⟨sending.target, sending.letter.tag⟩ ∧ Exists fun before =>
        log.filter (fun other => other.sender = sending.sender) = before ++ [sending]))
  order : forall (sender target : Nat) node, nodes[target]? = some node ->
    (fromSender log sender target node.service.shared.accepted).Sublist (sentBy log sender target)
  rising : forall sender target : Nat,
    (sentBy log sender target).Pairwise fun first second => first.tag < second.tag

/-- A list that goes on with something new to it. -/
theorem sublist_append_new {letters sent : List Letter} {letter : Letter}
    (sublist : letters.Sublist (sent ++ [letter])) (new : letter ∉ letters) :
    (letters ++ [letter]).Sublist (sent ++ [letter]) := by
  rcases List.sublist_append_iff.mp sublist with ⟨front, back, rfl, early, late⟩
  have none : back = [] := by
    cases back with
    | nil => rfl
    | cons head rest =>
        have only := late.subset List.mem_cons_self
        rw [List.mem_singleton.mp only] at new
        exact absurd (List.mem_append_right front List.mem_cons_self) new
  rw [none, List.append_nil]
  exact early.append (.refl [letter])

theorem sentBy_of_filter {log before : List Sending} {sending : Sending}
    (filtered : log.filter (fun other => other.sender = sending.sender) = before ++ [sending]) :
    Exists fun sent => sentBy log sending.sender sending.target = sent ++ [sending.letter] := by
  have split : log.filter (fun other => other.sender = sending.sender ∧ other.target = sending.target) =
      (log.filter fun other => other.sender = sending.sender).filter
        fun other => other.target = sending.target := by
    rw [List.filter_filter]
    congr 1
    funext other
    rw [Bool.decide_and, Bool.and_comm]
  refine ⟨(before.filter fun other => other.target = sending.target).map Sending.letter, ?_⟩
  rw [sentBy, split, filtered, List.filter_append, List.map_append]
  congr 1
  simp only [List.filter_cons, decide_true, if_true, List.filter_nil, List.map_cons, List.map_nil]

section Traced

variable {nodes later : List Node} {log : List Sending}

/-- What is not accepted yet is not in the queue's log. -/
theorem unaccepted_of_call {id : Nat} {state : Service.State}
    (reachable : (Service.machine id).Reachable state) {letter : Letter} {pc : SendPc}
    (located : state.calls[letter.tag]? = some (.send letter.message pc))
    (fresh : pc.Accepted = false) : letter ∉ state.shared.accepted := by
  intro member
  rcases Service.accepted_of_mem reachable member with ⟨call, present, accepted⟩
  cases located.symm.trans present
  rw [Service.Call.accepted, fresh] at accepted
  exact accepted rfl

theorem Traced.silent (traced : Traced nodes log) (wiring : Wiring nodes)
    (silent : Silent nodes later) : Traced later log where
  rising := traced.rising
  recorded := by
    intro sending logged
    rcases traced.recorded sending logged with ⟨node, pc, found, located, known⟩
    rcases silent.forth _ node found with ⟨after, there, grown⟩
    rcases grown.calls _ _ pc located with ⟨further, stands, order⟩
    refine ⟨after, further, there, stands, ?_⟩
    rcases known with ⟨result, returned⟩ | ⟨inside, filtered⟩
    · exact Or.inl ⟨result, order.2 result returned⟩
    · rcases silent.leaves _ _ inside with still | ⟨target, same, message, result, decided⟩
      · exact Or.inr ⟨still, filtered⟩
      · cases same.symm.trans there
        cases decided.symm.trans stands
        exact Or.inl ⟨result, rfl⟩
  order := by
    intro sender target after there
    rcases silent.back target after there with ⟨node, found, grown⟩ | empty
    · have before := traced.order sender target node found
      rcases grown.accepted with same | ⟨letter, pc, accepted, located, fresh, unreturned⟩
      · rw [same]
        exact before
      · rw [accepted, fromSender, List.filter_append]
        by_cases logged : ⟨sender, target, letter⟩ ∈ log
        · -- the letter comes from a sender that is inside the call, so it is the last one sent
          rcases traced.recorded _ logged with ⟨other, known, same, stands, ends⟩
          cases found.symm.trans same
          cases located.symm.trans stands
          rcases ends with ⟨result, returned⟩ | ⟨_, earlier, filtered⟩
          · exact absurd returned (unreturned result)
          · rcases sentBy_of_filter filtered with ⟨sent, last⟩
            have unaccepted := unaccepted_of_call (wiring.reachable target node found) located fresh
            simp only [List.filter_cons, logged, decide_true, if_true, List.filter_nil]
            rw [last] at before ⊢
            exact sublist_append_new before fun member =>
              unaccepted (List.mem_filter.mp member).1
        · simp only [List.filter_cons, logged, decide_false, Bool.false_eq_true, if_false,
            List.filter_nil, List.append_nil]
          exact before
    · rw [empty]
      exact List.nil_sublist _

/-- A thread enters a call that nobody has entered before. -/
theorem Traced.enter (traced : Traced nodes log) (wiring : Wiring nodes) {id place : Nat}
    {node target : Node} (letter : Letter) (present : nodes[id]? = some node)
    (idle : node.outgoing = .idle) (found : nodes[place]? = some target)
    (located : target.service.calls[letter.tag]? = some (.send letter.message .pin))
    (fresh : forall sending, sending ∈ log -> sending.target = place ->
      sending.letter.tag < letter.tag) :
    Traced (nodes.modify id (Node.leave (.entered ⟨place, letter.tag⟩)))
      (log ++ [⟨id, place, letter⟩]) := by
  have services (position : Nat) :=
    service_modify nodes id (Node.leave (.entered ⟨place, letter.tag⟩)) (fun _ => rfl) position
  have still {position : Nat} {before : Node} (there : nodes[position]? = some before) :
      Exists fun after => (nodes.modify id (Node.leave (.entered ⟨place, letter.tag⟩)))[position]? =
        some after ∧ after.service = before.service := by
    have same := services position
    rw [there] at same
    exact Option.map_eq_some_iff.mp same
  have entered : Inside (nodes.modify id (Node.leave (.entered ⟨place, letter.tag⟩))) id
      ⟨place, letter.tag⟩ :=
    ⟨_, getElem?_modify_of_some present id _, by rw [if_pos rfl]; rfl⟩
  refine ⟨?_, ?_, ?_⟩
  · intro sending member
    rcases List.mem_append.mp member with logged | new
    · rcases traced.recorded sending logged with ⟨before, pc, there, stands, known⟩
      rcases still there with ⟨after, here, service⟩
      refine ⟨after, pc, here, service ▸ stands, known.imp (fun returned => returned) ?_⟩
      rintro ⟨⟨other, position, inside⟩, earlier, filtered⟩
      have elsewhere : id ≠ sending.sender := by
        intro own
        cases (own ▸ position).symm.trans present
        cases idle.symm.trans inside
      refine ⟨⟨other, ?_, inside⟩, earlier, ?_⟩
      · rw [List.getElem?_modify_ne _ _ elsewhere]
        exact position
      · rw [List.filter_append, filtered, List.filter_cons_of_neg, List.filter_nil, List.append_nil]
        exact fun named => elsewhere (of_decide_eq_true named)
    · cases List.mem_singleton.mp new
      rcases still found with ⟨after, here, service⟩
      refine ⟨after, .pin, here, service ▸ located, Or.inr ⟨entered,
        log.filter (fun other => other.sender = id), ?_⟩⟩
      simp only [List.filter_append, List.filter_cons, decide_true, if_true, List.filter_nil]
  · intro sender position after here
    rcases getElem?_of_modify here with ⟨before, there, equal⟩
    have service : after.service = before.service := by
      rw [equal]
      split <;> rfl
    have old : fromSender (log ++ [⟨id, place, letter⟩]) sender position
        before.service.shared.accepted =
        fromSender log sender position before.service.shared.accepted := by
      apply List.filter_congr
      intro other accepted
      rw [decide_eq_decide, List.mem_append, or_iff_left]
      intro new
      cases List.mem_singleton.mp new
      cases found.symm.trans there
      exact unaccepted_of_call (wiring.reachable _ target found) located rfl accepted
    rw [service, old, sentBy_append]
    exact (traced.order sender position before there).trans (List.sublist_append_left _ _)
  · intro sender position
    rw [sentBy_append, List.pairwise_append]
    refine ⟨traced.rising sender position, ?_, ?_⟩
    · rw [sentBy_singleton]
      split
      · exact List.pairwise_singleton _ _
      · exact .nil
    · intro first earlier second new
      have logged := mem_sentBy.mp earlier
      cases List.mem_singleton.mp (mem_sentBy.mp new)
      exact fresh _ logged rfl

end Traced

/-! ## All runs -/

theorem traced_of_post {state next : State} {id : Nat} {log : List Sending}
    (wiring : Wiring state.nodes) (traced : Traced state.nodes log)
    (moved : post state id = some next) :
    Traced next.nodes (log ++ noted state (.post id) next) := by
  rcases Option.bind_eq_some_iff.mp moved with ⟨node, present, inner⟩
  simp only [noted, present, Option.bind_some]
  split at inner
  · rename_i message sends idle
    rw [sends, Option.bind_some]
    split at inner
    · rename_i target found
      cases inner
      rw [found, Option.map_some]
      let book := bookkeeping id node.service.thread
      have named (text : Message) (_ : Service.Request.send message = .send text) :
          book.sender ≠ none := by
        rw [bookkeeping_sender id node.service.thread]
        exact Option.some_ne_none _
      have entered : Silent state.nodes
          (state.nodes.modify message.toId (Node.enter (.send message) book)) :=
        .modify state.nodes _ (fun node _ => .enter node.service _) fun _ _ => Or.inl rfl
      have located := getElem?_modify_of_some found message.toId (Node.enter (.send message) book)
      rw [if_pos rfl] at located
      refine (traced.silent wiring entered).enter (enter_wiring wiring message.toId named)
        ⟨message, target.service.calls.length⟩ (getElem?_modify_of_some present _ _) ?_ located ?_ ?_
      · split <;> exact idle
      · exact List.getElem?_concat_length
      · intro sending logged same
        rcases traced.recorded sending logged with ⟨before, pc, there, stands, _⟩
        rw [same] at there
        cases found.symm.trans there
        exact length_of_getElem? stands
    · rename_i nowhere
      cases inner
      rw [nowhere, Option.map_none, Option.toList_none, List.append_nil]
      refine traced.silent wiring (.modify state.nodes id (fun node _ => .refl node.service) ?_)
      intro other found
      cases found.symm.trans present
      refine Or.inr fun request => ⟨?_, Outgoing.noConfusion⟩
      rw [idle]
      exact Outgoing.noConfusion
  · cases inner

theorem noted_of_quiet {state next : State} {action : Action} (quiet : forall id, action ≠ .post id) :
    noted state action next = [] := by
  cases action with
  | post id => exact absurd rfl (quiet id)
  | register | call | advance | thread | collect | hostSend | hostCollect => rfl

/-- The log is one of this pool. -/
def Logged (state : State) (log : List Sending) : Prop := Traced state.nodes log

theorem reachable_logged {observed : State × List Sending}
    (reachable : (machine.observe noted).Reachable observed) : Logged observed.1 observed.2 := by
  apply reachable.observed
  · rintro start rfl
    refine ⟨nofun, ?_, fun _ _ => .nil⟩
    intro sender target node found
    cases found
  · intro state log action next before traced moved
    have wiring := reachable_wiring before
    by_cases posting : Exists fun id => action = .post id
    · rcases posting with ⟨id, rfl⟩
      exact traced_of_post wiring traced moved
    · have quiet (id : Nat) : action ≠ .post id := fun same => posting ⟨id, same⟩
      rw [noted_of_quiet quiet, List.append_nil]
      exact traced.silent wiring (move_silent wiring (step_move moved) quiet)

/-- What one service sends to another is accepted in the order of sending, and
handed to the Lua code of the target in that order, each message at most once.
What the Lua code does not get goes to the drain and then to `mailbox_delete`,
in that order too. -/
theorem sends_in_order {observed : State × List Sending}
    (reachable : (machine.observe noted).Reachable observed) (sender target : Nat) {node : Node}
    (present : observed.1.nodes[target]? = some node) :
    let shared := node.service.shared
    (sentBy observed.2 sender target).Pairwise (fun first second => first.tag < second.tag) ∧
    (fromSender observed.2 sender target shared.accepted).Sublist (sentBy observed.2 sender target) ∧
    (fromSender observed.2 sender target shared.popped).Sublist (sentBy observed.2 sender target) ∧
    shared.accepted = shared.popped ++ shared.drained ++ shared.disposed ++ shared.box.contents := by
  have traced : Traced observed.1.nodes observed.2 := reachable_logged reachable
  have order := (Service.reachable_ordered
    ((reachable_wiring reachable.of_observe).reachable target node present)).order
  have accepted := traced.order sender target node present
  refine ⟨traced.rising sender target, accepted, List.Sublist.trans ?_ accepted, order⟩
  rw [order, List.append_assoc, List.append_assoc]
  exact (List.sublist_append_left _ _).filter _

/-- A callback of service 0 sends two messages to service 1, which takes them
in one round. -/
def twoSends : List Action :=
  let free : Service.Outcome := ⟨none, 0⟩
  let blank : Letter := ⟨⟨0, 0, 0, .system, none⟩, 0⟩
  let begin (id : Nat) : List Action :=
    [.call id .start, .advance id 0 free] ++ List.replicate 11 (.thread id .next)
  let send (index payload steps : Nat) : List Action :=
    [.thread 0 (.lua (.send 1 payload)), .post 0] ++ List.replicate steps (.advance 1 index free) ++
      [.collect 0, .thread 0 (.lua (.sent true))]
  let receive : List Action :=
    [.thread 1 (.lua .next), .thread 1 .next, .thread 1 .next, .thread 1 (.lua .next),
      .thread 1 (.lua .decoded), .thread 1 (.lua (.finish 9))]
  List.flatten
    [[.register 2 [blank, blank], .register 2 [blank, blank]], begin 0, begin 1,
      [.thread 0 .callback], send 1 7 5, send 2 8 3, [.thread 1 .wakeInbox, .thread 1 .next],
      receive, receive]

theorem sends_in_order_two :
    Exists fun observed => (machine.observe noted).Reachable observed ∧
      Exists fun node => observed.1.nodes[1]? = some node ∧
        (sentBy observed.2 0 1).map Letter.tag = [1, 2] ∧
        (fromSender observed.2 0 1 node.service.shared.popped).map Letter.tag = [1, 2] ∧
        (fromSender observed.2 0 1 node.service.shared.popped).Sublist (sentBy observed.2 0 1) := by
  have ends : ((machine.observe noted).run (.empty, []) twoSends).any (fun observed => decide
      ((sentBy observed.2 0 1).map Letter.tag = [1, 2] ∧
        (observed.1.nodes[1]?).any fun node => decide
          ((fromSender observed.2 0 1 node.service.shared.popped).map Letter.tag = [1, 2]))) =
      true := by
    decide +kernel
  have begins : (machine.observe noted).initial (.empty, []) := ⟨rfl, rfl⟩
  rcases (machine.observe noted).exists_reachable begins ends with
    ⟨observed, reachable, sent, popped⟩
  rcases (Option.any_eq_true _ _).mp popped with ⟨node, present, tags⟩
  exact ⟨observed, reachable, node, present, sent, of_decide_eq_true tags,
    (sends_in_order reachable 0 1 present).2.2.1⟩

end Network
end ServiceRuntime
