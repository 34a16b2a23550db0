import ServiceRuntime.Network.Ledger
import ServiceRuntime.Service.Sessions

namespace ServiceRuntime
namespace Network

open Lua (Letter Co Answers)
open Service (ThreadPc ThreadChoice SendPc)
open Foundation

/-!
# The books of a pool

The maps of the ledger, read off a state of the pool, and what each change of
a service does to them.
-/

/-! ## Reading a service -/

def Node.entry (node : Node) (tag : Nat) : Option Entry :=
  match node.service.calls[tag]?, node.posts[tag]? with
  | some (.send message pc), some post => some ⟨message, pc, post.origin, post.caller⟩
  | _, _ => none

theorem Node.entry_eq_some {node : Node} {tag : Nat} {entry : Entry} :
    node.entry tag = some entry <->
      Exists fun post => node.service.calls[tag]? = some (.send entry.message entry.pc) ∧
        node.posts[tag]? = some post ∧ post.origin = entry.origin ∧ post.caller = entry.caller := by
  constructor
  · intro found
    unfold Node.entry at found
    split at found
    · rename_i message pc post located booked
      cases found
      exact ⟨post, located, booked, rfl, rfl⟩
    · cases found
  · rintro ⟨post, located, booked, origin, caller⟩
    unfold Node.entry
    rw [located, booked]
    cases entry
    cases origin
    cases caller
    rfl

/-- The request a service is sending. -/
def Outgoing.pending : Outgoing -> Option RequestId
  | .idle => none
  | .entered request => some request
  | .returned accepted => accepted

/-- The letter with this tag has left the queue and has been looked at. -/
def Node.Received (node : Node) (tag : Nat) : Prop :=
  0 < weight (Service.Letter.named tag) node.service.shared.popped +
      weight (Service.Letter.named tag) node.service.shared.drained +
      weight (Service.Letter.named tag) node.service.shared.disposed ∧
    forall processed letter, node.service.thread = .lua (.got processed letter) -> letter.tag ≠ tag

/-- The service has replied to the request with this tag, or is doing so. -/
def Node.Answered (id : Nat) (node : Node) (tag : Nat) : Prop :=
  (Exists fun reply => reply ∈ node.service.shared.replies ∧ reply.origin = tag) ∨
    (node.outgoing ≠ .idle ∧ (bookkeeping id node.service.thread).origin = some ⟨id, tag⟩)

/-! ## Reading the pool -/

/-- A view of one service, and nothing where there is none. -/
def viewOf {View : Type} (nodes : List Node) (id : Nat) (view : Node -> Option View) : Option View :=
  (nodes[id]?).bind view

theorem viewOf_set {View : Type} {nodes : List Node} {id : Nat} {node : Node}
    (present : nodes[id]? = some node) (new : Node) (position : Nat) (view : Node -> Option View) :
    viewOf (nodes.set id new) position view =
      if id = position then view new else viewOf nodes position view := by
  unfold viewOf
  by_cases own : id = position
  · rw [if_pos own, own, List.getElem?_set_self (own ▸ length_of_getElem? present)]
    rfl
  · rw [if_neg own, List.getElem?_set_ne own]

/-- A change that cannot be seen. -/
theorem viewOf_modify {View : Type} (nodes : List Node) (id : Nat) {change : Node -> Node}
    (position : Nat) {view : Node -> Option View} (same : forall node, view (change node) = view node) :
    viewOf (nodes.modify id change) position view = viewOf nodes position view := by
  unfold viewOf
  rw [List.getElem?_modify]
  cases nodes[position]? with
  | none => rfl
  | some node =>
      by_cases own : id = position
      · simp only [own, if_true, Option.map_eq_map, Option.map_some, Option.bind_some]
        exact same node
      · simp only [own, if_false, Option.map_eq_map, Option.map_some, Option.bind_some]

theorem viewOf_append {View : Type} (nodes : List Node) {new : Node} (position : Nat)
    {view : Node -> Option View} (empty : view new = none) :
    viewOf (nodes ++ [new]) position view = viewOf nodes position view := by
  unfold viewOf
  by_cases below : position < nodes.length
  · rw [List.getElem?_append_left below]
  · rw [List.getElem?_append_right (Nat.not_lt.mp below),
      List.getElem?_eq_none (Nat.not_lt.mp below)]
    cases position - nodes.length with
    | zero => exact empty
    | succ beyond => rfl

def entriesOf (nodes : List Node) : Entries := fun request =>
  viewOf nodes request.target fun node => node.entry request.tag

def lookupOf (nodes : List Node) (id : Nat) (session : Session) : Option Co :=
  viewOf nodes id fun node => node.service.vm.suspendLookup.lookup session

def pendingOf (nodes : List Node) (id : Nat) : Option RequestId :=
  viewOf nodes id fun node => node.outgoing.pending

def AnsweredIn (nodes : List Node) (origin : RequestId) : Prop :=
  Exists fun node => nodes[origin.target]? = some node ∧ node.Answered origin.target origin.tag

def ArrivedIn (nodes : List Node) (place : RequestId) : Prop :=
  Exists fun node => nodes[place.target]? = some node ∧ node.Received place.tag

/-- A service waits for the reply to this request, or is about to. -/
def ExpectedIn (waiting : Nat -> Session -> Option RequestId) (nodes : List Node) (id : Nat)
    (request : RequestId) : Prop :=
  (Exists fun session => waiting id session = some request) ∨ pendingOf nodes id = some request

theorem entriesOf_eq_some {nodes : List Node} {request : RequestId} {entry : Entry} :
    entriesOf nodes request = some entry <->
      Exists fun node => nodes[request.target]? = some node ∧
        node.entry request.tag = some entry :=
  Option.bind_eq_some_iff

/-! ## Changes of one service -/

/-- A property of one service survives a change elsewhere, and a change that
keeps it. -/
theorem exists_set {nodes : List Node} {id : Nat} {node new : Node} {position : Nat}
    {property : Node -> Prop} (present : nodes[id]? = some node)
    (holds : Exists fun node => nodes[position]? = some node ∧ property node)
    (kept : id = position -> property node -> property new) :
    Exists fun node => (nodes.set id new)[position]? = some node ∧ property node := by
  rcases holds with ⟨other, found, here⟩
  by_cases own : id = position
  · subst own
    cases found.symm.trans present
    exact ⟨new, List.getElem?_set_self (length_of_getElem? present), kept rfl here⟩
  · exact ⟨other, (List.getElem?_set_ne own).trans found, here⟩

theorem exists_modify {nodes : List Node} {id position : Nat} {change : Node -> Node}
    {property : Node -> Prop}
    (holds : Exists fun node => nodes[position]? = some node ∧ property node)
    (kept : forall node, nodes[id]? = some node -> property node -> property (change node)) :
    Exists fun node => (nodes.modify id change)[position]? = some node ∧ property node := by
  rcases holds with ⟨other, found, here⟩
  refine ⟨_, getElem?_modify_of_some found id change, ?_⟩
  split
  · rename_i own
    exact kept other (own ▸ found) here
  · exact here

theorem exists_append {nodes : List Node} {new : Node} {position : Nat} {property : Node -> Prop}
    (holds : Exists fun node => nodes[position]? = some node ∧ property node) :
    Exists fun node => (nodes ++ [new])[position]? = some node ∧ property node := by
  rcases holds with ⟨other, found, here⟩
  exact ⟨other, (List.getElem?_append_left (length_of_getElem? found)).trans found, here⟩

/-! ### The entries -/

theorem entriesOf_leave (nodes : List Node) (id : Nat) (outgoing : Outgoing) :
    entriesOf (nodes.modify id (Node.leave outgoing)) = entriesOf nodes := by
  funext request
  exact viewOf_modify nodes id request.target fun node => rfl

theorem Node.entry_settle (node : Node) (index tag : Nat) :
    (node.settle index).entry tag = node.entry tag := by
  unfold Node.entry Node.settle
  simp only [List.getElem?_modify]
  cases node.posts[tag]? with
  | none => rfl
  | some post =>
      by_cases own : index = tag
      · simp only [own, if_true, Option.map_eq_map, Option.map_some]
        cases node.service.calls[tag]? with
        | none => rfl
        | some call => cases call <;> rfl
      · simp only [own, if_false, Option.map_eq_map, Option.map_some]

theorem entriesOf_settle (nodes : List Node) (id index : Nat) :
    entriesOf (nodes.modify id (Node.settle index)) = entriesOf nodes := by
  funext request
  exact viewOf_modify nodes id request.target fun node => node.entry_settle index request.tag

theorem entriesOf_register (nodes : List Node) (box : Mailbox Letter) :
    entriesOf (nodes ++ [⟨.start box, [], .idle⟩]) = entriesOf nodes := by
  funext request
  exact viewOf_append nodes request.target rfl

/-- Entering a call: one more entry if it is a send. -/
theorem Node.entry_enter {node : Node} (parallel : node.posts.length = node.service.calls.length)
    (request : Service.Request) (book : Post) (tag : Nat) :
    (Node.enter request book node).entry tag =
      if tag = node.service.calls.length then
        (match request with
          | .send message => some ⟨message, .pin, book.origin, book.caller⟩
          | _ => none)
      else node.entry tag := by
  unfold Node.entry Node.enter
  by_cases last : tag = node.service.calls.length
  · subst last
    rw [if_pos rfl, ← parallel]
    simp only [List.getElem?_concat_length]
    rw [parallel]
    simp only [List.getElem?_concat_length]
    cases request <;> rfl
  · rw [if_neg last]
    by_cases below : tag < node.service.calls.length
    · simp only [List.getElem?_append_left below, List.getElem?_append_left (parallel ▸ below)]
    · have beyond : node.service.calls.length + 1 ≤ tag := by omega
      have outside : (node.service.calls ++ [request.call])[tag]? = none := by
        apply List.getElem?_eq_none
        rw [List.length_append, List.length_singleton]
        exact beyond
      simp only [outside, List.getElem?_eq_none (Nat.not_lt.mp below)]

theorem entriesOf_enter_send {nodes : List Node} {id : Nat} {target : Node}
    (found : nodes[id]? = some target)
    (parallel : target.posts.length = target.service.calls.length) (message : Message) (book : Post) :
    entriesOf (nodes.modify id (Node.enter (.send message) book)) =
      Function.update (entriesOf nodes) ⟨id, target.service.calls.length⟩
        (some ⟨message, .pin, book.origin, book.caller⟩) := by
  funext request
  rw [modify_eq_set found]
  unfold entriesOf
  rw [viewOf_set found]
  by_cases own : id = request.target
  · subst own
    rw [if_pos rfl, Node.entry_enter parallel]
    by_cases last : request.tag = target.service.calls.length
    · rw [if_pos last]
      have same : request = ⟨request.target, target.service.calls.length⟩ := by
        rw [← last]
      rw [← same, Function.update_self]
    · rw [if_neg last, Function.update_of_ne]
      · simp only [viewOf, found, Option.bind_some]
      · intro same
        exact last (congrArg RequestId.tag same)
  · rw [if_neg own, Function.update_of_ne]
    intro same
    exact own (congrArg RequestId.target same).symm

theorem entriesOf_enter_other {nodes : List Node} {id : Nat}
    (parallel : forall node, nodes[id]? = some node ->
      node.posts.length = node.service.calls.length)
    {request : Service.Request} (silent : forall message, request ≠ .send message) (book : Post) :
    entriesOf (nodes.modify id (Node.enter request book)) = entriesOf nodes := by
  funext place
  unfold entriesOf viewOf
  rw [List.getElem?_modify]
  cases found : nodes[place.target]? with
  | none => rfl
  | some node =>
      by_cases own : id = place.target
      · subst own
        simp only [if_true, Option.map_eq_map, Option.map_some, Option.bind_some]
        rw [Node.entry_enter (parallel node found)]
        split
        · rename_i last
          have nothing : node.entry place.tag = none := by
            unfold Node.entry
            rw [last, List.getElem?_eq_none (Nat.le_refl _)]
          rw [nothing]
          cases request with
          | send message => exact False.elim (silent message rfl)
          | stop | start | join | free => rfl
        · rfl
      · simp only [own, if_false, Option.map_eq_map, Option.map_some, Option.bind_some]

theorem entriesOf_free {nodes : List Node} {id : Nat} {target : Node}
    (found : nodes[id]? = some target) :
    entriesOf nodes ⟨id, target.service.calls.length⟩ = none := by
  unfold entriesOf viewOf Node.entry
  simp only [found, Option.bind_some]
  rw [List.getElem?_eq_none (Nat.le_refl _)]

/-- A step of a service moves its entries on. -/
theorem Node.serve_entry {id : Nat} {node : Node} {action : Service.Action} {next : Service.State}
    (reachable : (Service.machine id).Reachable node.service)
    (moved : Service.step id node.service action = some next)
    (same : next.calls.length = node.service.calls.length) (outgoing : Outgoing) (tag : Nat) :
    (forall entry, node.entry tag = some entry -> Exists fun after =>
      Node.entry { node with service := next, outgoing } tag = some after ∧ entry.Later after) ∧
    (forall after, Node.entry { node with service := next, outgoing } tag = some after ->
      Exists fun entry => node.entry tag = some entry ∧ entry.Later after) := by
  constructor
  · intro entry found
    rcases Node.entry_eq_some.mp found with ⟨post, located, booked, origin, caller⟩
    rcases step_sendCall reachable moved located with ⟨pc, later, order⟩
    refine ⟨⟨entry.message, pc, entry.origin, entry.caller⟩, ?_, rfl, rfl, rfl, order⟩
    exact Node.entry_eq_some.mpr ⟨post, later, booked, origin, caller⟩
  · intro after found
    rcases Node.entry_eq_some.mp found with ⟨post, located, booked, origin, caller⟩
    have below : tag < node.service.calls.length := same ▸ length_of_getElem? located
    have before := List.getElem?_eq_getElem below
    rcases Service.reachable_call_step reachable moved before with ⟨call, later, rest⟩
    cases later.symm.trans located
    rcases rest with equal | callMoved
    · refine ⟨after, Node.entry_eq_some.mpr ⟨post, ?_, booked, origin, caller⟩, .refl after⟩
      rw [before, equal]
    · generalize node.service.calls[tag] = call at before callMoved
      cases callMoved with
      | send sendMoved =>
          rename_i pc
          refine ⟨⟨after.message, pc, after.origin, after.caller⟩, ?_, rfl, rfl, rfl,
            sendMove_later sendMoved⟩
          exact Node.entry_eq_some.mpr ⟨post, before, booked, origin, caller⟩

theorem entriesOf_serve {nodes : List Node} {id : Nat} {node : Node} {action : Service.Action}
    {next : Service.State} (present : nodes[id]? = some node)
    (reachable : (Service.machine id).Reachable node.service)
    (moved : Service.step id node.service action = some next)
    (same : next.calls.length = node.service.calls.length) (outgoing : Outgoing) :
    Follows (entriesOf nodes)
      (entriesOf (nodes.set id { node with service := next, outgoing })) := by
  constructor
  · intro request entry found
    unfold entriesOf at found ⊢
    rw [viewOf_set present]
    by_cases own : id = request.target
    · subst own
      simp only [viewOf, present, Option.bind_some] at found
      rw [if_pos rfl]
      exact (Node.serve_entry reachable moved same outgoing request.tag).1 entry found
    · rw [if_neg own]
      exact ⟨entry, found, .refl entry⟩
  · intro request after found
    unfold entriesOf at found ⊢
    rw [viewOf_set present] at found
    by_cases own : id = request.target
    · subst own
      rw [if_pos rfl] at found
      simp only [viewOf, present, Option.bind_some]
      exact (Node.serve_entry reachable moved same outgoing request.tag).2 after found
    · rw [if_neg own] at found
      exact ⟨after, found, .refl after⟩

end Network
end ServiceRuntime
