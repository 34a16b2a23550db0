import ServiceRuntime.Network.Calls

namespace ServiceRuntime
namespace Network

open Lua (Letter Co Answers)
open Service (ThreadPc ThreadChoice SendPc)
open Foundation

/-!
# Every reply finds its call

The steps of the service threads: a call suspends when its request has been
accepted, a reply resumes the call that sent the request, and all other steps
leave sessions alone.  The theorem about calls follows from the books.
-/

/-! ## The message a thread is sending -/

/-- The entry of the message a thread is sending. -/
theorem Linked.entry {nodes : List Node} {id : Nat} {thread : ThreadPc} {outgoing : Outgoing}
    (linked : Linked nodes id thread outgoing) {request : RequestId}
    (sent : outgoing.pending = some request) :
    Exists fun message => Exists fun entry => outbound id thread = some message ∧
      entriesOf nodes request = some entry ∧ entry.message = message ∧
      entry.caller = (bookkeeping id thread).caller ∧
      (outgoing = .returned (some request) -> entry.pc.Accepted = true) := by
  cases outgoing with
  | idle => cases sent
  | entered place =>
      cases sent
      rcases linked with ⟨message, sends, _, target, pc, found, located, booked, _⟩
      refine ⟨message, ⟨message, pc, (bookkeeping id thread).origin, (bookkeeping id thread).caller⟩,
        sends, entriesOf_eq_some.mpr ⟨target, found, Node.entry_eq_some.mpr ?_⟩, rfl, rfl,
        Outgoing.noConfusion⟩
      exact ⟨_, located, booked, rfl, rfl⟩
  | returned accepted =>
      cases sent
      rcases linked with ⟨message, sends, _, target, pc, found, located, booked, past⟩
      refine ⟨message, ⟨message, pc, (bookkeeping id thread).origin, (bookkeeping id thread).caller⟩,
        sends, entriesOf_eq_some.mpr ⟨target, found, Node.entry_eq_some.mpr ?_⟩, rfl, rfl, ?_⟩
      · exact ⟨_, located, booked, rfl, rfl⟩
      · intro _
        show pc.Accepted = true
        rw [past rfl]
        rfl

/-- A thread leaves a send with its result. -/
theorem mayStep_returned {id : Nat} {node : Node} {choice : ThreadChoice}
    (may : mayStep id node choice = true) {message : Message}
    (sends : outbound id node.service.thread = some message) :
    Exists fun accepted => node.outgoing = .returned accepted ∧
      choice = resultChoice accepted.isSome node.service.thread := by
  unfold mayStep at may
  split at may
  · rename_i nothing
    cases nothing.symm.trans sends
  · rename_i accepted _ outgoing
    exact ⟨accepted, outgoing, of_decide_eq_true may⟩
  · cases may

/-! ## What every step of a thread keeps -/

section Thread

variable {state : State} {id : Nat} {choice : ThreadChoice} {node : Node} {next : Service.State}

theorem pendingOf_serve (present : state.nodes[id]? = some node) (service : Service.State)
    (position : Nat) :
    pendingOf (state.nodes.set id { node with service, outgoing := .idle }) position =
      if id = position then none else pendingOf state.nodes position := by
  unfold pendingOf
  rw [viewOf_set present]
  rfl

theorem lookupOf_serve (present : state.nodes[id]? = some node) (service : Service.State)
    (position : Nat) (session : Session) :
    lookupOf (state.nodes.set id { node with service, outgoing := .idle }) position session =
      if id = position then service.vm.suspendLookup.lookup session
      else lookupOf state.nodes position session := by
  unfold lookupOf
  rw [viewOf_set present]

theorem lookupOf_present (present : state.nodes[id]? = some node) (session : Session) :
    lookupOf state.nodes id session = node.service.vm.suspendLookup.lookup session := by
  unfold lookupOf viewOf
  rw [present]
  rfl

theorem pendingOf_present (present : state.nodes[id]? = some node) :
    pendingOf state.nodes id = node.outgoing.pending := by
  unfold pendingOf viewOf
  rw [present]
  rfl

/-- A reply in flight is on the list of replies when its send has returned. -/
theorem thread_answered (wiring : Wiring state.nodes) (present : state.nodes[id]? = some node)
    (moved : Service.step id node.service (.thread choice) = some next) {origin : RequestId}
    (answered : AnsweredIn state.nodes origin) :
    AnsweredIn (state.nodes.set id { node with service := next, outgoing := .idle }) origin := by
  have replies := (Service.threadStep_move moved).replies
  apply exists_set present answered
  rintro rfl (⟨reply, listed, same⟩ | ⟨busy, book⟩)
  · refine Or.inl ⟨reply, ?_, same⟩
    show reply ∈ next.shared.replies
    rw [replies]
    exact List.mem_append_left _ listed
  · have linked := wiring.linked origin.target node present
    have sends : Exists fun message => outbound origin.target node.service.thread = some message := by
      cases outgoing : node.outgoing with
      | idle => exact False.elim (busy outgoing)
      | entered request =>
          rw [outgoing] at linked
          rcases linked with ⟨message, sends, _⟩
          exact ⟨message, sends⟩
      | returned accepted =>
          rw [outgoing] at linked
          cases accepted with
          | none => exact Option.isSome_iff_exists.mp linked
          | some request =>
              rcases linked with ⟨message, sends, _⟩
              exact ⟨message, sends⟩
    rcases sends with ⟨message, sends⟩
    have completes : Exists fun reply => node.service.thread.completes origin.target = some reply ∧
        reply.origin = origin.tag := by
      cases located : node.service.thread with
      | lua pc =>
          rw [located] at sends book
          cases pc with
          | sending text after =>
              cases after with
              | response co ret | failure co ret | pending co rest =>
                  refine ⟨_, rfl, ?_⟩
                  exact congrArg RequestId.tag (Option.some.inj book)
              | user site | call caller session ret => cases book
          | _ => cases sends
      | shutdown caller pc =>
          rw [located] at sends book
          cases pc with
          | drained letter =>
              simp only [outbound] at sends
              split at sends
              · rename_i awaited
                refine ⟨⟨letter.tag, stopReply origin.target letter.message⟩, if_pos awaited, ?_⟩
                exact congrArg RequestId.tag (Option.some.inj book)
              · cases sends
          | retire | close | waitPins | drain => cases sends
      | _ =>
          rw [located] at sends
          cases sends
    rcases completes with ⟨reply, complete, same⟩
    refine Or.inl ⟨reply, ?_, same⟩
    show reply ∈ next.shared.replies
    rw [replies, complete]
    exact List.mem_append_right _ List.mem_cons_self

/-- A letter that has been received stays received: a letter just popped is
not one of those. -/
theorem thread_received (reachable : (Service.machine id).Reachable node.service)
    (moved : Service.step id node.service (.thread choice) = some next) {tag : Nat}
    (received : node.Received tag) (outgoing : Outgoing) :
    Node.Received { node with service := next, outgoing } tag := by
  have valid := (Service.reachable_inbox reachable).valid
  have placed := Service.reachable_placed reachable tag
  have bound := Service.accepted_le_one node.service.calls tag
  rcases received with ⟨gone, looked⟩
  unfold Service.Shared.places at placed
  -- what has just been popped was still queued
  have popped {letter : Letter} {rest : List Letter}
      (contents : node.service.shared.box.contents = letter :: rest) : letter.tag ≠ tag := by
    rintro rfl
    have named : Service.Letter.named letter.tag letter = 1 := if_pos rfl
    rw [contents, weight_cons, named] at placed
    omega
  constructor
  · show 0 < weight (Service.Letter.named tag) next.shared.popped +
      weight (Service.Letter.named tag) next.shared.drained +
      weight (Service.Letter.named tag) next.shared.disposed
    cases (Service.threadStep_move moved).flow valid with
    | rests same hand =>
        rw [same.popped, same.drained, same.disposed]
        exact gone
    | popped empty idle takes contents popped drained disposed
    | drained empty idle takes contents popped drained disposed =>
        rw [popped, drained, disposed, weight_append]
        omega
  · intro processed letter located
    have located : next.thread = .lua (.got processed letter) := located
    have hand : next.thread.inHand = some letter := by
      rw [located]
      rfl
    cases (Service.threadStep_move moved).flow valid with
    | rests same kept =>
        rcases kept with ⟨keeps, equal⟩ | ⟨_, empty⟩
        · rw [hand] at equal
          cases stands : node.service.thread with
          | lua pc =>
              rw [stands] at equal keeps
              cases pc with
              | got count other =>
                  cases equal
                  exact looked count letter stands
              | removing | unpackRequest | unpackReply | unpackSystem => cases keeps
              | _ => cases equal
          | shutdown caller pc =>
              rw [stands] at equal keeps
              cases pc with
              | drained other => cases keeps
              | retire | close | waitPins | drain => cases equal
          | _ =>
              rw [stands] at equal
              cases equal
        · cases hand.symm.trans empty
    | popped empty idle takes contents popped' drained disposed
    | drained empty idle takes contents popped' drained disposed =>
        cases hand.symm.trans takes
        exact popped contents

theorem thread_arrived (reachable : (Service.machine id).Reachable node.service)
    (present : state.nodes[id]? = some node)
    (moved : Service.step id node.service (.thread choice) = some next) {place : RequestId}
    (arrived : ArrivedIn state.nodes place) :
    ArrivedIn (state.nodes.set id { node with service := next, outgoing := .idle }) place := by
  apply exists_set present arrived
  intro _ received
  exact thread_received reachable moved received .idle

/-- User code that only uses `service.send` and `service.call` sends nothing
else by itself. -/
theorem thread_polite {state : State} (disciplined : Disciplined state (.thread id choice))
    (moved : Service.step id node.service (.thread choice) = some next) {message : Message}
    {site : Lua.Site} (sends : next.thread = .lua (.sending message (.user site))) :
    ¬ message.Awaited ∧ ¬ Replies message := by
  rcases Service.threadStep_cases moved with
    ⟨pc, decided, located, rfl, after, luaMoved, arrives⟩ | ⟨_, unengaged, _⟩
  · have same := ThreadPc.lua.inj (arrives.symm.trans sends)
    rcases luaMoved.userSends same with ⟨_, zero⟩ | ⟨toId, session, type, payload, rfl⟩
    · constructor
      · intro awaited
        exact absurd awaited.2 (zero ▸ Nat.lt_irrefl 0)
      · intro replies
        exact absurd replies.2 (zero ▸ Nat.lt_irrefl 0)
    · exact False.elim disciplined
  · exact False.elim (unengaged.sends _ _ sends)

/-- What is the same whatever the thread does. -/
theorem thread_orderly_of (orderly : Orderly state) (wiring : Wiring state.nodes)
    (disciplined : Disciplined state (.thread id choice)) (present : state.nodes[id]? = some node)
    (moved : Service.step id node.service (.thread choice) = some next)
    {waiting : Nat -> Session -> Option RequestId} {more : List Resumption} {packed freed : List Payload}
    (ledger : Ledger
      (entriesOf (state.nodes.set id { node with service := next, outgoing := .idle }))
      (AnsweredIn (state.nodes.set id { node with service := next, outgoing := .idle }))
      (ExpectedIn waiting (state.nodes.set id { node with service := next, outgoing := .idle }))
      (ArrivedIn (state.nodes.set id { node with service := next, outgoing := .idle })))
    (sessions : Sessions
      (entriesOf (state.nodes.set id { node with service := next, outgoing := .idle }))
      (lookupOf (state.nodes.set id { node with service := next, outgoing := .idle })) waiting
      (pendingOf (state.nodes.set id { node with service := next, outgoing := .idle }))
      (state.resumed ++ more))
    (reads : forall co letter ret, next.thread = .lua (.unpackReply co letter ret) ->
      (Exists fun resumption => resumption ∈ more ∧ resumption.service = id ∧
        resumption.reply = letter.tag ∧ resumption.co = co) ∧
      Exists fun entry => entriesOf state.nodes ⟨id, letter.tag⟩ = some entry ∧
        entry.message = letter.message) :
    Orderly
      { nodes := state.nodes.set id { node with service := next, outgoing := .idle }
        waiting, resumed := state.resumed ++ more, packed, freed } := by
  have same := congrArg List.length (step_thread_calls moved)
  have follows := entriesOf_serve present (wiring.reachable id node present) moved same .idle
  have still (request : RequestId) (entry : Entry) (message : Message)
      (known : entriesOf state.nodes request = some entry) (text : entry.message = message) :
      Exists fun entry => entriesOf (state.nodes.set id
        { node with service := next, outgoing := .idle }) request = some entry ∧
          entry.message = message := by
    rcases follows.forth request entry known with ⟨after, there, order⟩
    exact ⟨after, there, order.message.trans text⟩
  refine ⟨ledger, sessions, ?_, ?_⟩
  · have others (position : Nat) (other : Node) (found : state.nodes[position]? = some other) :
        forall message site, other.service.thread = .lua (.sending message (.user site)) ->
          ¬ message.Awaited ∧ ¬ Replies message :=
      fun message site sends => orderly.polite position other message site found sends
    have everywhere : forall (position : Nat) (other : Node),
        (state.nodes.set id { node with service := next, outgoing := .idle })[position]? =
          some other ->
        forall message site, other.service.thread = .lua (.sending message (.user site)) ->
          ¬ message.Awaited ∧ ¬ Replies message :=
      forall_set others fun _ message site sends => thread_polite disciplined moved sends
    exact fun position other message site found => everywhere position other found message site
  · intro position other co letter ret found located
    by_cases own : id = position
    · subst own
      rw [List.getElem?_set_self (length_of_getElem? present)] at found
      cases found
      rcases reads co letter ret located with ⟨⟨resumption, listed, fields⟩, entry, known, text⟩
      exact ⟨⟨resumption, List.mem_append_right _ listed, fields⟩, still _ entry _ known text⟩
    · rw [List.getElem?_set_ne own] at found
      rcases orderly.reading position other co letter ret found located with
        ⟨⟨resumption, listed, fields⟩, entry, known, text⟩
      exact ⟨⟨resumption, List.mem_append_left _ listed, fields⟩, still _ entry _ known text⟩

/-! ## The three kinds of steps -/

theorem noteWaiting_keeps {outgoing : Outgoing} {before after : ThreadPc}
    (unsent : forall message caller session ret request,
      before = .lua (.sending message (.call caller session ret)) ->
      outgoing ≠ .returned (some request))
    (unread : forall co letter ret, after ≠ .lua (.unpackReply co letter ret))
    (waiting : Session -> Option RequestId) (self : Nat) :
    noteWaiting outgoing before after waiting = waiting ∧
      noteResumed self before after waiting = [] := by
  constructor
  · unfold noteWaiting
    split
    · exact False.elim (unsent _ _ _ _ _ rfl rfl)
    · exact False.elim (unread _ _ _ rfl)
    · rfl
  · unfold noteResumed
    split
    · exact False.elim (unread _ _ _ rfl)
    · rfl

/-- Neither a suspension nor a resumption. -/
theorem thread_keeps (orderly : Orderly state) (wiring : Wiring state.nodes)
    (disciplined : Disciplined state (.thread id choice)) (present : state.nodes[id]? = some node)
    (may : mayStep id node choice = true)
    (moved : Service.step id node.service (.thread choice) = some next)
    (table : next.vm.suspendLookup = node.service.vm.suspendLookup)
    (unsent : forall message caller session ret,
      node.service.thread = .lua (.sending message (.call caller session ret)) ->
      choice ≠ .lua (.sent true))
    (unread : forall co letter ret, next.thread ≠ .lua (.unpackReply co letter ret))
    (packed freed : List Payload) :
    Orderly
      { nodes := state.nodes.set id { node with service := next, outgoing := .idle }
        waiting := Function.update state.waiting id
          (noteWaiting node.outgoing node.service.thread next.thread (state.waiting id))
        resumed := state.resumed ++
          noteResumed id node.service.thread next.thread (state.waiting id)
        packed, freed } := by
  have same := congrArg List.length (step_thread_calls moved)
  have reachable := wiring.reachable id node present
  have follows := entriesOf_serve present reachable moved same .idle
  have linked := wiring.linked id node present
  have refused (message : Message) (caller : Co) (session : Session) (ret : Lua.Return)
      (request : RequestId)
      (located : node.service.thread = .lua (.sending message (.call caller session ret))) :
      node.outgoing ≠ .returned (some request) := by
    intro outgoing
    have sends : outbound id node.service.thread = some message := by
      rw [located]
      rfl
    rcases mayStep_returned may sends with ⟨accepted, returned, chosen⟩
    cases outgoing.symm.trans returned
    apply unsent message caller session ret located
    rw [chosen, located]
    rfl
  rcases noteWaiting_keeps refused unread (state.waiting id) id with ⟨waiting, resumed⟩
  rw [waiting, resumed, Function.update_eq_self]
  have lookup : lookupOf (state.nodes.set id { node with service := next, outgoing := .idle }) =
      lookupOf state.nodes := by
    funext position session
    rw [lookupOf_serve present]
    split
    · rename_i own
      subst own
      rw [lookupOf_present present, table]
    · rfl
  apply thread_orderly_of orderly wiring disciplined present moved
  · apply orderly.ledger.follows follows (fun _ => thread_answered wiring present moved) _ _
    · intro position request expected
      rcases expected with waits | sent
      · exact Or.inl (Or.inl waits)
      · by_cases own : id = position
        · subst own
          rw [pendingOf_present present] at sent
          rcases linked.entry sent with ⟨message, entry, sends, known, _, caller, _⟩
          rcases mayStep_returned may sends with ⟨accepted, returned, chosen⟩
          rw [returned] at sent
          refine Or.inr fun after there => Or.inl ?_
          rcases follows.forth request entry known with ⟨after', there', order⟩
          cases there.symm.trans there'
          rw [order.caller, caller]
          rcases outbound_cases sends with ⟨site, located⟩ | ⟨co, session, ret, located⟩ | ⟨none, _⟩
          · rw [located]
            rfl
          · cases sent
            exact False.elim (refused message co session ret request located returned)
          · exact none
        · refine Or.inl (Or.inr ?_)
          rw [pendingOf_serve present, if_neg own]
          exact sent
    · exact fun _ => thread_arrived reachable present moved
  · rw [lookup, List.append_nil]
    apply orderly.sessions.follows follows
    intro position request found
    rw [pendingOf_serve present] at found
    split at found
    · cases found
    · exact found
  · intro co letter ret located
    exact False.elim (unread co letter ret located)

/-- The request of a call has been accepted: the call suspends. -/
theorem thread_suspends (orderly : Orderly state) (wiring : Wiring state.nodes)
    (disciplined : Disciplined state (.thread id choice)) (present : state.nodes[id]? = some node)
    (may : mayStep id node choice = true)
    (moved : Service.step id node.service (.thread choice) = some next)
    {message : Message} {caller : Co} {session : Session} {ret : Lua.Return}
    (located : node.service.thread = .lua (.sending message (.call caller session ret)))
    (sent : choice = .lua (.sent true)) (unengaged : Service.Unengaged next.thread)
    (table : next.vm.suspendLookup = node.service.vm.suspendLookup.insert session caller)
    (packed freed : List Payload) :
    Orderly
      { nodes := state.nodes.set id { node with service := next, outgoing := .idle }
        waiting := Function.update state.waiting id
          (noteWaiting node.outgoing node.service.thread next.thread (state.waiting id))
        resumed := state.resumed ++
          noteResumed id node.service.thread next.thread (state.waiting id)
        packed, freed } := by
  have same := congrArg List.length (step_thread_calls moved)
  have reachable := wiring.reachable id node present
  have follows := entriesOf_serve present reachable moved same .idle
  have signed := (Service.reachable_coroutines reachable).orderly.signed
  rw [located] at signed
  have sends : outbound id node.service.thread = some message := by
    rw [located]
    rfl
  rcases mayStep_returned may sends with ⟨accepted, returned, chosen⟩
  -- the result handed to the Lua code says that the request was accepted
  have known : Exists fun request => accepted = some request := by
    rw [located, sent] at chosen
    have equal := Lua.Choice.sent.inj (ThreadChoice.lua.inj chosen)
    exact Option.isSome_iff_exists.mp equal.symm
  rcases known with ⟨request, rfl⟩
  have linked := wiring.linked id node present
  rcases linked.entry (by rw [returned]; rfl) with
    ⟨message', entry, sends', known, text, called, posted⟩
  cases sends.symm.trans sends'
  rw [located] at called
  rcases follows.accepted known (posted returned) with ⟨after, there, text', called', accepted'⟩
  have free : lookupOf state.nodes id session = none := by
    rw [lookupOf_present present]
    exact signed.2.2.2
  have unread : noteResumed id node.service.thread next.thread (state.waiting id) = [] := by
    unfold noteResumed
    split
    · rename_i stands
      exact False.elim (unengaged.reads _ _ _ stands)
    · rfl
  have waiting : noteWaiting node.outgoing node.service.thread next.thread (state.waiting id) =
      Function.update (state.waiting id) session (some request) := by
    rw [located, returned]
    rfl
  have elsewhere (position : Nat) (other : Session) (apart : ¬ (position = id ∧ other = session)) :
      Function.update state.waiting id
        (Function.update (state.waiting id) session (some request)) position other =
      state.waiting position other := by
    by_cases own : position = id
    · subst own
      rw [Function.update_self, Function.update_of_ne fun equal => apart ⟨rfl, equal⟩]
    · rw [Function.update_of_ne own]
  have here : Function.update state.waiting id
      (Function.update (state.waiting id) session (some request)) id session = some request := by
    rw [Function.update_self, Function.update_self]
  rw [waiting, unread]
  apply thread_orderly_of orderly wiring disciplined present moved
  · apply orderly.ledger.follows follows (fun _ => thread_answered wiring present moved) _ _
    · intro position other expected
      left
      rcases expected with ⟨session', waits⟩ | pending
      · refine Or.inl ⟨session', ?_⟩
        rw [elsewhere position session', waits]
        rintro ⟨rfl, rfl⟩
        rcases orderly.sessions.waits _ _ _ waits with ⟨co, _, registered, _⟩
        cases free.symm.trans registered
      · by_cases own : id = position
        · subst own
          rw [pendingOf_present present, returned] at pending
          cases pending
          exact Or.inl ⟨session, here⟩
        · refine Or.inr ?_
          rw [pendingOf_serve present, if_neg own]
          exact pending
    · exact fun _ => thread_arrived reachable present moved
  · rw [List.append_nil]
    have moved' := orderly.sessions.follows follows (fun _ _ found => found)
    refine moved'.suspend ?_ there (called'.trans called) ?_ accepted' ?_ ?_ here elsewhere ?_
    · rw [pendingOf_present present, returned]
      rfl
    · rw [text', text]
      exact signed.2.1
    · rw [lookupOf_serve present, if_pos rfl, table]
      exact AList.lookup_insert _
    · intro position other apart
      rw [lookupOf_serve present]
      split
      · rename_i own
        subst own
        rw [lookupOf_present present, table]
        exact AList.lookup_insert_ne fun equal => apart ⟨rfl, equal⟩
      · rfl
    · intro position other found
      rw [pendingOf_serve present] at found
      split at found
      · cases found
      · rename_i apart
        exact ⟨found, Ne.symm apart⟩
  · intro co letter ret' stands
    exact False.elim (unengaged.reads co letter ret' stands)

/-- A reply that has been popped is expected: its session is registered for the
request it answers. -/
theorem got_expected (orderly : Orderly state) (wiring : Wiring state.nodes)
    (present : state.nodes[id]? = some node) {processed : Nat} {letter : Letter}
    (located : node.service.thread = .lua (.got processed letter))
    (replies : Replies letter.message) :
    Exists fun entry => Exists fun origin => Exists fun co =>
      entriesOf state.nodes ⟨id, letter.tag⟩ = some entry ∧ entry.message = letter.message ∧
        entry.origin = some origin ∧ state.waiting id letter.message.session = some origin ∧
        node.service.vm.suspendLookup.lookup letter.message.session = some co := by
  have carries := (Service.reachable_accounts (wiring.reachable id node present)).carries
  rw [located] at carries
  have known : Exists fun pc => node.service.calls[letter.tag]? = some (.send letter.message pc) := by
    have carries : node.service.requests letter.tag = some letter.message := carries
    unfold Service.State.requests at carries
    split at carries
    · cases carries
      exact ⟨_, by assumption⟩
    · cases carries
  rcases known with ⟨pc, stands⟩
  have below : letter.tag < node.posts.length := by
    rw [wiring.parallel id node present]
    exact length_of_getElem? stands
  have there : entriesOf state.nodes ⟨id, letter.tag⟩ =
      some ⟨letter.message, pc, node.posts[letter.tag].origin, node.posts[letter.tag].caller⟩ := by
    refine entriesOf_eq_some.mpr ⟨node, present, Node.entry_eq_some.mpr ?_⟩
    exact ⟨_, stands, List.getElem?_eq_getElem below, rfl, rfl⟩
  rcases orderly.ledger.replies _ _ there replies with ⟨origin, answering⟩
  rcases orderly.ledger.arriving _ _ origin there answering with expected | ⟨other, found, _, looked⟩
  · rcases expected with ⟨session, waits⟩ | sent
    · rcases orderly.sessions.waits id session origin waits with
        ⟨co, asked, registered, known, _, carried, _⟩
      rcases orderly.ledger.origins _ _ origin there answering with ⟨_, asked', known', answers, _⟩
      cases known.symm.trans known'
      have same : letter.message.session = session := answers.session.trans carried
      rw [lookupOf_present present] at registered
      rw [same]
      exact ⟨_, origin, co, there, rfl, answering, waits, registered⟩
    · rw [pendingOf_present present] at sent
      rcases (wiring.linked id node present).entry sent with ⟨message, _, sends, _⟩
      rw [located] at sends
      cases sends
  · cases present.symm.trans found
    exact False.elim (looked processed letter located rfl)

/-- A reply is dispatched: the call that expects it is resumed. -/
theorem thread_resumes (orderly : Orderly state) (wiring : Wiring state.nodes)
    (disciplined : Disciplined state (.thread id choice)) (present : state.nodes[id]? = some node)
    (moved : Service.step id node.service (.thread choice) = some next)
    {processed : Nat} {letter : Letter} {co : Co} {ret : Lua.Return}
    (located : node.service.thread = .lua (.got processed letter))
    (arrives : next.thread = .lua (.unpackReply co letter ret)) (replies : Replies letter.message)
    (waits : node.service.vm.suspendLookup.lookup letter.message.session = some co)
    (table : next.vm.suspendLookup = node.service.vm.suspendLookup.erase letter.message.session)
    (packed freed : List Payload) :
    Orderly
      { nodes := state.nodes.set id { node with service := next, outgoing := .idle }
        waiting := Function.update state.waiting id
          (noteWaiting node.outgoing node.service.thread next.thread (state.waiting id))
        resumed := state.resumed ++
          noteResumed id node.service.thread next.thread (state.waiting id)
        packed, freed } := by
  have same := congrArg List.length (step_thread_calls moved)
  have reachable := wiring.reachable id node present
  have follows := entriesOf_serve present reachable moved same .idle
  rcases got_expected orderly wiring present located replies with
    ⟨entry, origin, co', there, text, answering, expects, registered⟩
  cases waits.symm.trans registered
  rcases follows.forth _ entry there with ⟨after, there', order⟩
  have received : Node.Received { node with service := next, outgoing := .idle } letter.tag := by
    have held := (Service.reachable_coroutines reachable).present letter.tag
    have own : (Lua.Pc.got processed letter).holds letter.tag = 1 := if_pos rfl
    have control : node.service.thread.control = .got processed letter := by
      rw [located]
      rfl
    rw [control] at held
    simp only [Lua.Vm.present, own] at held
    have popped : next.shared.popped = node.service.shared.popped := by
      have valid := (Service.reachable_inbox reachable).valid
      cases (Service.threadStep_move moved).flow valid with
      | rests kept hand => exact kept.popped
      | popped empty | drained empty =>
          rw [located] at empty
          cases empty
    constructor
    · show 0 < weight (Service.Letter.named letter.tag) next.shared.popped + _ + _
      rw [popped]
      omega
    · intro count other stands
      cases arrives.symm.trans stands
  have waiting : noteWaiting node.outgoing node.service.thread next.thread (state.waiting id) =
      Function.update (state.waiting id) letter.message.session none := by
    rw [located, arrives]
    rfl
  have resumed : noteResumed id node.service.thread next.thread (state.waiting id) =
      [⟨id, letter.tag, co, some origin⟩] := by
    rw [located, arrives]
    show [Resumption.mk id letter.tag co (state.waiting id letter.message.session)] = _
    rw [expects]
  have elsewhere (position : Nat) (other : Session)
      (apart : ¬ (position = id ∧ other = letter.message.session)) :
      Function.update state.waiting id
        (Function.update (state.waiting id) letter.message.session none) position other =
      state.waiting position other := by
    by_cases own : position = id
    · subst own
      rw [Function.update_self, Function.update_of_ne fun equal => apart ⟨rfl, equal⟩]
    · rw [Function.update_of_ne own]
  have here : Function.update state.waiting id
      (Function.update (state.waiting id) letter.message.session none) id letter.message.session =
      none := by
    rw [Function.update_self, Function.update_self]
  have unsent : pendingOf state.nodes id = none := by
    cases sent : pendingOf state.nodes id with
    | none => rfl
    | some request =>
        rw [pendingOf_present present] at sent
        rcases (wiring.linked id node present).entry sent with ⟨message, _, sends, _⟩
        rw [located] at sends
        cases sends
  rw [waiting, resumed]
  apply thread_orderly_of orderly wiring disciplined present moved
  · have kept := orderly.ledger.follows follows (fun _ => thread_answered wiring present moved)
      (fun _ _ expected => Or.inl expected) (fun _ => thread_arrived reachable present moved)
    refine kept.resume there' (order.origin.trans answering) ?_ (fun _ arrived => arrived) ?_
    · intro position request expected
      rcases expected with ⟨session, waits'⟩ | sent
      · by_cases own : position = id ∧ session = letter.message.session
        · rcases own with ⟨rfl, rfl⟩
          cases expects.symm.trans waits'
          exact Or.inr rfl
        · refine Or.inl (Or.inl ⟨session, ?_⟩)
          rw [elsewhere position session own]
          exact waits'
      · refine Or.inl (Or.inr ?_)
        rw [pendingOf_serve present]
        split
        · rename_i own
          subst own
          cases unsent.symm.trans sent
        · exact sent
    · exact ⟨_, List.getElem?_set_self (length_of_getElem? present), received⟩
  · have kept := orderly.sessions.follows follows (fun _ _ found => found)
    refine kept.resume expects ?_ there' (order.origin.trans answering) ?_ ?_ here elsewhere ?_
    · rw [lookupOf_present present]
      exact waits
    · rw [lookupOf_serve present, if_pos rfl, table]
      exact AList.lookup_erase _ _
    · intro position other apart
      rw [lookupOf_serve present]
      split
      · rename_i own
        subst own
        rw [lookupOf_present present, table]
        exact AList.lookup_erase_ne fun equal => apart ⟨rfl, equal⟩
      · rfl
    · intro position request found
      rw [pendingOf_serve present] at found
      split at found
      · cases found
      · exact found
  · intro co' letter' ret' stands
    cases arrives.symm.trans stands
    exact ⟨⟨_, List.mem_singleton.mpr rfl, rfl, rfl, rfl⟩, entry, there, text⟩

end Thread

/-! ## Whole runs -/

theorem step_orderly {state next : State} {action : Action} (orderly : Orderly state)
    (wiring : Wiring state.nodes) (disciplined : Disciplined state action)
    (stepped : step state action = some next) : Orderly next := by
  cases step_move stepped with
  | register fresh => exact (register_undisturbed state _).orderly orderly
  | call silent => exact (call_undisturbed wiring _ silent _).orderly orderly
  | advance present moved => exact (advance_undisturbed wiring present moved _).orderly orderly
  | thread present may moved fresh =>
      cases Service.step_sessions moved with
      | suspends located sent unengaged table =>
          exact thread_suspends orderly wiring disciplined present may moved located sent unengaged
            table _ _
      | resumes located arrives type positive waits table =>
          exact thread_resumes orderly wiring disciplined present moved located arrives
            ⟨type, positive⟩ waits table _ _
      | keeps table unsent unread =>
          exact thread_keeps orderly wiring disciplined present may moved table unsent unread _ _
  | post present sends idle found => exact post_orderly orderly wiring present sends idle found
  | misdirect present sends idle =>
      refine (leave_undisturbed present Outgoing.noConfusion ?_ ?_ _).orderly orderly
      · intro request impossible
        cases impossible
      · intro request sent
        rw [idle] at sent
        cases sent
  | collect present entered found returned =>
      exact (collect_undisturbed present entered found returned _).orderly orderly
  | hostSend fresh found => exact hostSend_orderly orderly wiring disciplined found _
  | hostMisdirect fresh => exact ⟨orderly.ledger, orderly.sessions, orderly.polite, orderly.reading⟩
  | hostCollect present found host returned =>
      exact (hostCollect_undisturbed state _ _ _).orderly orderly

theorem empty_orderly : Orderly .empty := by
  have nothing (request : RequestId) (entry : Entry)
      (found : entriesOf State.empty.nodes request = some entry) : False := by
    cases found
  constructor
  · constructor
    · exact fun _ _ found => False.elim (nothing _ _ found)
    · exact fun _ _ _ _ found => False.elim (nothing _ _ found)
    · exact fun _ _ found => False.elim (nothing _ _ found)
    · exact fun _ _ _ found => False.elim (nothing _ _ found)
    · exact fun _ _ _ found => False.elim (nothing _ _ found)
    · exact fun _ _ _ _ _ found => False.elim (nothing _ _ found)
    · exact fun _ _ _ found => False.elim (nothing _ _ found)
    · exact fun _ _ _ _ found => False.elim (nothing _ _ found)
  · constructor
    · intro id session co found
      cases found
    · intro id session request found
      cases found
    · intro id request found
      cases found
    · intro resumption listed
      cases listed
    · intro id session request found
      cases found
    · intro id request found
      cases found
    · exact List.nodup_nil
  · intro id node message site present
    cases present
  · intro id node co letter ret present
    cases present

theorem reachable_orderly {state : State}
    (reachable : (machine.restrict Disciplined).Reachable state) :
    Orderly state ∧ Wiring state.nodes := by
  apply reachable.invariant
  · rintro start rfl
    exact ⟨empty_orderly, empty_wiring⟩
  · intro state action next holds moved
    rcases Machine.restrict_step_eq_some moved with ⟨disciplined, stepped⟩
    exact ⟨step_orderly holds.1 holds.2 disciplined stepped, move_wiring holds.2 (step_move stepped)⟩

/-! ## The theorem -/

/-- The call made by coroutine `co` of service `id` in `request`, and the reply
`reply` made for it: the request was accepted by its target, the reply carries
its session, comes from that target and was made for this request. -/
structure Matched (nodes : List Node) (id reply : Nat) (co : Co) (request : RequestId)
    (answer : Message) : Prop where
  asked : Exists fun target => Exists fun message => Exists fun pc => Exists fun post =>
    nodes[request.target]? = some target ∧
      target.service.calls[request.tag]? = some (.send message pc) ∧ pc.Accepted = true ∧
      target.posts[request.tag]? = some post ∧ post.caller = some (id, co) ∧
      message.fromId = id ∧ message.Awaited ∧ answer.session = message.session ∧
      answer.toId = id
  answered : Exists fun node => Exists fun pc => Exists fun post => nodes[id]? = some node ∧
    node.service.calls[reply]? = some (.send answer pc) ∧ node.posts[reply]? = some post ∧
      post.origin = some request
  sender : answer.fromId = request.target

/-- What a pool guarantees about calls. -/
structure Matching (state : State) : Prop where
  /-- Whoever was resumed in a call was resumed by the reply to its own
  request. -/
  resumed : forall resumption, resumption ∈ state.resumed -> Exists fun request =>
    Exists fun answer => resumption.request = some request ∧
      Matched state.nodes resumption.service resumption.reply resumption.co request answer
  /-- What a resumed call returns is the content of that reply. -/
  returns : forall (id : Nat) node co letter ret, state.nodes[id]? = some node ->
    node.service.thread = .lua (.unpackReply co letter ret) -> Exists fun request =>
      (⟨id, letter.tag, co, some request⟩ : Resumption) ∈ state.resumed ∧
        Matched state.nodes id letter.tag co request letter.message
  replyOnce : (state.resumed.map fun resumption => (resumption.service, resumption.reply)).Nodup
  callOnce : (state.resumed.map Resumption.request).Nodup
  /-- A reply that is being dispatched finds the call it was made for. -/
  known : forall (id : Nat) node processed letter, state.nodes[id]? = some node ->
    node.service.thread = .lua (.got processed letter) -> Replies letter.message ->
    Exists fun request => Exists fun co =>
      node.service.vm.suspendLookup.lookup letter.message.session = some co ∧
        state.waiting id letter.message.session = some request ∧
        Matched state.nodes id letter.tag co request letter.message
  /-- A suspended call is in the table once, and no timer and no coroutine has
  it as well. -/
  suspended : forall (id : Nat) node session co, state.nodes[id]? = some node ->
    node.service.vm.suspendLookup.lookup session = some co ->
    (forall other, node.service.vm.suspendLookup.lookup other = some co -> other = session) ∧
      co ∉ node.service.vm.yielded ∧ node.service.thread.control.runs ≠ some co

theorem Orderly.matched {state : State} (orderly : Orderly state) {id tag : Nat} {co : Co}
    {request : RequestId} {reply asked : Entry}
    (there : entriesOf state.nodes ⟨id, tag⟩ = some reply) (answering : reply.origin = some request)
    (known : entriesOf state.nodes request = some asked) (called : asked.caller = some (id, co)) :
    Matched state.nodes id tag co request reply.message := by
  rcases orderly.ledger.origins _ reply request there answering with
    ⟨sender, asked', known', answers, accepted⟩
  cases known.symm.trans known'
  have caller := orderly.ledger.callers request asked id co known called
  rcases entriesOf_eq_some.mp known with ⟨target, found, inside⟩
  rcases Node.entry_eq_some.mp inside with ⟨post, located, booked, _, same⟩
  rcases entriesOf_eq_some.mp there with ⟨node, found', inside'⟩
  rcases Node.entry_eq_some.mp inside' with ⟨post', located', booked', origin, _⟩
  refine ⟨⟨target, asked.message, asked.pc, post, found, located, accepted, booked,
    same.trans called, caller.2, caller.1, answers.session, answers.address.trans caller.2⟩, ?_, sender⟩
  exact ⟨node, reply.pc, post', found', located', booked', origin.trans answering⟩

theorem rpc_matching {state : State} (reachable : (machine.restrict Disciplined).Reachable state) :
    Matching state := by
  rcases reachable_orderly reachable with ⟨orderly, wiring⟩
  have resumed (resumption : Resumption) (listed : resumption ∈ state.resumed) :
      Exists fun request => Exists fun reply => resumption.request = some request ∧
        entriesOf state.nodes ⟨resumption.service, resumption.reply⟩ = some reply ∧
        reply.origin = some request ∧ Matched state.nodes resumption.service resumption.reply
          resumption.co request reply.message := by
    rcases orderly.sessions.matched resumption listed with
      ⟨request, reply, asked, same, there, answering, known, called, _⟩
    exact ⟨request, reply, same, there, answering, orderly.matched there answering known called⟩
  refine ⟨?_, ?_, ?_, orderly.sessions.once, ?_, ?_⟩
  · intro resumption listed
    rcases resumed resumption listed with ⟨request, reply, same, _, _, matched⟩
    exact ⟨request, reply.message, same, matched⟩
  · intro id node co letter ret present located
    rcases orderly.reading id node co letter ret present located with
      ⟨⟨resumption, listed, rfl, tag, rfl⟩, entry, there, text⟩
    rcases resumed resumption listed with ⟨request, reply, same, there', _, matched⟩
    rw [tag] at there' matched
    cases there.symm.trans there'
    rw [text] at matched
    refine ⟨request, ?_, matched⟩
    rw [← tag, ← same]
    exact listed
  · -- two resumptions by one reply would be two for the request it answers
    have request : state.resumed.map Resumption.request =
        (state.resumed.map fun resumption => (resumption.service, resumption.reply)).map
          fun key => (entriesOf state.nodes ⟨key.1, key.2⟩).bind Entry.origin := by
      rw [List.map_map]
      apply List.map_congr_left
      intro resumption listed
      rcases resumed resumption listed with ⟨request, reply, same, there, answering, _⟩
      simp only [Function.comp_apply, there, Option.bind_some, answering, same]
    have once := orderly.sessions.once
    rw [request] at once
    exact List.Nodup.of_map _ once
  · intro id node processed letter present located replies
    rcases got_expected orderly wiring present located replies with
      ⟨entry, request, co, there, text, answering, waits, registered⟩
    rcases orderly.sessions.waits id _ request waits with ⟨co', asked, registered', known, called, _⟩
    rw [lookupOf_present present] at registered'
    cases registered.symm.trans registered'
    refine ⟨request, co, registered, waits, ?_⟩
    rw [← text]
    exact orderly.matched there answering known called
  · intro id node session co present waits
    exact Service.reachable_suspended_once (wiring.reachable id node present) waits

/-- Service 0 gets a message from the host, and its handler calls service 1,
which answers. -/
def callRun : List Action :=
  let free : Service.Outcome := ⟨none, 0⟩
  let blank : Letter := ⟨⟨0, 0, 0, .system, none⟩, 0⟩
  let begin (id : Nat) : List Action :=
    [.call id .start, .advance id 0 free] ++ List.replicate 11 (.thread id .next)
  let receive (id : Nat) : List Action :=
    [.thread id .wakeInbox, .thread id .next, .thread id (.lua .next), .thread id .next,
      .thread id .next, .thread id (.lua .next)]
  List.flatten
    [[.register 2 [blank, blank], .register 2 [blank, blank]], begin 0, begin 1,
      [.hostSend ⟨0, 0, 0, .request, some 0⟩], List.replicate 5 (.advance 0 1 free),
      [.hostCollect 0 1], receive 0,
      [.thread 0 (.lua .decoded), .thread 0 (.lua (.call 1 1)), .post 0],
      List.replicate 5 (.advance 1 1 free),
      [.collect 0, .thread 0 (.lua (.sent true)), .thread 0 (.lua .next), .thread 0 .next,
        .thread 0 .next, .thread 0 (.lua .next), .thread 0 (.lua .done), .thread 0 .next,
        .thread 0 .next],
      receive 1, [.thread 1 (.lua .decoded), .thread 1 (.lua (.finish 2)), .post 1],
      List.replicate 5 (.advance 0 2 free), [.collect 1, .thread 1 (.lua (.sent true))], receive 0]

theorem rpc_matching_answered :
    Exists fun state => (machine.restrict Disciplined).Reachable state ∧
      state.resumed = [⟨0, 2, 1, some ⟨1, 1⟩⟩] ∧ Matching state := by
  have ends : ((machine.restrict Disciplined).run .empty callRun).any (fun final => decide
      (final.resumed = [⟨0, 2, 1, some ⟨1, 1⟩⟩])) = true := by
    decide +kernel
  rcases (machine.restrict Disciplined).exists_reachable rfl ends with ⟨state, reachable, resumed⟩
  exact ⟨state, reachable, resumed, rpc_matching reachable⟩

end Network
end ServiceRuntime
