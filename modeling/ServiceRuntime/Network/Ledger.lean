import ServiceRuntime.Network.Wiring

namespace ServiceRuntime
namespace Network

open Lua (Letter Co Answers)
open Service (SendPc SendResult)

/-!
# The books of all calls

The sends of a whole pool as one map from positions to entries, with what the
services know about them: which requests have been answered, which replies are
still expected, and which have arrived.  A pool changes its books in three
ways only.  A send is entered, a reply is taken out and resumes the call that
expects it, or everything known stays true.

Nothing here mentions a state of the pool; the next module supplies the maps.
-/

/-- A `service_send` in the books of its target. -/
structure Entry where
  message : Message
  pc : SendPc
  origin : Option RequestId
  caller : Option (Nat × Co)

abbrev Entries := RequestId -> Option Entry

/-- A RESPONSE or ERROR the dispatcher looks up a session for. -/
def Replies (message : Message) : Prop :=
  (message.type = .response ∨ message.type = .error) ∧ 0 < message.session

instance (message : Message) : Decidable (Replies message) :=
  inferInstanceAs (Decidable (_ ∧ _))

/-- The send was refused. -/
def Entry.Failed (entry : Entry) : Prop :=
  Exists fun result => entry.pc = .returned result ∧ result ≠ .ok

theorem Entry.not_failed_of_accepted {entry : Entry} (accepted : entry.pc.Accepted = true) :
    ¬ entry.Failed := by
  rintro ⟨result, returned, refused⟩
  rw [returned] at accepted
  cases result with
  | ok => exact refused rfl
  | full | notFound | stopping | stopped => cases accepted

/-! ## Time passes -/

/-- The same entry at a later point of its call. -/
structure Entry.Later (entry later : Entry) : Prop where
  message : later.message = entry.message
  origin : later.origin = entry.origin
  caller : later.caller = entry.caller
  pc : SendPc.Later entry.pc later.pc

theorem Entry.Later.refl (entry : Entry) : entry.Later entry :=
  ⟨rfl, rfl, rfl, .refl entry.pc⟩

theorem Entry.Later.failed {entry later : Entry} (order : entry.Later later) (failed : entry.Failed) :
    later.Failed := by
  rcases failed with ⟨result, returned, refused⟩
  exact ⟨result, order.pc.2 result returned, refused⟩

/-- The same entries at a later point. -/
structure Follows (entries later : Entries) : Prop where
  forth : forall request entry, entries request = some entry ->
    Exists fun after => later request = some after ∧ entry.Later after
  back : forall request after, later request = some after ->
    Exists fun entry => entries request = some entry ∧ entry.Later after

theorem Follows.refl (entries : Entries) : Follows entries entries :=
  ⟨fun _ entry found => ⟨entry, found, .refl entry⟩, fun _ entry found => ⟨entry, found, .refl entry⟩⟩

theorem Follows.of_eq {entries later : Entries} (same : later = entries) : Follows entries later :=
  same ▸ .refl entries

/-! ## Requests and their replies -/

/-- The books are in order: every awaited request names its caller, every
reply names the accepted request it answers, no request is answered twice, a
reply is expected until it arrives, and a call expects its reply until there
is one. -/
structure Ledger (entries : Entries) (answered : RequestId -> Prop)
    (expected : Nat -> RequestId -> Prop) (arrived : RequestId -> Prop) : Prop where
  requests : forall request entry, entries request = some entry -> entry.message.Awaited ->
    Exists fun co => entry.caller = some (entry.message.fromId, co)
  callers : forall request entry id co, entries request = some entry ->
    entry.caller = some (id, co) -> entry.message.Awaited ∧ entry.message.fromId = id
  replies : forall request entry, entries request = some entry -> Replies entry.message ->
    Exists fun origin => entry.origin = some origin
  origins : forall request entry origin, entries request = some entry ->
    entry.origin = some origin -> entry.message.fromId = origin.target ∧
      Exists fun asked => entries origin = some asked ∧ Answers entry.message asked.message ∧
        asked.pc.Accepted = true
  given : forall request entry origin, entries request = some entry ->
    entry.origin = some origin -> answered origin
  unique : forall request entry other beside origin, entries request = some entry ->
    entries other = some beside -> entry.origin = some origin -> beside.origin = some origin ->
    request = other
  arriving : forall request entry origin, entries request = some entry ->
    entry.origin = some origin -> expected request.target origin ∨ arrived request
  asked : forall request entry id co, entries request = some entry ->
    entry.caller = some (id, co) -> ¬ entry.Failed -> expected id request ∨
      Exists fun other => Exists fun reply => entries other = some reply ∧
        reply.origin = some request

section Ledger

variable {entries later : Entries} {answered answered' : RequestId -> Prop}
  {expected expected' : Nat -> RequestId -> Prop} {arrived arrived' : RequestId -> Prop}

/-- Nothing is entered.  An expectation may be given up where the request was
refused, or was not made by a call. -/
theorem Ledger.follows (ledger : Ledger entries answered expected arrived)
    (follows : Follows entries later) (answers : forall origin, answered origin -> answered' origin)
    (expects : forall id request, expected id request -> expected' id request ∨
      forall entry, later request = some entry -> entry.caller = none ∨ entry.Failed)
    (arrives : forall request, arrived request -> arrived' request) :
    Ledger later answered' expected' arrived' := by
  have still (request : RequestId) (entry : Entry) (found : later request = some entry) :
      Exists fun before => entries request = some before ∧ entry.message = before.message ∧
        entry.origin = before.origin ∧ entry.caller = before.caller := by
    rcases follows.back request entry found with ⟨before, present, order⟩
    exact ⟨before, present, order.message, order.origin, order.caller⟩
  have origins (request : RequestId) (entry : Entry) (origin : RequestId)
      (found : later request = some entry) (answering : entry.origin = some origin) :
      entry.message.fromId = origin.target ∧ Exists fun asked => later origin = some asked ∧
        Answers entry.message asked.message ∧ asked.pc.Accepted = true := by
    rcases still request entry found with ⟨before, present, message, same, _⟩
    rw [same] at answering
    rcases ledger.origins request before origin present answering with
      ⟨sender, asked, known, replies, accepted⟩
    rcases follows.forth origin asked known with ⟨after, there, order⟩
    rw [message]
    exact ⟨sender, after, there, order.message ▸ replies, order.pc.1 accepted⟩
  refine ⟨?_, ?_, ?_, origins, ?_, ?_, ?_, ?_⟩
  · intro request entry found awaited
    rcases still request entry found with ⟨before, present, message, _, caller⟩
    rw [message] at awaited ⊢
    rw [caller]
    exact ledger.requests request before present awaited
  · intro request entry id co found called
    rcases still request entry found with ⟨before, present, message, _, caller⟩
    rw [caller] at called
    rw [message]
    exact ledger.callers request before id co present called
  · intro request entry found replies
    rcases still request entry found with ⟨before, present, message, origin, _⟩
    rw [message] at replies
    rw [origin]
    exact ledger.replies request before present replies
  · intro request entry origin found answering
    rcases still request entry found with ⟨before, present, _, same, _⟩
    exact answers origin (ledger.given request before origin present (same ▸ answering))
  · intro request entry other beside origin found found' answering answering'
    rcases still request entry found with ⟨before, present, _, same, _⟩
    rcases still other beside found' with ⟨before', present', _, same', _⟩
    exact ledger.unique request before other before' origin present present' (same ▸ answering)
      (same' ▸ answering')
  · intro request entry origin found answering
    rcases still request entry found with ⟨before, present, _, same, _⟩
    rcases ledger.arriving request before origin present (same ▸ answering) with waits | gone
    · rcases expects _ _ waits with still' | given
      · exact Or.inl still'
      · rcases origins request entry origin found answering with ⟨_, asked, known, replies, accepted⟩
        rcases follows.back origin asked known with ⟨request', present', order⟩
        have awaited : request'.message.Awaited := order.message ▸ replies.awaited
        rcases ledger.requests origin request' present' awaited with ⟨co, called⟩
        rcases given asked known with none | failed
        · cases none.symm.trans (order.caller.trans called)
        · exact False.elim (Entry.not_failed_of_accepted accepted failed)
    · exact Or.inr (arrives request gone)
  · intro request entry id co found called sound
    rcases follows.back request entry found with ⟨before, present, order⟩
    rw [order.caller] at called
    rcases ledger.asked request before id co present called (fun failed => sound (order.failed failed))
      with waits | ⟨other, reply, there, answering⟩
    · rcases expects id request waits with still' | given
      · exact Or.inl still'
      · rcases given entry found with none | failed
        · cases none.symm.trans (order.caller.trans called)
        · exact False.elim (sound failed)
    · rcases follows.forth other reply there with ⟨after, there', order'⟩
      exact Or.inr ⟨other, after, there', order'.origin.trans answering⟩

/-- What a new entry must bring along. -/
structure Honest (entries : Entries) (answered answered' : RequestId -> Prop)
    (expected' : Nat -> RequestId -> Prop) (place : RequestId) (entry : Entry) : Prop where
  target : place.target = entry.message.toId
  request : entry.message.Awaited -> Exists fun co => entry.caller = some (entry.message.fromId, co)
  caller : forall id co, entry.caller = some (id, co) -> entry.message.Awaited ∧
    entry.message.fromId = id ∧ expected' id place
  reply : Replies entry.message -> Exists fun origin => entry.origin = some origin
  origin : forall origin, entry.origin = some origin -> entry.message.fromId = origin.target ∧
    (Exists fun asked => entries origin = some asked ∧ Answers entry.message asked.message ∧
      asked.pc.Accepted = true) ∧ ¬ answered origin ∧ answered' origin

/-- A reply that has not been given yet is still expected. -/
theorem Ledger.expects (ledger : Ledger entries answered expected arrived) {origin : RequestId}
    {asked : Entry} (known : entries origin = some asked) (awaited : asked.message.Awaited)
    (accepted : asked.pc.Accepted = true) (open' : ¬ answered origin) :
    expected asked.message.fromId origin := by
  rcases ledger.requests origin asked known awaited with ⟨co, called⟩
  rcases ledger.asked origin asked _ co known called (Entry.not_failed_of_accepted accepted) with
    waits | ⟨other, reply, there, answering⟩
  · exact waits
  · exact False.elim (open' (ledger.given other reply origin there answering))

/-- A send is entered. -/
theorem Ledger.post (ledger : Ledger entries answered expected arrived) {place : RequestId}
    {new : Entry} (free : entries place = none)
    (honest : Honest entries answered answered' expected' place new)
    (answers : forall origin, answered origin -> answered' origin)
    (expects : forall id request, expected id request -> expected' id request)
    (arrives : forall request, arrived request -> arrived' request) :
    Ledger (Function.update entries place (some new)) answered' expected' arrived' := by
  have cases (request : RequestId) (entry : Entry)
      (found : Function.update entries place (some new) request = some entry) :
      (request = place ∧ entry = new) ∨ (request ≠ place ∧ entries request = some entry) := by
    by_cases same : request = place
    · subst same
      rw [Function.update_self] at found
      exact Or.inl ⟨rfl, (Option.some.inj found).symm⟩
    · rw [Function.update_of_ne same] at found
      exact Or.inr ⟨same, found⟩
  have old (request : RequestId) (entry : Entry) (found : entries request = some entry) :
      Function.update entries place (some new) request = some entry := by
    rw [Function.update_of_ne, found]
    rintro rfl
    cases free.symm.trans found
  refine ⟨?_, ?_, ?_, ?_, ?_, ?_, ?_, ?_⟩
  · intro request entry found
    rcases cases request entry found with ⟨rfl, rfl⟩ | ⟨_, present⟩
    · exact honest.request
    · exact ledger.requests request entry present
  · intro request entry id co found called
    rcases cases request entry found with ⟨rfl, rfl⟩ | ⟨_, present⟩
    · have caller := honest.caller id co called
      exact ⟨caller.1, caller.2.1⟩
    · exact ledger.callers request entry id co present called
  · intro request entry found
    rcases cases request entry found with ⟨rfl, rfl⟩ | ⟨_, present⟩
    · exact honest.reply
    · exact ledger.replies request entry present
  · intro request entry origin found answering
    rcases cases request entry found with ⟨rfl, rfl⟩ | ⟨_, present⟩
    · rcases honest.origin origin answering with ⟨sender, ⟨asked, known, rest⟩, _⟩
      exact ⟨sender, asked, old origin asked known, rest⟩
    · rcases ledger.origins request entry origin present answering with ⟨sender, asked, known, rest⟩
      exact ⟨sender, asked, old origin asked known, rest⟩
  · intro request entry origin found answering
    rcases cases request entry found with ⟨rfl, rfl⟩ | ⟨_, present⟩
    · exact (honest.origin origin answering).2.2.2
    · exact answers origin (ledger.given request entry origin present answering)
  · intro request entry other beside origin found found' answering answering'
    rcases cases request entry found with ⟨rfl, rfl⟩ | ⟨_, present⟩ <;>
      rcases cases other beside found' with ⟨rfl, rfl⟩ | ⟨_, present'⟩
    · rfl
    · exact False.elim ((honest.origin origin answering).2.2.1
        (ledger.given other beside origin present' answering'))
    · exact False.elim ((honest.origin origin answering').2.2.1
        (ledger.given request entry origin present answering))
    · exact ledger.unique request entry other beside origin present present' answering answering'
  · intro request entry origin found answering
    rcases cases request entry found with ⟨rfl, rfl⟩ | ⟨_, present⟩
    · rcases honest.origin origin answering with ⟨_, ⟨asked, known, replies, accepted⟩, open', _⟩
      have waits := ledger.expects known replies.awaited accepted open'
      rw [honest.target, replies.address]
      exact Or.inl (expects _ _ waits)
    · rcases ledger.arriving request entry origin present answering with waits | gone
      · exact Or.inl (expects _ _ waits)
      · exact Or.inr (arrives _ gone)
  · intro request entry id co found called sound
    rcases cases request entry found with ⟨rfl, rfl⟩ | ⟨_, present⟩
    · exact Or.inl (honest.caller id co called).2.2
    · rcases ledger.asked request entry id co present called sound with
        waits | ⟨other, reply, there, answering⟩
      · exact Or.inl (expects _ _ waits)
      · exact Or.inr ⟨other, reply, old other reply there, answering⟩

/-- A reply resumes the call that expects it. -/
theorem Ledger.resume (ledger : Ledger entries answered expected arrived) {place origin : RequestId}
    {reply : Entry} (present : entries place = some reply) (answering : reply.origin = some origin)
    (expects : forall id request, expected id request -> expected' id request ∨ request = origin)
    (arrives : forall request, arrived request -> arrived' request) (arrived : arrived' place) :
    Ledger entries answered expected' arrived' := by
  refine ⟨ledger.requests, ledger.callers, ledger.replies, ledger.origins, ledger.given,
    ledger.unique, ?_, ?_⟩
  · intro request entry other found answering'
    rcases ledger.arriving request entry other found answering' with waits | gone
    · rcases expects _ _ waits with still | rfl
      · exact Or.inl still
      · rw [ledger.unique request entry place reply _ found present answering' answering]
        exact Or.inr arrived
    · exact Or.inr (arrives _ gone)
  · intro request entry id co found called sound
    rcases ledger.asked request entry id co found called sound with waits | given
    · rcases expects _ _ waits with still | rfl
      · exact Or.inl still
      · exact Or.inr ⟨place, reply, present, answering⟩
    · exact Or.inr given

end Ledger

/-! ## Sessions -/

/-- The suspended calls of all services.  `lookup` is their session tables,
`waiting` the requests their sessions stand for, `pending` the message each
service is sending.  A request passes from the sender to a session and from
there to the list of resumptions, and is never in two of these. -/
structure Sessions (entries : Entries) (lookup : Nat -> Session -> Option Co)
    (waiting : Nat -> Session -> Option RequestId) (pending : Nat -> Option RequestId)
    (resumed : List Resumption) : Prop where
  registered : forall id session co, lookup id session = some co ->
    Exists fun request => waiting id session = some request
  waits : forall id session request, waiting id session = some request ->
    Exists fun co => Exists fun entry => lookup id session = some co ∧
      entries request = some entry ∧ entry.caller = some (id, co) ∧
      entry.message.session = session ∧ entry.pc.Accepted = true
  sends : forall id request, pending id = some request -> Exists fun entry =>
    entries request = some entry ∧ forall other co, entry.caller = some (other, co) -> other = id
  matched : forall resumption, resumption ∈ resumed -> Exists fun request => Exists fun reply =>
    Exists fun asked => resumption.request = some request ∧
      entries ⟨resumption.service, resumption.reply⟩ = some reply ∧ reply.origin = some request ∧
      entries request = some asked ∧
      asked.caller = some (resumption.service, resumption.co) ∧ asked.pc.Accepted = true
  waitsOnce : forall id session request, waiting id session = some request ->
    some request ∉ resumed.map Resumption.request
  sendsOnce : forall id request, pending id = some request ->
    some request ∉ resumed.map Resumption.request ∧
      forall other session, waiting other session ≠ some request
  once : (resumed.map Resumption.request).Nodup

section Sessions

variable {entries later : Entries} {lookup lookup' : Nat -> Session -> Option Co}
  {waiting waiting' : Nat -> Session -> Option RequestId}
  {pending pending' : Nat -> Option RequestId} {resumed : List Resumption}

/-- What an entry promises to its caller stays true. -/
theorem Follows.accepted (follows : Follows entries later) {request : RequestId} {entry : Entry}
    (found : entries request = some entry) (accepted : entry.pc.Accepted = true) :
    Exists fun after => later request = some after ∧ after.message = entry.message ∧
      after.caller = entry.caller ∧ after.pc.Accepted = true := by
  rcases follows.forth request entry found with ⟨after, there, order⟩
  exact ⟨after, there, order.message, order.caller, order.pc.1 accepted⟩

/-- Only the calls move on, and some message may have been sent. -/
theorem Sessions.follows (sessions : Sessions entries lookup waiting pending resumed)
    (follows : Follows entries later)
    (sends : forall id request, pending' id = some request -> pending id = some request) :
    Sessions later lookup waiting pending' resumed := by
  refine ⟨sessions.registered, ?_, ?_, ?_, sessions.waitsOnce, ?_, sessions.once⟩
  · intro id session request found
    rcases sessions.waits id session request found with ⟨co, entry, registered, known, called, same, accepted⟩
    rcases follows.accepted known accepted with ⟨after, there, message, caller, accepted'⟩
    exact ⟨co, after, registered, there, caller.trans called, message ▸ same, accepted'⟩
  · intro id request found
    rcases sessions.sends id request (sends id request found) with ⟨entry, known, called⟩
    rcases follows.forth request entry known with ⟨after, there, order⟩
    refine ⟨after, there, ?_⟩
    rw [order.caller]
    exact called
  · intro resumption member
    rcases sessions.matched resumption member with
      ⟨request, reply, asked, same, there, answering, known, called, accepted⟩
    rcases follows.forth _ reply there with ⟨reply', there', order⟩
    rcases follows.accepted known accepted with ⟨asked', known', _, caller, accepted'⟩
    exact ⟨request, reply', asked', same, there', order.origin.trans answering, known',
      caller.trans called, accepted'⟩
  · intro id request found
    exact sessions.sendsOnce id request (sends id request found)

/-- A service enters a send. -/
theorem Sessions.post (sessions : Sessions entries lookup waiting pending resumed)
    {place : RequestId} {new : Entry} {sender : Nat} (free : entries place = none)
    (own : forall other co, new.caller = some (other, co) -> other = sender)
    (sends : forall id request, pending' id = some request ->
      pending id = some request ∨ (id = sender ∧ request = place)) :
    Sessions (Function.update entries place (some new)) lookup waiting pending' resumed := by
  have old (request : RequestId) (entry : Entry) (found : entries request = some entry) :
      Function.update entries place (some new) request = some entry := by
    rw [Function.update_of_ne, found]
    rintro rfl
    cases free.symm.trans found
  refine ⟨sessions.registered, ?_, ?_, ?_, sessions.waitsOnce, ?_, sessions.once⟩
  · intro id session request found
    rcases sessions.waits id session request found with ⟨co, entry, registered, known, rest⟩
    exact ⟨co, entry, registered, old request entry known, rest⟩
  · intro id request found
    rcases sends id request found with before | ⟨rfl, rfl⟩
    · rcases sessions.sends id request before with ⟨entry, known, called⟩
      exact ⟨entry, old request entry known, called⟩
    · exact ⟨new, Function.update_self _ _ _, own⟩
  · intro resumption member
    rcases sessions.matched resumption member with
      ⟨request, reply, asked, same, there, answering, known, rest⟩
    exact ⟨request, reply, asked, same, old _ reply there, answering, old request asked known, rest⟩
  · intro id request found
    rcases sends id request found with before | ⟨rfl, rfl⟩
    · exact sessions.sendsOnce id request before
    · constructor
      · intro member
        rcases List.mem_map.mp member with ⟨resumption, listed, same⟩
        rcases sessions.matched resumption listed with ⟨other, _, asked, equal, _, _, known, _⟩
        cases same.symm.trans equal
        cases free.symm.trans known
      · intro other session found'
        rcases sessions.waits other session request found' with ⟨co, entry, _, known, _⟩
        cases free.symm.trans known

/-- A call whose request was accepted suspends under its session. -/
theorem Sessions.suspend (sessions : Sessions entries lookup waiting pending resumed)
    {sender : Nat} {session : Session} {co : Co} {request : RequestId} {entry : Entry}
    (sent : pending sender = some request) (known : entries request = some entry)
    (called : entry.caller = some (sender, co)) (carried : entry.message.session = session)
    (accepted : entry.pc.Accepted = true)
    (registered : lookup' sender session = some co)
    (registeredElse : forall id other, ¬ (id = sender ∧ other = session) ->
      lookup' id other = lookup id other)
    (noted : waiting' sender session = some request)
    (notedElse : forall id other, ¬ (id = sender ∧ other = session) ->
      waiting' id other = waiting id other)
    (sends : forall id other, pending' id = some other -> pending id = some other ∧ id ≠ sender) :
    Sessions entries lookup' waiting' pending' resumed := by
  have fresh := sessions.sendsOnce sender request sent
  refine ⟨?_, ?_, fun id other found => sessions.sends id other (sends id other found).1,
    sessions.matched, ?_, ?_, sessions.once⟩
  · intro id other co' found
    by_cases here : id = sender ∧ other = session
    · rcases here with ⟨rfl, rfl⟩
      exact ⟨request, noted⟩
    · rw [registeredElse id other here] at found
      rw [notedElse id other here]
      exact sessions.registered id other co' found
  · intro id other request' found
    by_cases here : id = sender ∧ other = session
    · rcases here with ⟨rfl, rfl⟩
      cases noted.symm.trans found
      exact ⟨co, entry, registered, known, called, carried, accepted⟩
    · rw [notedElse id other here] at found
      rw [registeredElse id other here]
      exact sessions.waits id other request' found
  · intro id other request' found
    by_cases here : id = sender ∧ other = session
    · rcases here with ⟨rfl, rfl⟩
      cases noted.symm.trans found
      exact fresh.1
    · rw [notedElse id other here] at found
      exact sessions.waitsOnce id other request' found
  · intro id other found
    rcases sends id other found with ⟨before, elsewhere⟩
    have once := sessions.sendsOnce id other before
    refine ⟨once.1, ?_⟩
    intro position session' found'
    by_cases here : position = sender ∧ session' = session
    · rcases here with ⟨rfl, rfl⟩
      cases noted.symm.trans found'
      rcases sessions.sends id request before with ⟨entry', known', own⟩
      cases known.symm.trans known'
      exact elsewhere (own position co called).symm
    · rw [notedElse position session' here] at found'
      exact once.2 position session' found'

/-- A reply takes its session out and resumes the call. -/
theorem Sessions.resume (sessions : Sessions entries lookup waiting pending resumed)
    {id : Nat} {session : Session} {co : Co} {request : RequestId} {tag : Nat} {reply : Entry}
    (waits : waiting id session = some request) (suspended : lookup id session = some co)
    (there : entries ⟨id, tag⟩ = some reply) (answering : reply.origin = some request)
    (removed : lookup' id session = none)
    (removedElse : forall other session', ¬ (other = id ∧ session' = session) ->
      lookup' other session' = lookup other session')
    (noted : waiting' id session = none)
    (notedElse : forall other session', ¬ (other = id ∧ session' = session) ->
      waiting' other session' = waiting other session')
    (sends : forall other request, pending' other = some request -> pending other = some request) :
    Sessions entries lookup' waiting' pending' (resumed ++ [⟨id, tag, co, some request⟩]) := by
  rcases sessions.waits id session request waits with
    ⟨co', asked, registered, known, called, carried, accepted⟩
  cases suspended.symm.trans registered
  have fresh := sessions.waitsOnce id session request waits
  have left (other : Nat) (session' : Session) (request' : RequestId)
      (found : waiting' other session' = some request') :
      waiting other session' = some request' ∧ ¬ (other = id ∧ session' = session) := by
    by_cases here : other = id ∧ session' = session
    · rcases here with ⟨rfl, rfl⟩
      cases noted.symm.trans found
    · rw [notedElse other session' here] at found
      exact ⟨found, here⟩
  refine ⟨?_, ?_, fun other request' found => sessions.sends other request' (sends _ _ found), ?_, ?_,
    ?_, ?_⟩
  · intro other session' co' found
    by_cases here : other = id ∧ session' = session
    · rcases here with ⟨rfl, rfl⟩
      cases removed.symm.trans found
    · rw [removedElse other session' here] at found
      rw [notedElse other session' here]
      exact sessions.registered other session' co' found
  · intro other session' request' found
    rcases left other session' request' found with ⟨before, here⟩
    rw [removedElse other session' here]
    exact sessions.waits other session' request' before
  · intro resumption member
    rcases List.mem_append.mp member with earlier | last
    · exact sessions.matched resumption earlier
    · cases List.mem_singleton.mp last
      exact ⟨request, reply, asked, rfl, there, answering, known, called, accepted⟩
  · intro other session' request' found
    rcases left other session' request' found with ⟨before, here⟩
    rw [List.map_append, List.mem_append, not_or]
    refine ⟨sessions.waitsOnce other session' request' before, ?_⟩
    intro same
    cases List.mem_singleton.mp same
    -- both sessions would be those of the one request
    rcases sessions.waits other session' request before with ⟨_, entry', _, known', called', carried', _⟩
    cases known.symm.trans known'
    cases called.symm.trans called'
    exact here ⟨rfl, carried'.symm.trans carried⟩
  · intro other request' found
    have once := sessions.sendsOnce other request' (sends other request' found)
    rw [List.map_append, List.mem_append, not_or]
    refine ⟨⟨once.1, ?_⟩, ?_⟩
    · intro same
      cases List.mem_singleton.mp same
      exact once.2 id session waits
    · intro position session' found'
      exact once.2 position session' (left position session' request' found').1
  · rw [List.map_append]
    apply List.Nodup.append sessions.once (List.nodup_singleton _)
    intro other member same
    cases List.mem_singleton.mp same
    exact fresh member

end Sessions

end Network
end ServiceRuntime
