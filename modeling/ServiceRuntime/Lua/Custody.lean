import ServiceRuntime.Lua.Moves

namespace ServiceRuntime
namespace Lua

/-!
# Who answers a request inside Lua

From the moment the dispatcher has popped a request until a reply has been
handed to `service_send`, the duty to answer it is held by exactly one of: the
letter just popped, the entry of `session_coroutine_response`, the error
response being sent after the entry was cleared, or the list `reply_pending`
is still working through.

Requests are named by tags.  The function `requests` says which message a tag
stands for; the model around the dispatcher supplies it.
-/

/-- How often a letter asks for an answer under this tag. -/
def Letter.claims (tag : Nat) (letter : Letter) : Nat :=
  if letter.tag = tag ∧ letter.message.Awaited then 1 else 0

/-- The session table has an unanswered request under this tag. -/
def Vm.live (vm : Vm) (tag : Nat) : Nat :=
  match vm.response.lookup tag with
  | some session => if 0 < session then 1 else 0
  | none => 0

def names (co tag : Nat) : Nat :=
  if co = tag then 1 else 0

/-- The duty still to be met for this tag by a visit of the listed
coroutines. -/
def Vm.pending (vm : Vm) (rest : List Co) (tag : Nat) : Nat :=
  if tag ∈ rest then vm.live tag else 0

/-- How often the Lua side owes an answer under this tag. -/
def Pc.custody (vm : Vm) (tag : Nat) : Pc -> Nat
  | .got _ letter => letter.claims tag + vm.live tag
  | .sending _ (.failure co _) => names co tag + vm.live tag
  | .sending _ (.pending co rest) => names co tag + vm.pending rest tag
  | .replyPending rest => vm.pending rest tag
  | .stopDone => 0
  | _ => vm.live tag

/-- The tag whose answer is complete when this program counter is left. -/
def Pc.answers : Pc -> Option Nat
  | .sending _ (.response co _) | .sending _ (.failure co _) | .sending _ (.pending co _) => some co
  | _ => none

def Pc.answered (pc : Pc) (tag : Nat) : Nat :=
  match pc.answers with
  | some co => names co tag
  | none => 0

/-- A message that answers a request. -/
structure Answers (reply request : Message) : Prop where
  awaited : request.Awaited
  session : reply.session = request.session
  address : reply.toId = request.fromId
  type : reply.type = .response ∨ reply.type = .error

/-- What a program counter knows about the letters and replies it carries. -/
def Pc.Carries (requests : Nat -> Option Message) (vm : Vm) : Pc -> Prop
  | .got _ letter => requests letter.tag = some letter.message
  | .unpackSystem letter _ => requests letter.tag = some letter.message ∧ letter.message.type = .system
  | .sending message (.response co _) =>
      (Exists fun request => requests co = some request ∧ Answers message request) ∧ vm.live co = 1
  | .sending message (.failure co _) =>
      Exists fun request => requests co = some request ∧ Answers message request
  | .sending message (.pending co rest) =>
      (Exists fun request => requests co = some request ∧ Answers message request) ∧
        co ∉ rest ∧ rest.Nodup
  | .replyPending rest => rest.Nodup
  | _ => True

/-- The session tables only know requests that were really received. -/
structure Sound (requests : Nat -> Option Message) (vm : Vm) : Prop where
  sessions : forall co session, vm.response.lookup co = some session -> 0 < session ->
    Exists fun request => requests co = some request ∧ request.Awaited ∧
      session = request.session ∧ vm.address.lookup co = some request.fromId
  booting : forall co, co ∈ vm.booting ->
    Exists fun request => requests co = some request ∧ request.type = .system

/-! ## The session table -/

theorem Vm.live_eq_zero_iff {vm : Vm} {tag : Nat} :
    vm.live tag = 0 <-> forall session, vm.response.lookup tag = some session -> session = 0 := by
  unfold Vm.live
  cases vm.response.lookup tag with
  | none => simp only [reduceCtorEq, false_implies, implies_true]
  | some session =>
      constructor
      · intro none other present
        cases present
        by_contra positive
        simp only [if_pos (Nat.pos_of_ne_zero positive), Nat.one_ne_zero] at none
      · intro zero
        simp only [zero session rfl, Nat.lt_irrefl, if_false]

theorem Vm.live_of_lookup {vm : Vm} {tag : Nat} {session : Session}
    (awaited : vm.response.lookup tag = some session) (positive : 0 < session) :
    vm.live tag = 1 := by
  simp only [Vm.live, awaited, if_pos positive]

theorem leaveSession_live (vm : Vm) (co tag : Nat) :
    (leaveSession vm co).live tag = if tag = co then 0 else vm.live tag := by
  unfold Vm.live leaveSession endSession
  by_cases same : tag = co
  · rw [if_pos same, same, AList.lookup_erase]
  · rw [if_neg same, AList.lookup_erase_ne same]

theorem newSession_live (vm : Vm) (co : Co) (fromId : ServiceId) (session : Session) (tag : Nat) :
    (newSession vm co fromId session).live tag =
      if tag = co then (if 0 < session then 1 else 0) else vm.live tag := by
  unfold Vm.live newSession
  by_cases same : tag = co
  · rw [if_pos same, same, AList.lookup_insert]
  · rw [if_neg same, AList.lookup_insert_ne same]

namespace Sound

variable {requests : Nat -> Option Message} {vm : Vm}

/-- A tag with an open session stands for an awaited request. -/
theorem awaited_of_live (sound : Sound requests vm) {tag : Nat} (live : vm.live tag ≠ 0) :
    Exists fun request => requests tag = some request ∧ request.Awaited ∧
      vm.response.lookup tag = some request.session ∧
      vm.address.lookup tag = some request.fromId := by
  cases found : vm.response.lookup tag with
  | none => exact False.elim (live (by simp only [Vm.live, found]))
  | some session =>
      have positive : 0 < session := by
        apply Nat.pos_of_ne_zero
        intro zero
        apply live
        rw [Vm.live_eq_zero_iff]
        intro other present
        rw [found] at present
        cases present
        exact zero
      rcases sound.sessions tag session found positive with ⟨request, known, awaited, rfl, asked⟩
      exact ⟨request, known, awaited, rfl, asked⟩

theorem live_eq_zero (sound : Sound requests vm) {tag : Nat} {request : Message}
    (known : requests tag = some request) (unasked : ¬ request.Awaited) : vm.live tag = 0 := by
  by_contra live
  rcases sound.awaited_of_live live with ⟨other, present, awaited, _⟩
  rw [known] at present
  cases present
  exact unasked awaited

theorem leave (sound : Sound requests vm) (co : Co) : Sound requests (leaveSession vm co) := by
  refine ⟨?_, sound.booting⟩
  intro tag session found positive
  by_cases same : tag = co
  · rw [same] at found
    simp only [leaveSession, endSession, AList.lookup_erase, reduceCtorEq] at found
  · simp only [leaveSession, endSession, AList.lookup_erase_ne same] at found ⊢
    exact sound.sessions tag session found positive

theorem enter (sound : Sound requests vm) {co : Co} {fromId : ServiceId} {session : Session}
    (opened : 0 < session -> Exists fun request => requests co = some request ∧ request.Awaited ∧
      session = request.session ∧ fromId = request.fromId) :
    Sound requests (newSession vm co fromId session) := by
  refine ⟨?_, sound.booting⟩
  intro tag expected found positive
  by_cases same : tag = co
  · subst same
    simp only [newSession, AList.lookup_insert, Option.some.injEq] at found ⊢
    subst found
    exact opened positive
  · simp only [newSession, AList.lookup_insert_ne same] at found ⊢
    exact sound.sessions tag expected found positive

/-- Learning about more requests does no harm. -/
theorem mono (sound : Sound requests vm) {more : Nat -> Option Message}
    (grows : forall tag request, requests tag = some request -> more tag = some request) :
    Sound more vm := by
  constructor
  · intro co session found positive
    rcases sound.sessions co session found positive with ⟨request, known, rest⟩
    exact ⟨request, grows co request known, rest⟩
  · intro co member
    rcases sound.booting co member with ⟨request, known, type⟩
    exact ⟨request, grows co request known, type⟩

/-- A change that leaves the three tables alone. -/
theorem of_same (sound : Sound requests vm) {next : Vm} (response : next.response = vm.response)
    (address : next.address = vm.address) (booting : next.booting = vm.booting) :
    Sound requests next := by
  constructor
  · rw [response, address]
    exact sound.sessions
  · rw [booting]
    exact sound.booting

end Sound

theorem Pc.Carries.mono {requests more : Nat -> Option Message} {vm : Vm} {pc : Pc}
    (carries : pc.Carries requests vm)
    (grows : forall tag request, requests tag = some request -> more tag = some request) :
    pc.Carries more vm := by
  cases pc with
  | got processed letter => exact grows _ _ carries
  | unpackSystem letter ret => exact ⟨grows _ _ carries.1, carries.2⟩
  | sending message next =>
      cases next with
      | response co ret =>
          rcases carries with ⟨⟨request, known, answers⟩, live⟩
          exact ⟨⟨request, grows _ _ known, answers⟩, live⟩
      | failure co ret =>
          rcases carries with ⟨request, known, answers⟩
          exact ⟨request, grows _ _ known, answers⟩
      | pending co rest =>
          rcases carries with ⟨⟨request, known, answers⟩, place⟩
          exact ⟨⟨request, grows _ _ known, answers⟩, place⟩
      | user site | call caller session ret => trivial
  | replyPending rest => exact carries
  | _ => trivial

/-! ## One step -/

/-- The reply sent for an open session answers the request it was opened for. -/
theorem Sound.answers {requests : Nat -> Option Message} {vm : Vm} (sound : Sound requests vm)
    {co : Co} {fromId : ServiceId} {session : Session} {reply : Message}
    (asked : vm.address.lookup co = some fromId) (awaited : vm.response.lookup co = some session)
    (positive : 0 < session) (carried : reply.session = session) (sent : reply.toId = fromId)
    (type : reply.type = .response ∨ reply.type = .error) :
    Exists fun request => requests co = some request ∧ Answers reply request := by
  rcases sound.sessions co session awaited positive with ⟨request, known, expects, equal, address⟩
  rw [asked] at address
  cases address
  exact ⟨request, known, expects, carried.trans equal, sent, type⟩

theorem Return.pc_carries (requests : Nat -> Option Message) (vm : Vm) (ret : Return) :
    ret.pc.Carries requests vm := by
  cases ret <;> trivial

theorem AfterQuit.pc_carries (requests : Nat -> Option Message) (vm : Vm) (next : AfterQuit) :
    next.pc.Carries requests vm := by
  cases next with
  | user site => trivial
  | back ret => exact ret.pc_carries requests vm

/-- The tables stay sound, and what is carried stays true, as long as the
letters handed in are known. -/
theorem Move.sound {self : ServiceId} {vm next : Vm} {pc after : Pc} {choice : Choice}
    (moved : Move self vm pc choice next after) {requests : Nat -> Option Message}
    (sound : Sound requests vm) (carries : pc.Carries requests vm)
    (known : forall letter, choice = .received (some letter) ->
      requests letter.tag = some letter.message) :
    Sound requests next ∧ after.Carries requests next := by
  cases moved with
  | received => exact ⟨sound, known _ rfl⟩
  | gotRequest type =>
      refine ⟨sound.enter fun positive => ?_, trivial⟩
      exact ⟨_, carries, ⟨type, positive⟩, rfl, rfl⟩
  | gotReply => exact ⟨sound.of_same rfl rfl rfl, trivial⟩
  | gotSystem type => exact ⟨sound, carries, type⟩
  | booted =>
      rename_i letter ret
      have entered : Sound requests (newSession vm letter.tag letter.message.fromId 0) :=
        sound.enter fun positive => absurd positive (Nat.lt_irrefl 0)
      refine ⟨⟨entered.sessions, ?_⟩, trivial⟩
      intro co member
      rcases List.mem_cons.mp member with rfl | earlier
      · exact ⟨letter.message, carries.1, carries.2⟩
      · exact sound.booting co earlier
  | finishAnswer current awaited positive asked =>
      refine ⟨sound, ?_, Vm.live_of_lookup awaited positive⟩
      exact sound.answers asked awaited positive rfl rfl (Or.inl rfl)
  | finishSilent => exact ⟨sound.leave _, Return.pc_carries _ _ _⟩
  | raise control raised inside =>
      cases raised with
      | bootQuits => exact ⟨(sound.leave _).of_same rfl rfl rfl, trivial⟩
      | bootEnds | unnoticed => exact ⟨sound.leave _, Return.pc_carries _ _ _⟩
      | answered ordinary asked awaited positive =>
          exact ⟨sound.leave _, sound.answers asked awaited positive rfl rfl (Or.inr rfl)⟩
  | sentResponse => exact ⟨sound.leave _, Return.pc_carries _ _ _⟩
  | sentPending => exact ⟨sound, carries.2.2⟩
  | pendingAnswer asked awaited positive =>
      have fresh := List.nodup_cons.mp carries
      refine ⟨sound, ?_, fresh.1, fresh.2⟩
      exact sound.answers asked awaited positive rfl rfl (Or.inr rfl)
  | pendingSkip => exact ⟨sound, (List.nodup_cons.mp carries).2⟩
  | removed | notBooted | sentFailure => exact ⟨sound, Return.pc_carries _ _ _⟩
  | yield | sentCall => exact ⟨sound.of_same rfl rfl rfl, Return.pc_carries _ _ _⟩
  | stopped => exact ⟨sound, AfterQuit.pc_carries _ _ _⟩
  | _ => exact ⟨sound.of_same rfl rfl rfl, trivial⟩

/-! ## Conservation -/

/-- What a delivery adds. -/
def Choice.handed (tag : Nat) : Choice -> Nat
  | .received (some letter) => letter.claims tag
  | _ => 0

@[simp] theorem Return.pc_custody (vm : Vm) (tag : Nat) (ret : Return) :
    ret.pc.custody vm tag = vm.live tag := by
  cases ret <;> rfl

@[simp] theorem AfterQuit.pc_custody (vm : Vm) (tag : Nat) (next : AfterQuit) :
    next.pc.custody vm tag = vm.live tag := by
  cases next with
  | user site => rfl
  | back ret => exact ret.pc_custody vm tag

/-- Ending the session of a coroutine nobody waits for changes nothing. -/
theorem leaveSession_live_of_zero {vm : Vm} {co : Co} (silent : vm.live co = 0) (tag : Nat) :
    (leaveSession vm co).live tag = vm.live tag := by
  rw [leaveSession_live]
  split
  · rename_i same
    rw [same, silent]
  · rfl

/-- Ending the session of a coroutine somebody waits for takes its duty away. -/
theorem leaveSession_live_of_one {vm : Vm} {co : Co} (live : vm.live co = 1) (tag : Nat) :
    names co tag + (leaveSession vm co).live tag = vm.live tag := by
  rw [leaveSession_live]
  unfold names
  by_cases same : tag = co
  · rw [if_pos same, if_pos same.symm, same, live]
  · rw [if_neg same, if_neg (Ne.symm same), Nat.zero_add]

theorem Pc.running_custody {pc : Pc} {co : Co} {ret : Return} (control : pc.running = some (co, ret))
    (vm : Vm) (tag : Nat) : pc.custody vm tag = vm.live tag ∧ pc.answered tag = 0 := by
  cases pc with
  | unpackRequest | unpackReply => exact ⟨rfl, rfl⟩
  | user site => exact ⟨rfl, rfl⟩
  | _ => cases control

theorem Letter.claims_eq_zero {letter : Letter} (other : letter.message.type ≠ .request) (tag : Nat) :
    letter.claims tag = 0 := by
  unfold Letter.claims
  exact if_neg fun both => other both.2.1

/-- Opening the session of a request moves the duty from the letter to the
table. -/
theorem Sound.opened_live {requests : Nat -> Option Message} {vm : Vm} (sound : Sound requests vm)
    {letter : Letter} (known : requests letter.tag = some letter.message)
    (type : letter.message.type = .request) {tag : Nat}
    (alone : letter.claims tag + vm.live tag ≤ 1) :
    (newSession vm letter.tag letter.message.fromId letter.message.session).live tag =
      letter.claims tag + vm.live tag := by
  rw [newSession_live]
  by_cases same : tag = letter.tag
  · subst same
    rw [if_pos rfl]
    by_cases positive : 0 < letter.message.session
    · have one : letter.claims letter.tag = 1 := if_pos ⟨rfl, type, positive⟩
      rw [if_pos positive]
      omega
    · have unasked : ¬ letter.message.Awaited := fun awaited => positive awaited.2
      have none : letter.claims letter.tag = 0 := if_neg fun both => unasked both.2
      have silent := sound.live_eq_zero known unasked
      rw [if_neg positive]
      omega
  · have none : letter.claims tag = 0 := if_neg fun both => same both.1.symm
    rw [if_neg same]
    omega

theorem Sound.raised_live {requests : Nat -> Option Message} {vm next : Vm} (sound : Sound requests vm)
    {self : ServiceId} {co : Co} {ret : Return} {after : Pc}
    (raised : Raised self vm co ret next after) (tag : Nat) :
    after.custody next tag = vm.live tag := by
  cases raised with
  | bootQuits booting | bootEnds booting =>
      rcases sound.booting co booting with ⟨request, known, type⟩
      have unasked : ¬ request.Awaited := by
        intro awaited
        cases type.symm.trans awaited.1
      have silent := leaveSession_live_of_zero (sound.live_eq_zero known unasked) tag
      first
        | exact silent
        | rw [Return.pc_custody]
          exact silent
  | answered ordinary asked awaited positive =>
      exact leaveSession_live_of_one (Vm.live_of_lookup awaited positive) tag
  | unnoticed ordinary nobody =>
      rw [Return.pc_custody]
      apply leaveSession_live_of_zero
      by_contra live
      rcases sound.awaited_of_live live with ⟨request, known, awaited, found, asked⟩
      exact Nat.ne_of_gt awaited.2 (nobody _ _ asked found)

/-- No step of the Lua code loses or doubles the duty to answer a request:
what is owed afterwards, plus the answer just completed, is what was owed
before, plus what was just delivered. -/
theorem Move.conserves {self : ServiceId} {vm next : Vm} {pc after : Pc} {choice : Choice}
    (moved : Move self vm pc choice next after) {requests : Nat -> Option Message}
    (sound : Sound requests vm) (carries : pc.Carries requests vm) {tag : Nat}
    (alone : pc.custody vm tag ≤ 1) :
    after.custody next tag + pc.answered tag = pc.custody vm tag + choice.handed tag := by
  have dropped {letter : Letter} (other : letter.message.type ≠ .request) (processed : Nat) :
      vm.live tag + 0 = (Pc.got processed letter).custody vm tag + 0 := by
    simp only [Pc.custody, Letter.claims_eq_zero other, Nat.zero_add]
  cases moved with
  | received => exact Nat.add_comm (Letter.claims tag _) (vm.live tag)
  | gotRequest type =>
      have opened := sound.opened_live carries type alone
      simp only [Pc.custody, Pc.answered, Pc.answers, Choice.handed] at opened ⊢
      rw [opened]
  | gotReply type _ _ | gotUnknownReply type _ =>
      apply dropped
      intro request
      rcases type with type | type <;> cases type.symm.trans request
  | gotSystem type =>
      apply dropped
      intro request
      cases type.symm.trans request
  | gotOther type => exact dropped type.1 _
  | booted =>
      rename_i letter ret
      have unasked : ¬ letter.message.Awaited := by
        intro awaited
        cases carries.2.symm.trans awaited.1
      have silent := sound.live_eq_zero carries.1 unasked
      have opened := newSession_live vm letter.tag letter.message.fromId 0 tag
      have kept : (newSession vm letter.tag letter.message.fromId 0).live tag = vm.live tag := by
        rw [opened]
        split
        · rename_i same
          rw [same, silent]
          rfl
        · rfl
      exact kept
  | finishSilent current unasked =>
      rename_i co ret running payload
      have silent : vm.live running = 0 := by simp only [Vm.live, unasked, Nat.lt_irrefl, if_false]
      simp only [Return.pc_custody, leaveSession_live_of_zero silent]
      rfl
  | raise control raised inside =>
      have before := Pc.running_custody control vm tag
      have handed : choice.handed tag = 0 := by
        cases choice with
        | received found => exact False.elim (inside found rfl)
        | _ => rfl
      rw [before.1, before.2, handed, sound.raised_live raised tag]
  | sentResponse =>
      rename_i message co ret ok
      have taken := leaveSession_live_of_one carries.2 tag
      rw [Return.pc_custody]
      simp only [Pc.custody, Pc.answered, Pc.answers, Choice.handed]
      omega
  | sentFailure =>
      rw [Return.pc_custody]
      simp only [Pc.custody, Pc.answered, Pc.answers, Choice.handed]
      omega
  | sentPending =>
      simp only [Pc.custody, Pc.answered, Pc.answers, Choice.handed]
      omega
  | pendingAnswer asked awaited positive =>
      rename_i co rest fromId session
      have fresh := List.nodup_cons.mp carries
      have live := Vm.live_of_lookup awaited positive
      simp only [Pc.custody, Pc.answered, Pc.answers, Choice.handed, Vm.pending, names,
        List.mem_cons]
      by_cases same : tag = co
      · subst same
        rw [if_pos rfl, if_neg fresh.1, if_pos (Or.inl rfl), live]
      · rw [if_neg (Ne.symm same)]
        simp only [same, false_or, Nat.zero_add]
  | pendingSkip nobody =>
      rename_i co rest
      simp only [Pc.custody, Pc.answered, Pc.answers, Choice.handed, Vm.pending, List.mem_cons]
      by_cases same : tag = co
      · subst same
        have silent : vm.live tag = 0 := by
          by_contra live
          rcases sound.awaited_of_live live with ⟨request, known, awaited, found, asked⟩
          exact Nat.ne_of_gt awaited.2 (nobody _ _ asked found)
        simp only [silent, ite_self]
      · simp only [same, false_or]
  | removed | notBooted | yield | sentCall =>
      simp only [Return.pc_custody]
      rfl
  | stopped =>
      simp only [AfterQuit.pc_custody]
      rfl
  | _ => rfl

end Lua
end ServiceRuntime
