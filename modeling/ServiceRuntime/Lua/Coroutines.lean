import ServiceRuntime.Foundation.Pool
import ServiceRuntime.Lua.Custody

namespace ServiceRuntime
namespace Lua

open Foundation

/-!
# Where a coroutine is

A coroutine runs, or sleeps, or waits under one session, or is over.  The
dispatcher never holds the same coroutine twice: resuming takes it out of the
table it was in, and suspending is done by the coroutine that has control.
The second half of this needs `running_thread`, which is what `service.call`
registers.
-/

/-! ## Entries of a table -/

/-- The sum over the values of a table. -/
def Table.total {Key Value : Type} (quantity : Value -> Nat) (table : Table Key Value) : Nat :=
  weight (fun entry => quantity entry.2) table.entries

section Table

variable {Key Value : Type} [DecidableEq Key] (quantity : Value -> Nat) {table : Table Key Value}

/-- Erasing a key takes one entry out. -/
theorem Table.total_erase {key : Key} {value : Value} (found : table.lookup key = some value) :
    Table.total quantity (table.erase key) + quantity value = Table.total quantity table := by
  have present : key ∈ table.keys :=
    AList.lookup_isSome.mp (Option.isSome_iff_exists.mpr ⟨value, found⟩)
  rcases List.exists_of_kerase present with ⟨other, before, after, _, entries, erased⟩
  have same : other = value := by
    have member : Sigma.mk key other ∈ table.entries := by
      rw [entries]
      exact List.mem_append_right before List.mem_cons_self
    have looked := AList.mem_lookup_iff.mpr member
    rw [Option.mem_def, found] at looked
    exact (Option.some.inj looked).symm
  have left : (table.erase key).entries = before ++ after := erased
  unfold Table.total
  rw [left, entries, same]
  simp only [weight_append, weight_cons]
  omega

/-- A new key adds one. -/
theorem Table.total_insert {key : Key} (value : Value) (free : table.lookup key = none) :
    Table.total quantity (table.insert key value) = quantity value + Table.total quantity table := by
  unfold Table.total
  rw [AList.entries_insert_of_notMem (AList.lookup_eq_none.mp free)]
  rfl

/-- Two keys with the same value count twice. -/
theorem Table.total_pair {first second : Key} {value : Value} (distinct : first ≠ second)
    (one : table.lookup first = some value) (other : table.lookup second = some value) :
    quantity value + quantity value ≤ Table.total quantity table := by
  have rest := Table.total_erase quantity one
  have still : (table.erase first).lookup second = some value :=
    (AList.lookup_erase_ne (Ne.symm distinct)).trans other
  have less := Table.total_erase quantity still
  omega

end Table

/-! ## Coroutines -/

def Site.runs : Site -> Option Co
  | .coroutine co _ => some co
  | .hooks _ | .callback => none

def AfterSend.runs : AfterSend -> Option Co
  | .user site => site.runs
  | .call caller _ _ => some caller
  | .response co _ => some co
  | .failure _ _ | .pending _ _ => none

/-- The coroutine on whose behalf the Lua code runs, also inside `service_c`. -/
def Pc.runs : Pc -> Option Co
  | .unpackRequest co _ _ | .unpackReply co _ _ => some co
  | .user site => site.runs
  | .sending _ next => next.runs
  | .quitting (.user site) => site.runs
  | _ => none

/-- How often control has this coroutine, or the letter it is made for. -/
def Pc.holds (tag : Nat) (pc : Pc) : Nat :=
  match pc with
  | .got _ letter | .unpackSystem letter _ => names letter.tag tag
  | pc => (pc.runs).elim 0 fun co => names co tag

/-- Under how many sessions the coroutine waits. -/
def Vm.suspended (vm : Vm) (tag : Nat) : Nat :=
  Table.total (names · tag) vm.suspendLookup

/-- How often the Lua code holds the coroutine at all. -/
def Vm.present (vm : Vm) (tag : Nat) (pc : Pc) : Nat :=
  pc.holds tag + vm.suspended tag + vm.yielded.count tag

/-- What the service signs: messages carry its own id, and the request of a
call carries the session that will be registered for it. -/
def Pc.Signed (self : ServiceId) (vm : Vm) : Pc -> Prop
  | .sending message (.call _ session _) =>
      message.fromId = self ∧ message.session = session ∧ message.Awaited ∧
        vm.suspendLookup.lookup session = none
  | .sending message _ => message.fromId = self
  | _ => True

structure Orderly (service : ServiceId) (vm : Vm) (pc : Pc) : Prop where
  thread : forall co, pc.runs = some co -> vm.runningThread = some co
  counter : 0 < vm.nextSession
  signed : pc.Signed service vm

@[simp] theorem Return.pc_runs (ret : Return) : ret.pc.runs = none := by
  cases ret <;> rfl

@[simp] theorem Return.pc_holds (tag : Nat) (ret : Return) : ret.pc.holds tag = 0 := by
  cases ret <;> rfl

@[simp] theorem AfterQuit.pc_runs (next : AfterQuit) : next.pc.runs = (Pc.quitting next).runs := by
  cases next with
  | user site => rfl
  | back ret => exact ret.pc_runs

@[simp] theorem AfterQuit.pc_holds (tag : Nat) (next : AfterQuit) :
    next.pc.holds tag = (Pc.quitting next).holds tag := by
  cases next with
  | user site => rfl
  | back ret => exact ret.pc_holds tag

theorem Return.pc_signed (self : ServiceId) (vm : Vm) (ret : Return) : ret.pc.Signed self vm := by
  cases ret <;> trivial

theorem AfterQuit.pc_signed (self : ServiceId) (vm : Vm) (next : AfterQuit) :
    next.pc.Signed self vm := by
  cases next with
  | user site => trivial
  | back ret => exact ret.pc_signed self vm

/-- A session handed out is positive and free. -/
theorem allocateSession_spec {vm : Vm} {session next : Session} (positive : 0 < vm.nextSession)
    (allocated : allocateSession vm = some (session, next)) :
    0 < session ∧ 0 < next ∧ vm.suspendLookup.lookup session = none := by
  have bounds := searchSession_pos positive allocated
  exact ⟨bounds.1, bounds.2, searchSession_unused allocated⟩

/-- Where no coroutine has control, only the signature matters. -/
theorem Orderly.idle {self : ServiceId} {vm next : Vm} {pc after : Pc} (orderly : Orderly self vm pc)
    (counter : next.nextSession = vm.nextSession) (runs : after.runs = none)
    (signed : after.Signed self next) : Orderly self next after := by
  refine ⟨?_, counter ▸ orderly.counter, signed⟩
  intro co found
  cases runs.symm.trans found

theorem Orderly.back {self : ServiceId} {vm next : Vm} {pc : Pc} (orderly : Orderly self vm pc)
    (counter : next.nextSession = vm.nextSession) (ret : Return) : Orderly self next ret.pc :=
  orderly.idle counter ret.pc_runs (ret.pc_signed self next)

theorem Raised.orderly {self : ServiceId} {vm next : Vm} {co : Co} {ret : Return} {pc after : Pc}
    (raised : Raised self vm co ret next after) (orderly : Orderly self vm pc) :
    Orderly self next after := by
  cases raised with
  | bootQuits =>
      refine orderly.idle ?_ rfl trivial
      rfl
  | answered =>
      refine orderly.idle ?_ rfl rfl
      rfl
  | bootEnds | unnoticed =>
      refine orderly.back ?_ ret
      rfl

theorem Move.orderly {self : ServiceId} {vm next : Vm} {pc after : Pc} {choice : Choice}
    (moved : Move self vm pc choice next after) (orderly : Orderly self vm pc) :
    Orderly self next after := by
  have kept (same : next = vm) (runs : after.runs = pc.runs) (signed : after.Signed self next) :
      Orderly self next after := by
    subst same
    exact ⟨runs ▸ orderly.thread, orderly.counter, signed⟩
  cases moved with
  | gotRequest | gotReply | booted | resume =>
      exact ⟨fun co runs => runs, orderly.counter, trivial⟩
  | call managed allocated =>
      have allotted := allocateSession_spec orderly.counter allocated
      exact ⟨fun co runs => managed.trans runs, allotted.2.1, rfl, rfl, ⟨rfl, allotted.1⟩,
        allotted.2.2⟩
  | callUnpackable allocated =>
      have allotted := allocateSession_spec orderly.counter allocated
      exact ⟨orderly.thread, allotted.2.1, trivial⟩
  | finishAnswer current awaited positive asked =>
      exact ⟨fun co runs => current.trans runs, orderly.counter, rfl⟩
  | raise control raised inside => exact raised.orderly orderly
  | finishSilent | yield | removed | notBooted | sentCall | sentResponse | sentFailure =>
      refine orderly.back ?_ _
      rfl
  | send | sendMessage => exact kept rfl rfl rfl
  | quit => exact ⟨orderly.thread, orderly.counter, trivial⟩
  | quitAgain | callExhausted | requestDecoded | replyDecoded | sentUser | sentCallRefused =>
      exact kept rfl rfl trivial
  | stopped => exact kept rfl (AfterQuit.pc_runs _) (AfterQuit.pc_signed _ _ _)
  | pendingAnswer => exact orderly.idle rfl rfl rfl
  | _ => exact orderly.idle rfl rfl trivial

/-! ## The session table -/

theorem Return.pc_ne_unpackReply (ret : Return) (co : Co) (letter : Letter) (other : Return) :
    ret.pc ≠ .unpackReply co letter other := by
  cases ret <;> exact Pc.noConfusion

theorem AfterQuit.pc_ne_unpackReply (next : AfterQuit) (co : Co) (letter : Letter) (ret : Return) :
    next.pc ≠ .unpackReply co letter ret := by
  cases next with
  | user site => exact Pc.noConfusion
  | back other => exact other.pc_ne_unpackReply co letter ret

theorem Return.pc_ne_sending (ret : Return) (message : Message) (next : AfterSend) :
    ret.pc ≠ .sending message next := by
  cases ret <;> exact Pc.noConfusion

theorem AfterQuit.pc_ne_sending (after : AfterQuit) (message : Message) (next : AfterSend) :
    after.pc ≠ .sending message next := by
  cases after with
  | user site => exact Pc.noConfusion
  | back ret => exact ret.pc_ne_sending message next

/-- User code sends by `service.send`, or composes a message of its own. -/
theorem Move.userSends {self : ServiceId} {vm next : Vm} {pc after : Pc} {choice : Choice}
    (moved : Move self vm pc choice next after) {message : Message} {site : Site}
    (sends : after = .sending message (.user site)) :
    (message.type = .request ∧ message.session = 0) ∨ Exists fun toId => Exists fun session =>
      Exists fun type => Exists fun payload => choice = .sendMessage toId session type payload := by
  cases moved with
  | send =>
      cases sends
      exact Or.inl ⟨rfl, rfl⟩
  | sendMessage => exact Or.inr ⟨_, _, _, _, rfl⟩
  | raise control raised inside =>
      cases raised with
      | bootQuits | answered => cases sends
      | bootEnds | unnoticed => exact False.elim (Return.pc_ne_sending _ _ _ sends)
  | removed | notBooted | finishSilent | yield | sentCall | sentResponse | sentFailure =>
      exact False.elim (Return.pc_ne_sending _ _ _ sends)
  | stopped => exact False.elim (AfterQuit.pc_ne_sending _ _ _ sends)
  | _ => cases sends

theorem Raised.keepsSessions {self : ServiceId} {vm next : Vm} {co : Co} {ret : Return} {after : Pc}
    (raised : Raised self vm co ret next after) :
    next.suspendLookup = vm.suspendLookup ∧
      forall co letter ret, after ≠ .unpackReply co letter ret := by
  cases raised with
  | bootQuits | answered => exact ⟨rfl, fun _ _ _ => Pc.noConfusion⟩
  | bootEnds | unnoticed => exact ⟨rfl, ret.pc_ne_unpackReply⟩

/-- What a step does to the table of suspended sessions. -/
inductive SessionMove (vm : Vm) (choice : Choice) (next : Vm) : Pc -> Pc -> Prop where
  | suspends {message caller session ret} (sent : choice = .sent true)
      (table : next.suspendLookup = vm.suspendLookup.insert session caller) :
      SessionMove vm choice next (.sending message (.call caller session ret)) ret.pc
  | resumes {processed letter co}
      (type : letter.message.type = .response ∨ letter.message.type = .error)
      (positive : 0 < letter.message.session)
      (waits : vm.suspendLookup.lookup letter.message.session = some co)
      (table : next.suspendLookup = vm.suspendLookup.erase letter.message.session) :
      SessionMove vm choice next (.got processed letter) (.unpackReply co letter (.round processed))
  | keeps {pc after} (table : next.suspendLookup = vm.suspendLookup)
      (unsent : forall message caller session ret,
        pc = .sending message (.call caller session ret) -> choice ≠ .sent true)
      (unread : forall co letter ret, after ≠ .unpackReply co letter ret) :
      SessionMove vm choice next pc after

theorem Move.sessions {self : ServiceId} {vm next : Vm} {pc after : Pc} {choice : Choice}
    (moved : Move self vm pc choice next after) : SessionMove vm choice next pc after := by
  cases moved with
  | sentCall => exact .suspends rfl rfl
  | gotReply type positive waits => exact .resumes type positive waits rfl
  | sentCallRefused =>
      refine .keeps rfl (fun _ _ _ _ _ refused => ?_) (fun _ _ _ => Pc.noConfusion)
      cases refused
  | raise control raised inside =>
      refine .keeps raised.keepsSessions.1 ?_ raised.keepsSessions.2
      rintro message caller session ret rfl
      cases control
  | finishSilent | yield | removed | notBooted | sentResponse | sentFailure =>
      refine .keeps rfl (fun _ _ _ _ equal => ?_) (Return.pc_ne_unpackReply _)
      cases equal
  | stopped =>
      refine .keeps rfl (fun _ _ _ _ equal => ?_) (AfterQuit.pc_ne_unpackReply _)
      cases equal
  | _ =>
      refine .keeps rfl (fun _ _ _ _ equal => ?_) (fun _ _ _ => Pc.noConfusion)
      cases equal

/-! ## No coroutine is doubled -/

/-- What a delivery brings. -/
def Choice.brings (tag : Nat) : Choice -> Nat
  | .received (some letter) => names letter.tag tag
  | _ => 0

theorem Move.brings_eq_zero {self : ServiceId} {vm next : Vm} {pc after : Pc} {choice : Choice}
    (moved : Move self vm pc choice next after)
    (internal : forall processed, pc ≠ .receiving processed) (tag : Nat) :
    choice.brings tag = 0 := by
  cases moved with
  | received => exact False.elim (internal _ rfl)
  | raise control raised inside =>
      cases choice with
      | received found => exact False.elim (inside found rfl)
      | _ => rfl
  | _ => rfl

theorem Pc.running_holds {pc : Pc} {co : Co} {ret : Return} (control : pc.running = some (co, ret))
    (tag : Nat) : pc.holds tag = names co tag := by
  cases pc with
  | unpackRequest | unpackReply =>
      cases control
      rfl
  | user site =>
      cases site with
      | coroutine =>
          cases control
          rfl
      | hooks | callback => cases control
  | _ => cases control

theorem Raised.present {self : ServiceId} {vm next : Vm} {co : Co} {ret : Return} {after : Pc}
    (raised : Raised self vm co ret next after) (tag : Nat) :
    next.present tag after = vm.suspended tag + vm.yielded.count tag := by
  unfold Vm.present
  cases raised with
  | bootQuits | answered =>
      simp only [Pc.holds, Pc.runs, AfterSend.runs, Option.elim_none, Nat.zero_add]
      rfl
  | bootEnds | unnoticed =>
      simp only [Return.pc_holds, Nat.zero_add]
      rfl

theorem count_cons_names (tag co : Nat) (list : List Co) :
    (co :: list).count tag = names co tag + list.count tag := by
  rw [List.count_cons, names, Nat.add_comm]
  simp only [beq_iff_eq]

theorem Move.present {self : ServiceId} {vm next : Vm} {pc after : Pc} {choice : Choice}
    (moved : Move self vm pc choice next after) (orderly : Orderly self vm pc) (tag : Nat) :
    next.present tag after ≤ vm.present tag pc + choice.brings tag := by
  cases moved with
  | received =>
      simp only [Vm.present, Pc.holds, Pc.runs, Option.elim_none, Choice.brings]
      omega
  | gotReply type positive waiting =>
      have taken := Table.total_erase (names · tag) waiting
      simp only [Vm.present, Vm.suspended, Pc.holds, Pc.runs, Option.elim_some] at taken ⊢
      omega
  | raise control raised inside =>
      have before := Pc.running_holds control tag
      rw [raised.present]
      simp only [Vm.present, before]
      omega
  | call managed allocated =>
      have running := orderly.thread _ rfl
      rw [managed] at running
      cases running
      exact Nat.le_refl _
  | finishAnswer current awaited positive asked =>
      have running := orderly.thread _ rfl
      rw [current] at running
      cases running
      exact Nat.le_refl _
  | finishSilent | sentResponse | sentFailure | removed | notBooted =>
      simp only [Vm.present, Vm.suspended, Return.pc_holds, leaveSession, endSession]
      omega
  | yield =>
      rw [Vm.present, Return.pc_holds]
      simp only [Vm.present, Vm.suspended, Pc.holds, Pc.runs, Site.runs,
        Option.elim_some, count_cons_names]
      omega
  | resume place suspended =>
      rename_i site co ret
      have taken : vm.yielded.count tag = names co tag + (vm.yielded.erase co).count tag := by
        rw [← count_cons_names]
        exact (List.perm_cons_erase suspended).count_eq tag
      simp only [Vm.present, Vm.suspended, Pc.holds, Pc.runs, Site.runs, Option.elim_some]
      omega
  | sentCall =>
      rename_i message caller session ret
      have added := Table.total_insert (names · tag) caller orderly.signed.2.2.2
      rw [Vm.present, Return.pc_holds]
      simp only [Vm.present, Vm.suspended, Pc.holds, Pc.runs, AfterSend.runs,
        Option.elim_some] at added ⊢
      omega
  | stopped =>
      simp only [Vm.present, AfterQuit.pc_holds]
      omega
  | gotRequest | gotSystem | booted | requestDecoded | replyDecoded | send | sendMessage | quit
  | quitAgain | callExhausted | callUnpackable | sentUser | sentCallRefused => exact Nat.le_refl _
  | _ =>
      simp only [Vm.present, Vm.suspended, Pc.holds, Pc.runs, Site.runs, AfterSend.runs,
        Option.elim_none]
      omega

end Lua
end ServiceRuntime
