import ServiceRuntime.Service.Letters
import ServiceRuntime.Service.Pins
import ServiceRuntime.Service.Stops

namespace ServiceRuntime
namespace Service

open Lua (Letter Co)
open Foundation

/-!
# After the end has begun

A stop takes effect while others still send and while the service still runs
its handlers.  Two things are over at once.  `service_recv` looks at the state
before it pops, so that the Lua code gets at most the message it has already
asked for; and a sender that has not pinned the service yet is refused, so
that a refusal is final.
-/

/-! ## The state stays late -/

namespace PhaseStep

variable {shared next : Shared}

theorem stays_late (moved : PhaseStep shared next) (late : 4 ≤ shared.state.rank) :
    4 ≤ next.state.rank := by
  cases moved with
  | same equal =>
      rw [equal.state]
      exact late
  | stopNew before after =>
      rw [after]
      decide
  | stop before after =>
      rcases before with before | before <;> rw [before] at late <;> exact absurd late (by decide)
  | start before after =>
      rw [before] at late
      exact absurd late (by decide)
  | join past after => exact Nat.le_trans (by decide) after

end PhaseStep

/-- A call of another thread moves the state in one of these ways. -/
theorem reachable_phaseStep {self : ServiceId} {state : State} {index : Nat} {call after : Call}
    {shared : Shared} (reachable : (machine self).Reachable state)
    (present : state.calls[index]? = some call)
    (moved : CallMove state.shared index call shared after) : PhaseStep state.shared shared := by
  have life := reachable_lifecycle reachable
  exact (moved.phase (life.calls index call present) (Stage.Fits.late life.stage) life.joining).1

theorem step_stays_late {self : ServiceId} {state next : State} {action : Action}
    (reachable : (machine self).Reachable state) (late : 4 ≤ state.shared.state.rank)
    (moved : (machine self).step state action = some next) : 4 ≤ next.shared.state.rank := by
  rcases reachable_step_cases reachable moved with
    ⟨request, rfl⟩ | ⟨index, call, shared, after, present, callMoved, rfl⟩ | threadMoved
  · exact late
  · exact (reachable_phaseStep reachable present callMoved).stays_late late
  · exact absurd late (threadMoved.early (reachable_lifecycle reachable))

/-! ## What the Lua code still gets -/

/-- `service_recv` has found the service running and has not popped yet. -/
def ThreadPc.asks : ThreadPc -> Nat
  | .popping _ => 1
  | _ => 0

/-- What has been popped since, by a thread that may pop at most what it has
asked for. -/
def PopsSince (start current : State) : Prop :=
  Exists fun extra => current.shared.popped = start.shared.popped ++ extra ∧
    extra.length + current.thread.asks ≤ start.thread.asks

theorem PopsSince.rests {start current next : State} (since : PopsSince start current)
    (popped : next.shared.popped = current.shared.popped)
    (idle : next.thread.asks ≤ current.thread.asks) : PopsSince start next := by
  rcases since with ⟨extra, equal, bound⟩
  exact ⟨extra, popped.trans equal, Nat.le_trans (Nat.add_le_add_left idle _) bound⟩

theorem CallFlow.popped {shared next : Shared} {index : Nat} {call after : Call}
    (flow : CallFlow shared index call next after) : next.popped = shared.popped := by
  cases flow with
  | rests same => exact same.popped
  | stored before stands kept given contents popped => exact popped
  | disposed disposes still found contents popped => exact popped

theorem Walk.asks {state : State} {before after : ThreadPc} (walked : Walk state before after)
    (down : 3 ≤ state.shared.state.rank) : after.asks = 0 := by
  cases walked with
  | receive running => exact absurd running (Phase.ne_running down)
  | notifyNobody _ place | stopDone place => rcases place with rfl | rfl <;> rfl
  | _ => rfl

/-- The thread of a service that is going down pops what it has asked for, and
asks for nothing more. -/
theorem ThreadMove.popsSince {self : ServiceId} {start current next : State}
    (moved : ThreadMove self current next) (down : 3 ≤ current.shared.state.rank)
    (since : PopsSince start current) : PopsSince start next := by
  have elsewhere (popped : next.shared.popped = current.shared.popped)
      (idle : next.thread.asks = 0) : PopsSince start next :=
    since.rests popped (by rw [idle]; exact Nat.zero_le _)
  cases moved with
  | popped located found =>
      rename_i processed letter
      rcases since with ⟨extra, equal, bound⟩
      rw [located] at bound
      refine ⟨extra ++ [letter], ?_, ?_⟩
      · show current.shared.popped ++ [letter] = start.shared.popped ++ (extra ++ [letter])
        rw [equal, List.append_assoc]
      · rw [List.length_append]
        exact bound
  | walk located walked => exact elsewhere rfl (walked.asks down)
  | quitStep located moved | failStep located moved =>
      exact elsewhere moved.sameLetters.popped rfl
  | shutdownStep located moved => exact elsewhere moved.keepsPopped rfl
  | shutdownDone located moved =>
      rename_i caller pc shared
      exact elsewhere moved.keepsPopped (by cases caller <;> rfl)
  | quitDone located => exact elsewhere rfl rfl
  | overloaded located place =>
      refine elsewhere rfl ?_
      rw [place]
      split
      · rfl
      · split <;> rfl
  | closeHandles located =>
      rename_i caller
      exact elsewhere rfl (by cases caller <;> rfl)
  | inboxClosed located | controlClosed located => exact since.rests rfl (Nat.le_refl _)
  | _ => exact elsewhere rfl rfl

theorem step_popsSince {self : ServiceId} {start current next : State} {action : Action}
    (reachable : (machine self).Reachable current) (down : 3 ≤ current.shared.state.rank)
    (since : PopsSince start current) (moved : (machine self).step current action = some next) :
    PopsSince start next := by
  have valid := (reachable_inbox reachable).valid
  rcases reachable_step_cases reachable moved with
    ⟨request, rfl⟩ | ⟨index, call, shared, after, present, callMoved, rfl⟩ | threadMoved
  · exact since.rests rfl (Nat.le_refl _)
  · exact since.rests (callMoved.flow valid).popped (Nat.le_refl _)
  · exact threadMoved.popsSince down since

/-- From the moment the state has left RUNNING for good, however long the
handlers run on and whatever is sent, the Lua code is handed one more message
at most: the one `service_recv` had already found the service running for. -/
theorem last_message {self : ServiceId} {state final : State} {schedule : List Action}
    (reachable : (machine self).Reachable state) (down : 3 ≤ state.shared.state.rank)
    (taken : (machine self).run state schedule = some final) :
    Exists fun extra => final.shared.popped = state.shared.popped ++ extra ∧
      extra.length ≤ state.thread.asks := by
  have both : (machine self).Reachable final ∧
      (3 ≤ final.shared.state.rank ∧ PopsSince state final) := by
    apply reachable.relates _ _ taken
    · exact ⟨down, [], (List.append_nil _).symm, Nat.le_of_eq (Nat.zero_add _)⟩
    · intro current action next sofar since moved
      exact ⟨step_stopping sofar since.1 moved, step_popsSince sofar since.1 since.2 moved⟩
  rcases both.2.2 with ⟨extra, popped, bound⟩
  exact ⟨extra, popped, Nat.le_trans (Nat.le_add_right _ _) bound⟩

/-- A stop comes between the test and the pop of `service_recv`, and a second
sender after it. -/
def stopMidway : List Action :=
  let free : Outcome := ⟨none, 0⟩
  List.flatten
    [[.call .start, .advance 0 free],
      List.replicate 11 (.thread .next),
      [.call (.send ⟨1, 7, 5, .request, some 0⟩)],
      List.replicate 5 (.advance 1 free),
      [.thread .wakeInbox, .thread .next, .thread (.lua .next), .thread .next],
      [.call .stop, .advance 2 free, .advance 2 free],
      [.call (.send ⟨2, 7, 9, .request, some 1⟩), .advance 3 free, .advance 3 free]]

theorem last_message_popped :
    Exists fun state => Exists fun final => (machine 7).Reachable state ∧
      state.shared.state = .stopping ∧ state.shared.popped = [] ∧
      (machine 7).run state [.thread .next] = some final ∧ final.shared.popped.length = 1 ∧
      Exists fun extra => final.shared.popped = state.shared.popped ++ extra ∧
        extra.length ≤ state.thread.asks := by
  have ends : ((machine 7).run .smallest stopMidway).any (fun state => decide
      (state.shared.state = .stopping ∧ state.shared.popped = [] ∧
        ((machine 7).run state [.thread .next]).any
          (fun final => final.shared.popped.length = 1) = true)) = true := by
    decide +kernel
  rcases (machine 7).exists_reachable fresh_smallest ends with
    ⟨state, reachable, stopping, none, pops⟩
  rcases (Option.any_eq_true _ _).mp pops with ⟨final, taken, one⟩
  have down : 3 ≤ state.shared.state.rank := by
    rw [stopping]
    decide
  exact ⟨state, final, reachable, stopping, none, taken, of_decide_eq_true one,
    last_message reachable down taken⟩

/-! ## A refusal is final -/

/-- The refusals of a service that is on its way out. -/
def SendResult.Gone : SendResult -> Bool
  | .stopping | .stopped => true
  | .ok | .full | .notFound => false

/-- The call has found the service retired, its mailbox closed, or has retired
it. -/
def SendPc.retires : SendPc -> Bool
  | .refused | .closedResult => true
  | .unpin result | .returned result => result.Gone
  | _ => false

def StopPc.retires : StopPc -> Bool
  | .lock | .close _ => true
  | .retire | .signal | .returned => false

def Call.retires : Call -> Bool
  | .send _ pc => pc.retires
  | .stop pc => pc.retires
  | .start (.failClose _) => true
  | _ => false

def ThreadPc.retires : ThreadPc -> Bool
  | .quitting _ pc | .failStop pc => pc.retires
  | _ => false

/-- The call has found the service STOPPED. -/
def Call.reportsStopped : Call -> Bool
  | .send _ (.unpin .stopped) | .send _ (.returned .stopped) => true
  | _ => false

structure Retirement (state : State) : Prop where
  closed : state.shared.box.closed = true -> state.shared.routable = false
  calls : forall (index : Nat) call, state.calls[index]? = some call -> call.retires = true ->
    state.shared.routable = false
  thread : state.thread.retires = true -> state.shared.routable = false
  stopped : forall (index : Nat) call, state.calls[index]? = some call -> call.reportsStopped = true ->
    4 ≤ state.shared.state.rank

theorem inactiveSendResult_stopped {state : Phase} (stopped : inactiveSendResult state = .stopped) :
    4 ≤ state.rank := by
  unfold inactiveSendResult at stopped
  split at stopped
  · cases stopped
  · rename_i late
    exact Nat.le_of_not_lt late

/-- What a step means for the retirement of the service. -/
structure Retiring (shared next : Shared) : Prop where
  retired : shared.routable = false -> next.routable = false
  closed : next.box.closed = true -> shared.box.closed = true ∨ next.routable = false

section Steps

variable {shared next : Shared}

theorem Retiring.of_same (routable : next.routable = shared.routable)
    (closed : next.box.closed = shared.box.closed) : Retiring shared next :=
  ⟨routable.trans, fun shut => Or.inl (closed.symm.trans shut)⟩

theorem Retiring.of_retired (retired : next.routable = false) : Retiring shared next :=
  ⟨fun _ => retired, fun _ => Or.inr retired⟩

theorem SendMove.retiring {letter : Letter} {pc after : SendPc}
    (moved : SendMove shared letter pc next after)
    (closed : shared.box.closed = true -> shared.routable = false)
    (own : pc.retires = true -> shared.routable = false) :
    Retiring shared next ∧ (after.retires = true -> next.routable = false) := by
  cases moved with
  | refused retired => exact ⟨.of_same rfl rfl, fun _ => retired⟩
  | reported => exact ⟨.of_same rfl rfl, fun _ => own rfl⟩
  | stored entering valid isOpen stays contents scheduled first =>
      rename_i box notify
      refine ⟨.of_same rfl (stays.trans isOpen.symm), fun retires => ?_⟩
      cases notify <;> cases retires
  | shut entering shut => exact ⟨.of_same rfl rfl, fun _ => closed shut⟩
  | tooLate => exact ⟨.of_same rfl rfl, fun _ => own rfl⟩
  | unpinned => exact ⟨.of_same rfl rfl, own⟩
  | pinned | full | allocated | exhausted | ready | notReady | notified =>
      exact ⟨.of_same rfl rfl, Bool.noConfusion⟩

theorem StopMove.retiring {pc after : StopPc} (moved : StopMove shared pc next after)
    (own : pc.retires = true -> shared.routable = false) :
    Retiring shared next ∧ (after.retires = true -> next.routable = false) := by
  cases moved with
  | retire => exact ⟨.of_retired rfl, fun _ => rfl⟩
  | stopNew | stop | late => exact ⟨.of_same rfl rfl, fun _ => own rfl⟩
  | close => exact ⟨.of_retired (own rfl), fun _ => own rfl⟩
  | signal => exact ⟨.of_same rfl rfl, Bool.noConfusion⟩

theorem StartMove.retiring {pc after : StartPc} (moved : StartMove shared pc next after)
    (own : (Call.start pc).retires = true -> shared.routable = false) :
    Retiring shared next ∧ ((Call.start after).retires = true -> next.routable = false) := by
  cases moved with
  | failRetire => exact ⟨.of_retired rfl, fun _ => rfl⟩
  | failClose => exact ⟨.of_retired (own rfl), Bool.noConfusion⟩
  | start | fail | already | done => exact ⟨.of_same rfl rfl, Bool.noConfusion⟩

theorem FreeMove.retiring {pc after : FreePc} (moved : FreeMove shared pc next after)
    (valid : shared.box.WellFormed) (demand : pc.demand.Met shared) : Retiring shared next := by
  cases moved with
  | retire => exact .of_retired rfl
  | delete => exact .of_retired demand.1
  | dispose | done => exact .of_same rfl (popInbox_spec valid).2.1
  | wait | free | busy => exact .of_same rfl rfl

theorem CallMove.retiring {index : Nat} {call after : Call}
    (moved : CallMove shared index call next after) (valid : shared.box.WellFormed)
    (closed : shared.box.closed = true -> shared.routable = false)
    (demand : call.demand.Met shared) (own : call.retires = true -> shared.routable = false) :
    Retiring shared next ∧ (after.retires = true -> next.routable = false) := by
  cases moved with
  | send moved => exact moved.retiring closed own
  | stop moved => exact moved.retiring own
  | start moved => exact moved.retiring own
  | free moved => exact ⟨moved.retiring valid demand, Bool.noConfusion⟩
  | join moved =>
      refine ⟨?_, Bool.noConfusion⟩
      cases moved with
      | free moved => exact moved.retiring valid demand
      | _ => exact .of_same rfl rfl

theorem CallMove.reportsStopped {index : Nat} {call after : Call}
    (moved : CallMove shared index call next after) (reports : after.reportsStopped = true) :
    call.reportsStopped = true ∨ 4 ≤ shared.state.rank := by
  have told {result : SendResult} (equal : result = inactiveSendResult shared.state)
      (stopped : result = .stopped) : 4 ≤ shared.state.rank :=
    inactiveSendResult_stopped (equal.symm.trans stopped)
  cases moved with
  | send moved =>
      cases moved with
      | reported | tooLate =>
          right
          apply told rfl
          cases result : inactiveSendResult shared.state with
          | stopped => rfl
          | ok | full | notFound | stopping =>
              rw [result] at reports
              cases reports
      | unpinned =>
          rename_i result
          left
          cases result with
          | stopped => rfl
          | ok | full | notFound | stopping => cases reports
      | stored entering valid isOpen stays contents scheduled first =>
          rename_i box notify
          cases notify <;> cases reports
      | pinned | refused | shut | full | allocated | exhausted | ready | notReady | notified =>
          cases reports
  | stop | start | join | free => cases reports

end Steps

theorem ShutdownMove.retiring {self : ServiceId} {shared next : Shared} {pc : ShutdownPc}
    {after : Option ShutdownPc} (moved : ShutdownMove self shared pc next after)
    (valid : shared.box.WellFormed) (demand : pc.demand.Met shared) : Retiring shared next := by
  cases moved with
  | retire => exact .of_retired rfl
  | close => exact .of_retired demand
  | popped | done => exact .of_same rfl (popInbox_spec valid).2.1
  | waited | answered | skipped => exact .of_same rfl rfl

theorem ThreadMove.retiring {self : ServiceId} {state next : State}
    (moved : ThreadMove self state next) (valid : state.shared.box.WellFormed)
    (demand : state.thread.demand.Met state.shared)
    (own : state.thread.retires = true -> state.shared.routable = false) :
    Retiring state.shared next.shared ∧
      (next.thread.retires = true -> next.shared.routable = false) := by
  have plain (same : Retiring state.shared next.shared) (rests : next.thread.retires = false) :
      Retiring state.shared next.shared ∧
        (next.thread.retires = true -> next.shared.routable = false) :=
    ⟨same, fun retires => absurd (rests.symm.trans retires) Bool.false_ne_true⟩
  cases moved with
  | walk located walked =>
      refine plain (.of_same rfl rfl) ?_
      cases walked with
      | notifyNobody _ place | stopDone place => rcases place with rfl | rfl <;> rfl
      | _ => rfl
  | quitStep located moved | failStep located moved =>
      rw [located] at own
      exact moved.retiring own
  | quitDone located => exact plain (.of_same rfl rfl) rfl
  | popped located found | poppedNone located found =>
      exact plain (.of_same rfl (popInbox_spec valid).2.1) rfl
  | overloaded located place =>
      refine plain (.of_same rfl rfl) ?_
      rw [place]
      split
      · rfl
      · split <;> rfl
  | batchGoesOn located more | batchEnds located more =>
      exact plain (.of_same rfl (Mailbox.finishBatch_spec valid rfl).2.1) rfl
  | shutdownStep located moved =>
      rw [located] at demand
      exact plain (moved.retiring valid demand) rfl
  | shutdownDone located moved =>
      rename_i caller pc shared
      rw [located] at demand
      exact plain (moved.retiring valid demand) (by cases caller <;> rfl)
  | closeHandles located =>
      rename_i caller
      exact plain (.of_same rfl rfl) (by cases caller <;> rfl)
  | inboxClosed located | controlClosed located => exact ⟨.of_same rfl rfl, own⟩
  | _ => exact plain (.of_same rfl rfl) rfl

theorem Retiring.closes {shared next : Shared} (retiring : Retiring shared next)
    (closed : shared.box.closed = true -> shared.routable = false)
    (shut : next.box.closed = true) : next.routable = false := by
  rcases retiring.closed shut with before | retired
  · exact retiring.retired (closed before)
  · exact retired

theorem step_retirement (self : ServiceId) (state : State) (action : Action) (next : State)
    (reachable : (machine self).Reachable state) (retirement : Retirement state)
    (moved : (machine self).step state action = some next) : Retirement next := by
  have valid := (reachable_inbox reachable).valid
  have pins := reachable_pinInvariant reachable
  have late (before : 4 ≤ state.shared.state.rank) : 4 ≤ next.shared.state.rank :=
    step_stays_late reachable before moved
  rcases reachable_step_cases reachable moved with
    ⟨request, rfl⟩ | ⟨index, call, shared, after, present, callMoved, rfl⟩ | threadMoved
  · refine ⟨retirement.closed, ?_, retirement.thread, ?_⟩
    · apply forall_append_singleton retirement.calls
      cases request <;> exact Bool.noConfusion
    · apply forall_append_singleton retirement.stopped
      cases request <;> exact Bool.noConfusion
  · have result := callMoved.retiring valid retirement.closed (pins.callDemand index call present)
      (retirement.calls index call present)
    refine ⟨result.1.closes retirement.closed, ?_, fun retires => result.1.retired (retirement.thread retires), ?_⟩
    · apply forall_set
      · intro position other beside retires
        exact result.1.retired (retirement.calls position other beside retires)
      · intro _
        exact result.2
    · apply forall_set
      · intro position other beside reports
        exact late (retirement.stopped position other beside reports)
      · intro _ reports
        rcases callMoved.reportsStopped reports with before | now
        · exact late (retirement.stopped index call present before)
        · exact late now
  · have result := threadMoved.retiring valid pins.threadDemand retirement.thread
    have calls := threadMoved.calls
    refine ⟨result.1.closes retirement.closed, ?_, result.2, ?_⟩
    · intro index call present retires
      rw [calls] at present
      exact result.1.retired (retirement.calls index call present retires)
    · intro index call present reports
      rw [calls] at present
      exact late (retirement.stopped index call present reports)

theorem fresh_retirement (state : State) (fresh : Fresh state) : Retirement state := by
  rcases fresh with ⟨capacity, cells, box, _sized, created, rfl⟩
  have opens := (Mailbox.new_contents created).2.1
  refine ⟨fun closed => absurd (opens.symm.trans closed) Bool.false_ne_true, ?_,
    Bool.noConfusion, ?_⟩ <;>
  · intro index call present
    cases present

theorem reachable_retirement {self : ServiceId} {state : State}
    (reachable : (machine self).Reachable state) : Retirement state :=
  reachable.induction fresh_retirement (step_retirement self)

/-! ## Who may still be accepted -/

/-- The call has pinned the service, or has already been accepted. -/
def Call.admitted : Call -> Bool
  | .send _ pc => pc.Pinned || pc.Accepted
  | _ => false

/-- Nobody is admitted to a retired service. -/
theorem CallMove.admitted {shared next : Shared} {index : Nat} {call after : Call}
    (moved : CallMove shared index call next after) (retired : shared.routable = false)
    (admitted : after.admitted = true) : call.admitted = true := by
  cases moved with
  | send moved =>
      cases moved with
      | pinned routable => cases routable.symm.trans retired
      | refused => cases admitted
      | reported =>
          rename_i message
          cases result : inactiveSendResult shared.state with
          | ok => exact absurd result (inactiveSendResult_ne_ok _)
          | full | notFound | stopping | stopped =>
              rw [result] at admitted
              cases admitted
      | stored entering | shut entering | full entering =>
          rcases entering with rfl | ⟨capacity, grown, rfl⟩ <;> rfl
      | allocated | exhausted | ready | notReady | notified | tooLate | unpinned => rfl
  | stop | start | join | free => cases admitted

/-- Whoever is admitted later has been admitted before. -/
def AdmittedBefore (start current : State) : Prop :=
  forall (index : Nat) call, current.calls[index]? = some call -> call.admitted = true ->
    Exists fun before => start.calls[index]? = some before ∧ before.admitted = true

theorem step_admittedBefore {self : ServiceId} {start current next : State} {action : Action}
    (reachable : (machine self).Reachable current) (retired : current.shared.routable = false)
    (since : AdmittedBefore start current)
    (moved : (machine self).step current action = some next) : AdmittedBefore start next := by
  rcases reachable_step_cases reachable moved with
    ⟨request, rfl⟩ | ⟨index, call, shared, after, present, callMoved, rfl⟩ | threadMoved
  · apply forall_append_singleton since
    cases request <;> exact Bool.noConfusion
  · apply forall_set since
    intro _ admitted
    exact since index call present (callMoved.admitted retired admitted)
  · intro index call present admitted
    rw [threadMoved.calls] at present
    exact since index call present admitted

theorem SendPc.admitted_of_accepted {message : Message} {pc : SendPc} (accepted : pc.Accepted = true) :
    (Call.send message pc).admitted = true := by
  simp only [Call.admitted, accepted, Bool.or_true]

/-- What `service_send` returns is true, whatever happens at the same time: an
accepted message is queued, with the Lua code, drained or disposed of, and
once; a refused one is nowhere; STOPPED is only said of a service that is
STOPPED; and after a refusal for either reason nobody is accepted who had not
pinned the service before. -/
theorem send_results_truthful {self : ServiceId} {state : State} {index : Nat} {message : Message}
    {result : SendResult} (reachable : (machine self).Reachable state)
    (returned : state.calls[index]? = some (.send message (.returned result))) :
    (state.shared.places index = if result = .ok then 1 else 0) ∧
    (result = .stopped -> 4 ≤ state.shared.state.rank) ∧
    (result = .stopping ∨ result = .stopped -> state.shared.routable = false ∧
      forall schedule final, (machine self).run state schedule = some final ->
        forall (position : Nat) other pc, final.calls[position]? = some (.send other pc) ->
          pc.Accepted = true -> Exists fun before =>
            state.calls[position]? = some before ∧ before.admitted = true) := by
  have retirement := reachable_retirement reachable
  refine ⟨?_, ?_, ?_⟩
  · rw [reachable_placed reachable index, returned]
    cases result <;> rfl
  · rintro rfl
    exact retirement.stopped index _ returned rfl
  · intro gone
    have retired : state.shared.routable = false := by
      apply retirement.calls index _ returned
      rcases gone with rfl | rfl <;> rfl
    refine ⟨retired, ?_⟩
    intro schedule final taken position other pc present accepted
    have both : (machine self).Reachable final ∧
        (final.shared.routable = false ∧ AdmittedBefore state final) := by
      apply reachable.relates _ _ taken
      · exact ⟨retired, fun position call there admitted => ⟨call, there, admitted⟩⟩
      · intro current action next sofar since moved
        exact ⟨step_retired sofar since.1 moved, step_admittedBefore sofar since.1 since.2 moved⟩
    exact both.2.2 position _ present (SendPc.admitted_of_accepted accepted)

theorem send_results_truthful_stopping :
    Exists fun state => (machine 7).Reachable state ∧ state.shared.places 1 = 1 ∧
      state.shared.places 3 = 0 ∧ state.shared.routable = false := by
  have ends : ((machine 7).run .smallest stopMidway).any (fun state => decide
      (state.calls[1]? = some (.send ⟨1, 7, 5, .request, some 0⟩ (.returned .ok)) ∧
        state.calls[3]? = some (.send ⟨2, 7, 9, .request, some 1⟩ (.returned .stopping)))) = true := by
    decide +kernel
  rcases (machine 7).exists_reachable fresh_smallest ends with ⟨state, reachable, first, second⟩
  have accepted := send_results_truthful reachable first
  have refused := send_results_truthful reachable second
  exact ⟨state, reachable, accepted.1, refused.1, (refused.2.2 (Or.inl rfl)).1⟩

end Service
end ServiceRuntime
