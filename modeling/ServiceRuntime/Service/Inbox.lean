import ServiceRuntime.Service.Thread

namespace ServiceRuntime
namespace Service

open Lua (Letter Co)
open Foundation

/-!
# The mailbox inside the service

The ring of a service is only ever touched through the regions of
`mailbox.c`, so it stays well formed and every step acts on the queue it
stands for.  A queue that is open and not empty is always scheduled.
-/

/-! ## What a step does to the queue -/

/-- Every way a step can act on the queue, and on the ghost count of wake-up
requests that goes with `scheduled`. -/
inductive QueueStep (shared next : Shared) : Prop where
  | same (contents : next.box.contents = shared.box.contents)
      (closed : shared.box.closed = true -> next.box.closed = true)
      (scheduled : next.box.scheduled = shared.box.scheduled)
      (accepted : next.accepted = shared.accepted) (notices : next.notices = shared.notices)
  | stored (letter : Letter) (contents : next.box.contents = shared.box.contents ++ [letter])
      (isOpen : shared.box.closed = false) (scheduled : next.box.scheduled = true)
      (accepted : next.accepted = shared.accepted ++ [letter])
      (notices : next.notices = if shared.box.scheduled then shared.notices else shared.notices + 1)
  | popped (letter : Letter) (contents : shared.box.contents = letter :: next.box.contents)
      (closed : next.box.closed = shared.box.closed)
      (scheduled : next.box.scheduled = shared.box.scheduled)
      (accepted : next.accepted = shared.accepted) (notices : next.notices = shared.notices)
  | released (contents : next.box.contents = shared.box.contents)
      (idle : next.box.closed = true ∨ shared.box.contents = [])
      (closed : next.box.closed = shared.box.closed)
      (scheduled : next.box.scheduled = false)
      (accepted : next.accepted = shared.accepted) (notices : next.notices = 0)

/-- The effect on the queue is about these three fields. -/
theorem QueueStep.congr {shared next later : Shared} (effect : QueueStep shared next)
    (box : later.box = next.box) (accepted : later.accepted = next.accepted)
    (notices : later.notices = next.notices) : QueueStep shared later := by
  cases effect with
  | same contents closed scheduled same count =>
      exact .same (box ▸ contents) (box ▸ closed) (box ▸ scheduled) (accepted.trans same)
        (notices.trans count)
  | stored letter contents isOpen scheduled same count =>
      exact .stored letter (box ▸ contents) isOpen (box ▸ scheduled) (accepted.trans same)
        (notices.trans count)
  | popped letter contents closed scheduled same count =>
      exact .popped letter (box ▸ contents) (box ▸ closed) (box ▸ scheduled) (accepted.trans same)
        (notices.trans count)
  | released contents idle closed scheduled same count =>
      exact .released (box ▸ contents) (box ▸ idle) (box ▸ closed) (box ▸ scheduled)
        (accepted.trans same) (notices.trans count)

/-- Popping the inbox takes the first letter, or finds nothing and releases
the schedule. -/
theorem popInbox_spec {shared : Shared} (valid : shared.box.WellFormed) :
    (popInbox shared).1.box.WellFormed ∧ (popInbox shared).1.box.closed = shared.box.closed ∧
    ((Exists fun letter => (popInbox shared).2 = some letter ∧
        shared.box.contents = letter :: (popInbox shared).1.box.contents ∧
        (popInbox shared).1.box.scheduled = shared.box.scheduled ∧
        (popInbox shared).1.notices = shared.notices) ∨
      ((popInbox shared).2 = none ∧ shared.box.contents = [] ∧
        (popInbox shared).1.box.contents = [] ∧ (popInbox shared).1.box.scheduled = false ∧
        (popInbox shared).1.notices = 0)) := by
  rcases popped : shared.box.tryPop with ⟨box, found⟩
  rcases Mailbox.tryPop_spec valid popped with ⟨boxValid, closed, _initial, _capacity, outcome⟩
  simp only [popInbox, popped]
  refine ⟨boxValid, closed, ?_⟩
  rcases outcome with ⟨letter, rfl, contents, scheduled⟩ | ⟨rfl, before, after, scheduled⟩
  · exact Or.inl ⟨letter, rfl, contents, scheduled, rfl⟩
  · exact Or.inr ⟨rfl, before, after, scheduled, rfl⟩

theorem popInbox_queue {shared : Shared} (valid : shared.box.WellFormed) :
    QueueStep shared (popInbox shared).1 := by
  rcases popInbox_spec valid with ⟨_, closed, outcome⟩
  rcases outcome with ⟨letter, _, contents, scheduled, notices⟩ | ⟨_, before, after, scheduled, notices⟩
  · exact .popped letter contents closed scheduled rfl notices
  · exact .released (after.trans before.symm) (Or.inr before) closed scheduled rfl notices

theorem SendMove.queue {shared next : Shared} {letter : Letter} {pc after : SendPc}
    (moved : SendMove shared letter pc next after) (valid : shared.box.WellFormed) :
    next.box.WellFormed ∧ QueueStep shared next ∧ after.SpareFits := by
  cases moved with
  | stored entering boxValid isOpen stays contents scheduled first =>
      refine ⟨boxValid, .stored letter contents isOpen scheduled rfl ?_, ?_⟩
      · rw [first]
        cases shared.box.scheduled <;> rfl
      · split <;> trivial
  | allocated twice fits => exact ⟨valid, .same rfl id rfl rfl rfl, twice, fits⟩
  | _ => exact ⟨valid, .same rfl id rfl rfl rfl, trivial⟩

theorem StopMove.queue {shared next : Shared} {pc after : StopPc}
    (moved : StopMove shared pc next after) (valid : shared.box.WellFormed) :
    next.box.WellFormed ∧ QueueStep shared next := by
  cases moved with
  | close => exact ⟨Mailbox.close_wellFormed valid, .same rfl (fun _ => rfl) rfl rfl rfl⟩
  | _ => exact ⟨valid, .same rfl id rfl rfl rfl⟩

theorem StartMove.queue {shared next : Shared} {pc after : StartPc}
    (moved : StartMove shared pc next after) (valid : shared.box.WellFormed) :
    next.box.WellFormed ∧ QueueStep shared next := by
  cases moved with
  | failClose => exact ⟨Mailbox.close_wellFormed valid, .same rfl (fun _ => rfl) rfl rfl rfl⟩
  | _ => exact ⟨valid, .same rfl id rfl rfl rfl⟩

theorem FreeMove.queue {shared next : Shared} {pc after : FreePc}
    (moved : FreeMove shared pc next after) (valid : shared.box.WellFormed) :
    next.box.WellFormed ∧ QueueStep shared next := by
  cases moved with
  | delete => exact ⟨Mailbox.close_wellFormed valid, .same rfl (fun _ => rfl) rfl rfl rfl⟩
  | dispose found => exact ⟨(popInbox_spec valid).1, (popInbox_queue valid).congr rfl rfl rfl⟩
  | done => exact ⟨(popInbox_spec valid).1, popInbox_queue valid⟩
  | _ => exact ⟨valid, .same rfl id rfl rfl rfl⟩

theorem JoinMove.queue {shared next : Shared} {fromThread : Bool} {pc after : JoinPc}
    (moved : JoinMove shared fromThread pc next after) (valid : shared.box.WellFormed) :
    next.box.WellFormed ∧ QueueStep shared next := by
  cases moved with
  | free moved => exact moved.queue valid
  | _ => exact ⟨valid, .same rfl id rfl rfl rfl⟩

theorem CallMove.queue {shared next : Shared} {index : Nat} {call after : Call}
    (moved : CallMove shared index call next after) (valid : shared.box.WellFormed) :
    next.box.WellFormed ∧ QueueStep shared next ∧ after.SpareFits := by
  cases moved with
  | send moved => exact moved.queue valid
  | stop moved => exact ⟨(moved.queue valid).1, (moved.queue valid).2, trivial⟩
  | start moved => exact ⟨(moved.queue valid).1, (moved.queue valid).2, trivial⟩
  | join moved => exact ⟨(moved.queue valid).1, (moved.queue valid).2, trivial⟩
  | free moved => exact ⟨(moved.queue valid).1, (moved.queue valid).2, trivial⟩

theorem ShutdownMove.queue {self : ServiceId} {shared next : Shared} {pc : ShutdownPc}
    {after : Option ShutdownPc} (moved : ShutdownMove self shared pc next after)
    (valid : shared.box.WellFormed) : next.box.WellFormed ∧ QueueStep shared next := by
  cases moved with
  | close => exact ⟨Mailbox.close_wellFormed valid, .same rfl (fun _ => rfl) rfl rfl rfl⟩
  | popped => exact ⟨(popInbox_spec valid).1, (popInbox_queue valid).congr rfl rfl rfl⟩
  | done => exact ⟨(popInbox_spec valid).1, popInbox_queue valid⟩
  | _ => exact ⟨valid, .same rfl id rfl rfl rfl⟩

theorem threadMove_queue {self : ServiceId} {state next : State} (moved : ThreadMove self state next)
    (valid : state.shared.box.WellFormed) :
    next.shared.box.WellFormed ∧ QueueStep state.shared next.shared := by
  cases moved with
  | popped => exact ⟨(popInbox_spec valid).1, (popInbox_queue valid).congr rfl rfl rfl⟩
  | poppedNone => exact ⟨(popInbox_spec valid).1, popInbox_queue valid⟩
  | quitStep located moved | failStep located moved => exact moved.queue valid
  | overloaded => exact ⟨Mailbox.takeOverload_wellFormed valid, .same rfl id rfl rfl rfl⟩
  | batchGoesOn located more =>
      rcases taken : state.shared.box.finishBatch with ⟨box, again⟩
      rcases Mailbox.finishBatch_spec valid taken with ⟨boxValid, _, _, _, _, outcome⟩
      rw [taken] at more
      rcases outcome with ⟨_, _, _, rfl⟩ | ⟨done, _, _⟩
      · exact ⟨boxValid, .same rfl id rfl rfl rfl⟩
      · cases more.symm.trans done
  | batchEnds located done =>
      rcases taken : state.shared.box.finishBatch with ⟨box, again⟩
      rcases Mailbox.finishBatch_spec valid taken with ⟨boxValid, closed, contents, _, _, outcome⟩
      rw [taken] at done
      rcases outcome with ⟨more, _, _, _⟩ | ⟨_, idle, scheduled⟩
      · cases more.symm.trans done
      · refine ⟨boxValid, .released contents ?_ closed scheduled rfl rfl⟩
        rcases idle with shut | empty
        · exact Or.inl (closed.trans shut)
        · exact Or.inr empty
  | shutdownStep located moved | shutdownDone located moved => exact moved.queue valid
  | _ => exact ⟨valid, .same rfl id rfl rfl rfl⟩

/-! ## The invariant -/

structure InboxInvariant (state : State) : Prop where
  valid : state.shared.box.WellFormed
  spares : forall (index : Nat) call, state.calls[index]? = some call -> call.SpareFits
  scheduled : state.shared.box.closed = false -> state.shared.box.contents ≠ [] ->
    state.shared.box.scheduled = true
  notices : state.shared.notices = state.shared.box.scheduled.toNat

theorem QueueStep.scheduled_of_nonempty {shared next : Shared} (effect : QueueStep shared next)
    (before : shared.box.closed = false -> shared.box.contents ≠ [] -> shared.box.scheduled = true)
    (isOpen : next.box.closed = false) (nonempty : next.box.contents ≠ []) :
    next.box.scheduled = true := by
  cases effect with
  | same contents closed scheduled accepted notices =>
      rw [scheduled]
      apply before
      · cases shut : shared.box.closed with
        | false => rfl
        | true => cases isOpen.symm.trans (closed shut)
      · rw [← contents]
        exact nonempty
  | stored letter contents wasOpen scheduled accepted notices => exact scheduled
  | popped letter contents closed scheduled accepted notices =>
      rw [scheduled]
      apply before (closed.symm.trans isOpen)
      rw [contents]
      exact List.cons_ne_nil _ _
  | released contents idle closed scheduled accepted notices =>
      rcases idle with shut | empty
      · cases isOpen.symm.trans shut
      · exact False.elim (nonempty (contents.trans empty))

theorem QueueStep.notices_eq {shared next : Shared} (effect : QueueStep shared next)
    (before : shared.notices = shared.box.scheduled.toNat) :
    next.notices = next.box.scheduled.toNat := by
  cases effect with
  | same contents closed scheduled accepted notices => rw [notices, scheduled, before]
  | stored letter contents wasOpen scheduled accepted notices =>
      rw [notices, scheduled, before]
      cases shared.box.scheduled <;> rfl
  | popped letter contents closed scheduled accepted notices => rw [notices, scheduled, before]
  | released contents idle closed scheduled accepted notices => rw [notices, scheduled]; rfl

theorem step_inbox (self : ServiceId) (state : State) (action : Action) (next : State)
    (inbox : InboxInvariant state) (moved : step self state action = some next) :
    InboxInvariant next := by
  rcases step_cases moved with
    ⟨request, rfl⟩ | ⟨index, outcome, call, shared, after, present, taken, rfl⟩ | threadMoved
  · refine ⟨inbox.valid, ?_, inbox.scheduled, inbox.notices⟩
    apply forall_append_singleton inbox.spares
    cases request <;> trivial
  · have callMoved := callStep_move inbox.valid (inbox.spares index call present) taken
    rcases callMoved.queue inbox.valid with ⟨valid, effect, spare⟩
    refine ⟨valid, ?_, effect.scheduled_of_nonempty inbox.scheduled, effect.notices_eq inbox.notices⟩
    exact forall_set inbox.spares fun _ => spare
  · rcases threadMove_queue threadMoved inbox.valid with ⟨valid, effect⟩
    refine ⟨valid, ?_, effect.scheduled_of_nonempty inbox.scheduled, effect.notices_eq inbox.notices⟩
    intro index call present
    rw [threadMoved.calls] at present
    exact inbox.spares index call present

theorem fresh_inbox (state : State) (fresh : Fresh state) : InboxInvariant state := by
  rcases fresh with ⟨capacity, cells, box, sized, created, rfl⟩
  have facts := Mailbox.new_contents created
  refine ⟨?_, ?_, ?_, ?_⟩
  · apply Mailbox.new_wellFormed _ created
    intro items present
    cases present
    exact sized
  · intro index call present
    cases present
  · intro _ nonempty
    exact False.elim (nonempty facts.1)
  · simp only [State.start, Shared.new, facts.2.2.1, Bool.toNat_false]

theorem reachable_inbox {self : ServiceId} {state : State}
    (reachable : (machine self).Reachable state) : InboxInvariant state :=
  reachable.invariant fresh_inbox (step_inbox self)

/-- A step of a call on a reachable service. -/
theorem reachable_advance {self : ServiceId} {state next : State} {index : Nat} {outcome : Outcome}
    (reachable : (machine self).Reachable state)
    (moved : advance state index outcome = some next) :
    Exists fun call => Exists fun shared => Exists fun after =>
      state.calls[index]? = some call ∧ CallMove state.shared index call shared after ∧
        next = { state with shared, calls := state.calls.set index after } := by
  have inbox := reachable_inbox reachable
  rcases advance_cases moved with ⟨call, shared, after, present, taken, equal⟩
  exact ⟨call, shared, after, present,
    callStep_move inbox.valid (inbox.spares index call present) taken, equal⟩

/-- Everything a step of a reachable service can be. -/
theorem reachable_step_cases {self : ServiceId} {state next : State} {action : Action}
    (reachable : (machine self).Reachable state)
    (moved : (machine self).step state action = some next) :
    (Exists fun request : Request => next = { state with calls := state.calls ++ [request.call] }) ∨
    (Exists fun index => Exists fun call => Exists fun shared => Exists fun after =>
      state.calls[index]? = some call ∧ CallMove state.shared index call shared after ∧
        next = { state with shared, calls := state.calls.set index after }) ∨
    ThreadMove self state next := by
  cases action with
  | call request => exact Or.inl ⟨request, (Option.some.inj moved).symm⟩
  | advance index outcome => exact Or.inr (Or.inl ⟨index, reachable_advance reachable moved⟩)
  | thread choice => exact Or.inr (Or.inr (threadStep_move moved))

/-- What a step means for one call: it rests, or it is the one that moves. -/
theorem reachable_call_step {self : ServiceId} {state next : State} {action : Action}
    (reachable : (machine self).Reachable state)
    (moved : (machine self).step state action = some next) {position : Nat} {call : Call}
    (located : state.calls[position]? = some call) :
    Exists fun after => next.calls[position]? = some after ∧
      (after = call ∨ CallMove state.shared position call next.shared after) := by
  rcases reachable_step_cases reachable moved with
    ⟨request, rfl⟩ | ⟨index, other, shared, after, present, callMoved, rfl⟩ | threadMoved
  · refine ⟨call, ?_, Or.inl rfl⟩
    exact (List.getElem?_append_left (length_of_getElem? located)).trans located
  · by_cases own : index = position
    · subst own
      cases present.symm.trans located
      exact ⟨after, List.getElem?_set_self (length_of_getElem? located), Or.inr callMoved⟩
    · exact ⟨call, (List.getElem?_set_ne own).trans located, Or.inl rfl⟩
  · rw [threadMoved.calls]
    exact ⟨call, located, Or.inl rfl⟩

end Service
end ServiceRuntime
