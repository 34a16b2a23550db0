import ServiceRuntime.Service.Letters

namespace ServiceRuntime
namespace Service

open Lua (Letter Co)
open Foundation

/-!
# The order of letters

The queue hands letters out in the order in which it took them, first to the
Lua code, then to the drain of the shutdown, and what is left to
`mailbox_delete`.  The Lua code gets nothing once the drain has begun: the
mailbox is closed by then, and the drain leaves it empty.
-/

/-- The drain is under way. -/
def ThreadPc.draining : ThreadPc -> Bool
  | .shutdown _ .drain | .shutdown _ (.drained _) => true
  | _ => false

structure Ordered (state : State) : Prop where
  order : state.shared.accepted = state.shared.popped ++ state.shared.drained ++
    state.shared.disposed ++ state.shared.box.contents
  drained : state.shared.drained ≠ [] -> state.shared.box.closed = true ∧
    (state.thread.draining = true ∨ state.shared.box.contents = [])

/-! ## The queue and the log of what it accepted -/

theorem ne_append_singleton {Item : Type} (items : List Item) (item : Item) :
    items ≠ items ++ [item] := by
  intro equal
  have lengths := congrArg List.length equal
  rw [List.length_append, List.length_singleton] at lengths
  omega

theorem ne_cons_self {Item : Type} (item : Item) (items : List Item) : items ≠ item :: items := by
  intro equal
  have lengths := congrArg List.length equal
  rw [List.length_cons] at lengths
  omega

namespace QueueStep

variable {shared next : Shared}

theorem accepted_same (step : QueueStep shared next)
    (contents : next.box.contents = shared.box.contents) : next.accepted = shared.accepted := by
  cases step with
  | same _ _ _ accepted _ | released _ _ _ _ accepted _ | popped _ _ _ _ accepted _ => exact accepted
  | stored letter stored => exact absurd (contents.symm.trans stored) (ne_append_singleton _ letter)

theorem accepted_stored (step : QueueStep shared next) {letter : Letter}
    (contents : next.box.contents = shared.box.contents ++ [letter]) :
    next.accepted = shared.accepted ++ [letter] ∧ shared.box.closed = false := by
  cases step with
  | same equal | released equal =>
      exact absurd (equal.symm.trans contents) (ne_append_singleton _ letter)
  | stored other stored isOpen _ accepted _ =>
      have same : other = letter := by
        simpa only [List.append_cancel_left_eq, List.cons.injEq, and_true] using stored.symm.trans contents
      exact ⟨same ▸ accepted, isOpen⟩
  | popped other popped =>
      have lengths := congrArg List.length popped
      rw [contents, List.length_cons, List.length_append, List.length_singleton] at lengths
      omega

theorem accepted_taken (step : QueueStep shared next) {letter : Letter}
    (contents : shared.box.contents = letter :: next.box.contents) :
    next.accepted = shared.accepted ∧ next.box.closed = shared.box.closed := by
  cases step with
  | same equal => exact absurd (equal.trans contents) (ne_cons_self letter _)
  | released equal => exact absurd (equal.trans contents) (ne_cons_self letter _)
  | stored other stored =>
      have lengths := congrArg List.length stored
      rw [contents, List.length_append, List.length_cons, List.length_singleton] at lengths
      omega
  | popped _ _ closed _ accepted _ => exact ⟨accepted, closed⟩

/-- A closed mailbox stays closed. -/
theorem stays_closed (step : QueueStep shared next) (closed : shared.box.closed = true) :
    next.box.closed = true := by
  cases step with
  | same _ keeps _ _ _ => exact keeps closed
  | stored _ _ isOpen _ _ _ => cases closed.symm.trans isOpen
  | popped _ _ same _ _ _ | released _ _ same _ _ _ => exact same.trans closed

end QueueStep

/-! ## The drain -/

theorem ThreadPc.Shut.of_draining {box : Mailbox Letter} {thread : ThreadPc} (shut : thread.Shut box)
    (draining : thread.draining = true) : box.closed = true := by
  cases thread with
  | shutdown caller pc =>
      cases pc with
      | drain | drained letter => exact shut
      | retire | close | waitPins => cases draining
  | _ => cases draining

/-- The drain does not stop before the queue is empty, and meanwhile the Lua
code gets nothing. -/
theorem ThreadMove.from_drain {self : ServiceId} {state next : State}
    (moved : ThreadMove self state next) (valid : state.shared.box.WellFormed)
    (draining : state.thread.draining = true) :
    next.shared.popped = state.shared.popped ∧
      (next.thread.draining = true ∨ next.shared.box.contents = []) := by
  cases moved with
  | shutdownStep located moved =>
      rw [located] at draining
      cases moved with
      | retire | close | waited => cases draining
      | popped | answered | skipped => exact ⟨rfl, Or.inl rfl⟩
  | shutdownDone located moved =>
      cases moved with
      | done empty => exact ⟨rfl, Or.inr (popInbox_contents_none valid empty).2⟩
  | walk located walked =>
      rw [located] at draining
      cases walked <;> exact Bool.noConfusion draining
  | selfWake located | inboxClosed located | controlClosed located =>
      rcases located with located | located <;> rw [located] at draining <;> cases draining
  | loopReady located | inboxReady located | controlReady located | luaReady located
  | started located | notStarted located | wakeInbox located | wakeControl located
  | lua located | popped located | poppedNone located | quitStep located | quitDone located
  | overloaded located | failStep located | batchGoesOn located | batchEnds located
  | closeHandles located | finishLock located | luaClosed located | published located =>
      rw [located] at draining
      cases draining

/-- Only the drain drains. -/
theorem ThreadMove.into_drained {self : ServiceId} {state next : State}
    (moved : ThreadMove self state next) : next.shared.drained = state.shared.drained ∨
      (state.thread.draining = true ∧ next.thread.draining = true) := by
  cases moved with
  | shutdownStep located moved =>
      rw [located]
      cases moved with
      | popped => exact Or.inr ⟨rfl, rfl⟩
      | retire | close | waited | answered | skipped => exact Or.inl rfl
  | shutdownDone located moved =>
      cases moved
      exact Or.inl rfl
  | quitStep located moved | failStep located moved => cases moved <;> exact Or.inl rfl
  | _ => exact Or.inl rfl

/-! ## The invariant -/

/-- Something is disposed of only after the thread has run for the last time. -/
theorem disposed_eq_nil {self : ServiceId} {state next : State}
    (reachable : (machine self).Reachable state) (moved : ThreadMove self state next) :
    state.shared.disposed = [] := by
  by_contra some
  have early := moved.early (reachable_lifecycle reachable)
  exact early (Nat.le_of_succ_le ((reachable_disposal reachable).disposed some))

theorem callMove_ordered {state : State} {index : Nat} {call after : Call} {shared : Shared}
    (ordered : Ordered state) (valid : state.shared.box.WellFormed)
    (moved : CallMove state.shared index call shared after) :
    Ordered { state with shared, calls := state.calls.set index after } := by
  have queue := (moved.queue valid).2.1
  have order := ordered.order
  cases moved.flow valid with
  | rests same =>
      refine ⟨?_, fun some => ?_⟩
      · show shared.accepted = shared.popped ++ shared.drained ++ shared.disposed ++ shared.box.contents
        rw [queue.accepted_same same.contents, same.popped, same.drained, same.disposed, same.contents]
        exact order
      · have before := ordered.drained (same.drained ▸ some)
        exact ⟨queue.stays_closed before.1, same.contents.symm ▸ before.2⟩
  | stored _ _ _ _ contents popped drained disposed =>
      have accepted := queue.accepted_stored contents
      refine ⟨?_, fun some => ?_⟩
      · show shared.accepted = shared.popped ++ shared.drained ++ shared.disposed ++ shared.box.contents
        rw [accepted.1, popped, drained, disposed, contents, order]
        simp only [List.append_assoc]
      · have before := ordered.drained (drained ▸ some)
        cases before.1.symm.trans accepted.2
  | disposed _ _ _ contents popped drained disposed =>
      have taken := queue.accepted_taken contents
      refine ⟨?_, fun some => ?_⟩
      · show shared.accepted = shared.popped ++ shared.drained ++ shared.disposed ++ shared.box.contents
        rw [taken.1, popped, drained, disposed, order, contents]
        simp only [List.append_assoc, List.singleton_append]
      · have before := ordered.drained (drained ▸ some)
        refine ⟨taken.2.trans before.1, before.2.imp id fun empty => ?_⟩
        cases contents.symm.trans empty

theorem threadMove_ordered {self : ServiceId} {state next : State}
    (reachable : (machine self).Reachable state) (ordered : Ordered state)
    (moved : ThreadMove self state next) : Ordered next := by
  have valid := (reachable_inbox reachable).valid
  have queue := (threadMove_queue moved valid).2
  have shut := (reachable_accounts reachable).shut
  have nothing := disposed_eq_nil reachable moved
  have order := ordered.order
  rw [nothing, List.append_nil] at order
  cases moved.flow valid with
  | rests same =>
      refine ⟨?_, fun some => ?_⟩
      · rw [queue.accepted_same same.contents, same.popped, same.drained, same.disposed,
          same.contents, nothing, List.append_nil]
        exact order
      · -- a drain that has begun goes on until the queue is empty
        have before := ordered.drained (same.drained ▸ some)
        refine ⟨queue.stays_closed before.1, ?_⟩
        rcases before.2 with draining | empty
        · exact (moved.from_drain valid draining).2
        · exact Or.inr (same.contents.trans empty)
  | popped _ _ _ contents popped drained disposed =>
      have never : state.thread.draining = false := by
        cases draining : state.thread.draining with
        | false => rfl
        | true =>
            exact absurd ((moved.from_drain valid draining).1.symm.trans popped)
              (ne_append_singleton _ _)
      have none : state.shared.drained = [] := by
        by_contra some
        rcases (ordered.drained some).2 with draining | empty
        · cases never.symm.trans draining
        · cases contents.symm.trans empty
      refine ⟨?_, fun some => absurd (drained.trans none) some⟩
      rw [(queue.accepted_taken contents).1, popped, drained, disposed, order, none, nothing, contents]
      simp only [List.append_nil, List.append_assoc, List.singleton_append]
  | drained _ _ _ contents popped drained disposed =>
      rcases moved.into_drained with same | ⟨before, after⟩
      · exact absurd (same.symm.trans drained) (ne_append_singleton _ _)
      · refine ⟨?_, fun _ => ⟨queue.stays_closed (shut.of_draining before), Or.inl after⟩⟩
        rw [(queue.accepted_taken contents).1, popped, drained, disposed, order, nothing, contents]
        simp only [List.append_nil, List.append_assoc, List.singleton_append]

theorem step_ordered (self : ServiceId) (state : State) (action : Action) (next : State)
    (reachable : (machine self).Reachable state) (ordered : Ordered state)
    (moved : (machine self).step state action = some next) : Ordered next := by
  rcases reachable_step_cases reachable moved with
    ⟨request, rfl⟩ | ⟨index, call, shared, after, present, callMoved, rfl⟩ | threadMoved
  · exact ⟨ordered.order, ordered.drained⟩
  · exact callMove_ordered ordered (reachable_inbox reachable).valid callMoved
  · exact threadMove_ordered reachable ordered threadMoved

theorem fresh_ordered (state : State) (fresh : Fresh state) : Ordered state := by
  rcases fresh with ⟨capacity, cells, box, _sized, created, rfl⟩
  refine ⟨?_, fun some => absurd rfl some⟩
  simp only [State.start, Shared.new, (Mailbox.new_contents created).1, List.append_nil]

theorem reachable_ordered {self : ServiceId} {state : State}
    (reachable : (machine self).Reachable state) : Ordered state :=
  reachable.induction fresh_ordered (step_ordered self)

/-- A letter in the log stands for a call that was accepted. -/
theorem accepted_of_mem {self : ServiceId} {state : State} (reachable : (machine self).Reachable state)
    {letter : Letter} (member : letter ∈ state.shared.accepted) :
    Exists fun call => state.calls[letter.tag]? = some call ∧ call.accepted ≠ 0 := by
  have placed := reachable_placed reachable letter.tag
  rcases List.getElem?_of_mem member with ⟨position, found⟩
  have there := quantity_le_weight (Letter.named letter.tag) found
  rw [(reachable_ordered reachable).order] at there
  simp only [weight_append, Letter.named, Lua.names, if_true] at there
  have somewhere : 0 < state.shared.places letter.tag := by
    simp only [Shared.places]
    omega
  rw [placed] at somewhere
  cases present : state.calls[letter.tag]? with
  | none =>
      rw [present] at somewhere
      exact absurd somewhere (Nat.lt_irrefl 0)
  | some call =>
      rw [present] at somewhere
      exact ⟨call, rfl, Nat.pos_iff_ne_zero.mp somewhere⟩

end Service
end ServiceRuntime
