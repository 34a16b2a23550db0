import ServiceRuntime.Service.StopReplies

namespace ServiceRuntime
namespace Service

open Lua (Letter Co)
open Foundation

/-!
# Services that never got a thread

A service is routable from `service_new` on, so its mailbox fills while it is
NEW.  It can end without a thread: by `service_stop`, or by a `service_start`
whose `pthread_create` fails.  Replies to requests that were never handled are
sent by `service_drain_mailbox`, which only the service thread runs; what
`service_join` does with the mailbox instead is `mailbox_delete`.
-/

/-- Without a thread nothing is ever answered, and letters leave the queue only
through `mailbox_delete`. -/
structure Silent (state : State) : Prop where
  replies : state.thread = .unborn -> state.shared.replies = []
  kept : state.thread = .unborn ->
    state.shared.accepted = state.shared.disposed ++ state.shared.box.contents

theorem FreeMove.silent {shared next : Shared} {pc after : FreePc}
    (moved : FreeMove shared pc next after) (valid : shared.box.WellFormed)
    (kept : shared.accepted = shared.disposed ++ shared.box.contents) :
    next.accepted = next.disposed ++ next.box.contents ∧ next.replies = shared.replies := by
  cases moved with
  | dispose found =>
      refine ⟨?_, rfl⟩
      have contents := popInbox_contents_some valid found
      rw [contents] at kept
      simp only [List.append_assoc, List.singleton_append]
      exact kept
  | done empty =>
      refine ⟨?_, rfl⟩
      have contents := popInbox_contents_none valid empty
      rw [contents.1] at kept
      rw [contents.2]
      exact kept
  | _ => exact ⟨kept, rfl⟩

theorem CallMove.silent {shared next : Shared} {index : Nat} {call after : Call}
    (moved : CallMove shared index call next after) (valid : shared.box.WellFormed)
    (kept : shared.accepted = shared.disposed ++ shared.box.contents) :
    next.accepted = next.disposed ++ next.box.contents ∧ next.replies = shared.replies := by
  cases moved with
  | send moved =>
      cases moved with
      | stored entering boxValid isOpen stays contents scheduled first =>
          refine ⟨?_, rfl⟩
          rw [contents, ← List.append_assoc, ← kept]
      | _ => exact ⟨kept, rfl⟩
  | stop moved => cases moved <;> exact ⟨kept, rfl⟩
  | start moved => cases moved <;> exact ⟨kept, rfl⟩
  | free moved => exact moved.silent valid kept
  | join moved =>
      cases moved with
      | free moved => exact moved.silent valid kept
      | _ => exact ⟨kept, rfl⟩

theorem step_silent (self : ServiceId) (state : State) (action : Action) (next : State)
    (reachable : (machine self).Reachable state) (silent : Silent state)
    (moved : (machine self).step state action = some next) : Silent next := by
  have valid := (reachable_inbox reachable).valid
  rcases reachable_step_cases reachable moved with
    ⟨request, rfl⟩ | ⟨index, call, shared, after, present, callMoved, rfl⟩ | threadMoved
  · exact ⟨silent.replies, silent.kept⟩
  · constructor
    · intro unborn
      exact (callMoved.silent valid (silent.kept unborn)).2.trans (silent.replies unborn)
    · intro unborn
      exact (callMoved.silent valid (silent.kept unborn)).1
  · have born : next.thread ≠ .unborn := by
      intro unborn
      apply threadMove_born threadMoved
      rw [unborn]
      rfl
    exact ⟨fun unborn => False.elim (born unborn), fun unborn => False.elim (born unborn)⟩

theorem fresh_silent (state : State) (fresh : Fresh state) : Silent state := by
  rcases fresh with ⟨capacity, cells, box, _sized, created, rfl⟩
  refine ⟨fun _ => rfl, fun _ => ?_⟩
  simp only [State.start, Shared.new, (Mailbox.new_contents created).1, List.append_nil]

theorem reachable_silent {self : ServiceId} {state : State}
    (reachable : (machine self).Reachable state) : Silent state :=
  reachable.induction fresh_silent (step_silent self)

/-- What `service_drain_mailbox` does for a service that had a thread, asked of
every service: once a join has returned 0, each awaited request the mailbox
accepted has had exactly one payload-less ERROR. -/
def JoinAnswers (self : ServiceId) (state : State) : Prop :=
  forall (index : Nat) fromThread,
    state.calls[index]? = some (.join fromThread (.returned 0)) ->
    forall letter, letter ∈ state.shared.accepted -> letter.message.Awaited ->
      (state.shared.replies.filter fun reply => reply.origin = letter.tag) =
        [⟨letter.tag, stopReply self letter.message⟩]

/-- A service that never got a thread answers nobody: all it accepted is
disposed of or still queued, so joining it leaves callers without an answer
exactly when the mailbox had accepted a request somebody waits for. -/
theorem threadless_join_answers_iff {self : ServiceId} {state : State}
    (reachable : (machine self).Reachable state)
    (threadless : state.shared.threadCreated = false)
    (joined : Exists fun index : Nat => Exists fun fromThread =>
      state.calls[index]? = some (.join fromThread (.returned 0))) :
    (JoinAnswers self state <->
      forall letter, letter ∈ state.shared.accepted -> ¬ letter.message.Awaited) ∧
    state.shared.accepted = state.shared.disposed ++ state.shared.box.contents := by
  have silent := reachable_silent reachable
  have unborn := (reachable_lifecycle reachable).unborn_of_threadless threadless
  refine ⟨⟨?_, ?_⟩, silent.kept unborn⟩
  · intro answers letter member awaited
    rcases joined with ⟨index, fromThread, returned⟩
    have reply := answers index fromThread returned letter member awaited
    rw [silent.replies unborn] at reply
    cases reply
  · intro unasked index fromThread returned letter member awaited
    exact False.elim (unasked letter member awaited)

/-- A request is accepted by a NEW service, which is then stopped and joined. -/
def abandonedRun : List Action :=
  let free : Outcome := ⟨none, 0⟩
  List.flatten
    [[.call (.send ⟨1, 7, 5, .request, some 0⟩)],
      List.replicate 4 (.advance 0 free),
      [.call .stop],
      List.replicate 3 (.advance 1 free),
      [.call (.join false)],
      List.replicate 11 (.advance 2 free)]

def abandonedBox : Mailbox Letter :=
  { items := [⟨⟨0, 0, 0, .system, none⟩, 0⟩], capacity := 1, head := 0, tail := 0, count := 0,
    initialCapacity := 1, overload := 0, overloadThreshold := 1, closed := false,
    scheduled := false }

/-- The run ends with a join that returned 0, the request disposed of and
nothing sent. -/
def Abandoned (state : State) : Prop :=
  state.shared.threadCreated = false ∧
  state.calls[2]? = some (.join false (.returned 0)) ∧
  state.shared.accepted = [⟨⟨1, 7, 5, .request, some 0⟩, 0⟩] ∧
  state.shared.disposed = [⟨⟨1, 7, 5, .request, some 0⟩, 0⟩]

instance (state : State) : Decidable (Abandoned state) :=
  inferInstanceAs (Decidable (_ ∧ _))

theorem abandonedRun_ends :
    Exists fun state => (machine 7).Reachable state ∧ Abandoned state := by
  have fresh : (machine 7).initial (.start abandonedBox) :=
    ⟨1, abandonedBox.items, abandonedBox, rfl, by decide, rfl⟩
  have ends : ((machine 7).run (.start abandonedBox) abandonedRun).any
      (fun final => decide (Abandoned final)) = true := by decide +kernel
  exact (machine 7).exists_reachable fresh ends

/-- The caller of that request is never answered. -/
theorem abandoned_caller_unanswered :
    Exists fun state => (machine 7).Reachable state ∧ state.shared.threadCreated = false ∧
      state.calls[2]? = some (.join false (.returned 0)) ∧ ¬ JoinAnswers 7 state := by
  rcases abandonedRun_ends with ⟨state, reachable, threadless, joined, accepted, _disposed⟩
  refine ⟨state, reachable, threadless, joined, ?_⟩
  intro answers
  have reply := answers 2 false joined ⟨⟨1, 7, 5, .request, some 0⟩, 0⟩
    (by rw [accepted]; exact List.mem_singleton_self _) (by decide)
  have unborn := (reachable_lifecycle reachable).unborn_of_threadless threadless
  rw [(reachable_silent reachable).replies unborn] at reply
  cases reply

theorem threadless_join_answers_iff_abandoned :
    Exists fun state => (machine 7).Reachable state ∧ state.shared.threadCreated = false ∧
      (JoinAnswers 7 state <->
        forall letter, letter ∈ state.shared.accepted -> ¬ letter.message.Awaited) ∧
      state.shared.accepted = state.shared.disposed ++ state.shared.box.contents := by
  rcases abandonedRun_ends with ⟨state, reachable, threadless, joined, _accepted, _disposed⟩
  have result := threadless_join_answers_iff reachable threadless ⟨2, false, joined⟩
  exact ⟨state, reachable, threadless, result.1, result.2⟩

end Service
end ServiceRuntime
