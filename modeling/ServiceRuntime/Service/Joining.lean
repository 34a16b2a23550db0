import ServiceRuntime.Service.Lifecycle

namespace ServiceRuntime
namespace Service

open Lua (Letter Co)
open Foundation

/-!
# One join at a time

`joining` admits one caller of `service_join` to the part that waits for the
thread and frees the service; the others wait for it and return its result.
`service_free` is public, but `service_join` is its only caller, and a second
`service_free` beside it would make that join fail with `EBUSY`.  On a service
nobody frees directly a join therefore succeeds whenever it is admitted, and
what it returns says that the service is FREED.
-/

/-! ## The caller that joins -/

/-- The join has set `joining` and has not cleared it. -/
def JoinPc.critical : JoinPc -> Bool
  | .pthreadJoin _ | .publish | .free _ | .finish _ => true
  | .enter | .waiting _ | .returned _ => false

def Call.critical : Call -> Nat
  | .join _ pc => pc.critical.toNat
  | _ => 0

def FreePc.Joins (shared : Shared) : FreePc -> Prop
  | .retire | .wait | .lock => shared.state = .joined
  | .delete | .dispose => shared.state = .freed
  | .returned error => shared.state = .freed ∧ error = 0

/-- What the admitted join knows at each of its points. -/
def JoinPc.Joins (shared : Shared) : JoinPc -> Prop
  | .pthreadJoin _ | .publish => shared.threadJoined = false
  | .free pc => pc.Joins shared
  | .finish error => shared.state = .freed ∧ error = 0
  | .enter | .waiting _ | .returned _ => True

/-- Nobody but a join frees the service. -/
def Call.Joins (shared : Shared) : Call -> Prop
  | .join _ pc => pc.Joins shared
  | .free _ => False
  | _ => True

/-- None of this is about `joining` itself. -/
theorem Call.Joins.joining {shared : Shared} {call : Call} (joins : call.Joins shared)
    (joining : Bool) : call.Joins { shared with joining } := by
  cases call with
  | join fromThread pc =>
      cases pc with
      | free pc => cases pc <;> exact joins
      | enter | waiting | pthreadJoin | publish | finish | returned => exact joins
  | send | stop | start | free => exact joins

structure JoinInvariant (state : State) : Prop where
  single : weight Call.critical state.calls = state.shared.joining.toNat
  calls : forall (index : Nat) call, state.calls[index]? = some call -> call.Joins state.shared
  error : state.shared.joinError = 0
  settled : state.shared.threadJoined = true -> state.shared.joining = false ->
    state.shared.state = .freed
  late : 5 ≤ state.shared.state.rank -> state.shared.threadJoined = true

/-! ## Steps of everybody else -/

/-- The step belongs to no join, and leaves a JOINED or FREED service alone. -/
structure SameJoin (shared next : Shared) : Prop where
  joining : next.joining = shared.joining
  joined : next.threadJoined = shared.threadJoined
  error : next.joinError = shared.joinError
  early : 5 ≤ next.state.rank -> next.state = shared.state
  late : 5 ≤ shared.state.rank -> next.state = shared.state

namespace SameJoin

variable {shared next : Shared}

theorem of_state (state : next.state = shared.state) (joining : next.joining = shared.joining)
    (joined : next.threadJoined = shared.threadJoined) (error : next.joinError = shared.joinError) :
    SameJoin shared next :=
  ⟨joining, joined, error, fun _ => state, fun _ => state⟩

/-- Neither before nor after the step has the service been joined. -/
theorem of_early (after : Phase) (earlyBefore : shared.state.rank < 5) (new : next.state = after)
    (earlyAfter : after.rank < 5) (joining : next.joining = shared.joining)
    (joined : next.threadJoined = shared.threadJoined) (error : next.joinError = shared.joinError) :
    SameJoin shared next := by
  refine ⟨joining, joined, error, fun late => ?_, fun late => ?_⟩
  · rw [new] at late
    exact absurd late (Nat.not_le.mpr earlyAfter)
  · exact absurd late (Nat.not_le.mpr earlyBefore)

theorem keeps_joined (same : SameJoin shared next) (before : shared.state = .joined) :
    next.state = .joined :=
  (same.late (by rw [before]; decide)).trans before

theorem keeps_freed (same : SameJoin shared next) (before : shared.state = .freed) :
    next.state = .freed :=
  (same.late (by rw [before]; decide)).trans before

theorem freeJoins (same : SameJoin shared next) {pc : FreePc} (before : pc.Joins shared) :
    pc.Joins next := by
  cases pc with
  | retire | wait | lock => exact same.keeps_joined before
  | delete | dispose => exact same.keeps_freed before
  | returned error => exact ⟨same.keeps_freed before.1, before.2⟩

theorem joins (same : SameJoin shared next) {call : Call} (before : call.Joins shared) :
    call.Joins next := by
  cases call with
  | join fromThread pc =>
      cases pc with
      | pthreadJoin hasThread => exact same.joined.trans before
      | publish => exact same.joined.trans before
      | free pc => exact same.freeJoins before
      | finish error => exact ⟨same.keeps_freed before.1, before.2⟩
      | enter | waiting | returned => trivial
  | free pc => exact before
  | send | stop | start => trivial

end SameJoin

/-- A step outside the joins keeps the invariant, whatever it does to the pool
as long as it adds nothing critical. -/
theorem JoinInvariant.of_same {state next : State} (invariant : JoinInvariant state)
    (same : SameJoin state.shared next.shared)
    (single : weight Call.critical next.calls = weight Call.critical state.calls)
    (calls : forall (index : Nat) call, next.calls[index]? = some call -> call.Joins next.shared) :
    JoinInvariant next := by
  refine ⟨?_, calls, same.error.trans invariant.error, ?_, ?_⟩
  · rw [single, same.joining]
    exact invariant.single
  · intro joined idle
    apply same.keeps_freed
    exact invariant.settled (same.joined.symm.trans joined) (same.joining.symm.trans idle)
  · intro late
    rw [same.joined]
    apply invariant.late
    rw [← same.early late]
    exact late

theorem SendMove.sameJoin {shared next : Shared} {letter : Letter} {pc after : SendPc}
    (moved : SendMove shared letter pc next after) : SameJoin shared next := by
  cases moved <;> exact .of_state rfl rfl rfl rfl

theorem StopMove.sameJoin {shared next : Shared} {pc after : StopPc}
    (moved : StopMove shared pc next after) : SameJoin shared next := by
  cases moved with
  | stopNew new => exact .of_early .stopped (by rw [new]; decide) rfl (by decide) rfl rfl rfl
  | stop active =>
      rcases active with active | active <;>
        exact .of_early .stopping (by rw [active]; decide) rfl (by decide) rfl rfl rfl
  | retire | late | close | signal => exact .of_state rfl rfl rfl rfl

theorem StartMove.sameJoin {shared next : Shared} {pc after : StartPc}
    (moved : StartMove shared pc next after) : SameJoin shared next := by
  cases moved with
  | start new => exact .of_early .starting (by rw [new]; decide) rfl (by decide) rfl rfl rfl
  | fail new => exact .of_early .stopped (by rw [new]; decide) rfl (by decide) rfl rfl rfl
  | already | failRetire | failClose | done => exact .of_state rfl rfl rfl rfl

theorem ShutdownMove.sameJoin {self : ServiceId} {shared next : Shared} {pc : ShutdownPc}
    {after : Option ShutdownPc} (moved : ShutdownMove self shared pc next after) :
    SameJoin shared next := by
  cases moved <;> exact .of_state rfl rfl rfl rfl

theorem ThreadMove.sameJoin {self : ServiceId} {state next : State}
    (moved : ThreadMove self state next) (life : Lifecycle state) :
    SameJoin state.shared next.shared := by
  have early : state.shared.state.rank < 5 := Nat.lt_succ_of_lt (Nat.not_le.mp (moved.early life))
  cases moved with
  | quitStep located moved | failStep located moved => exact moved.sameJoin
  | shutdownStep located moved | shutdownDone located moved => exact moved.sameJoin
  | started => exact .of_early .running early rfl (by decide) rfl rfl rfl
  | notStarted => exact .of_early .stopping early rfl (by decide) rfl rfl rfl
  | published => exact .of_early .stopped early rfl (by decide) rfl rfl rfl
  | finishLock located =>
      have later : (if state.shared.state.rank < Phase.stopping.rank then Phase.stopping
          else state.shared.state).rank < 5 := by
        split
        · decide
        · exact early
      exact .of_early _ early rfl later rfl rfl rfl
  | _ => exact .of_state rfl rfl rfl rfl

/-! ## Steps of a join -/

/-- While one caller is admitted, nobody else is. -/
theorem JoinInvariant.alone {state : State} (invariant : JoinInvariant state) {index : Nat}
    {call : Call} (present : state.calls[index]? = some call) (inside : call.critical = 1) :
    state.shared.joining = true ∧
      forall position other, position ≠ index -> state.calls[position]? = some other ->
        other.critical = 0 := by
  have single := invariant.single
  constructor
  · have part := quantity_le_weight Call.critical present
    cases joining : state.shared.joining with
    | true => rfl
    | false =>
        rw [joining, Bool.toNat_false] at single
        omega
  · intro position other distinct beside
    have pair := quantity_pair_le_weight Call.critical present beside distinct
    have bound := Bool.toNat_le state.shared.joining
    omega

theorem Call.Joins.of_idle {shared next : Shared} {call : Call} (idle : call.critical = 0)
    (joins : call.Joins shared) : call.Joins next := by
  cases call with
  | join fromThread pc =>
      cases pc with
      | pthreadJoin | publish | free | finish => cases idle
      | enter | waiting | returned => trivial
  | free pc => exact joins
  | send | stop | start => trivial

/-- A step of the admitted join, which nobody else can disturb. -/
theorem JoinInvariant.of_admitted {state : State} (invariant : JoinInvariant state) {index : Nat}
    {call after : Call} {shared : Shared} (present : state.calls[index]? = some call)
    (inside : call.critical = 1) (single : after.critical = shared.joining.toNat)
    (joins : after.Joins shared) (error : shared.joinError = 0)
    (settled : shared.threadJoined = true -> shared.joining = false -> shared.state = .freed)
    (late : 5 ≤ shared.state.rank -> shared.threadJoined = true) :
    JoinInvariant { state with shared, calls := state.calls.set index after } := by
  have alone := invariant.alone present inside
  have before := invariant.single
  have exchange := weight_set Call.critical present after
  rw [alone.1, Bool.toNat_true] at before
  refine ⟨?_, ?_, error, settled, late⟩
  · show weight Call.critical (state.calls.set index after) = shared.joining.toNat
    omega
  · apply forall_set_others
    · intro position other distinct beside
      exact Call.Joins.of_idle (alone.2 position other distinct beside)
        (invariant.calls position other beside)
    · intro _
      exact joins

theorem FreeMove.joins {shared next : Shared} {pc after : FreePc}
    (moved : FreeMove shared pc next after) (before : pc.Joins shared) :
    after.Joins next ∧ next.joining = shared.joining ∧ next.threadJoined = shared.threadJoined ∧
      next.joinError = shared.joinError ∧ 5 ≤ shared.state.rank := by
  have joined (equal : shared.state = .joined) : 5 ≤ shared.state.rank := by
    rw [equal]
    decide
  have freed (equal : shared.state = .freed) : 5 ≤ shared.state.rank := by
    rw [equal]
    decide
  cases moved with
  | retire | wait => exact ⟨before, rfl, rfl, rfl, joined before⟩
  | free => exact ⟨rfl, rfl, rfl, rfl, joined before⟩
  | busy unjoined => exact False.elim (unjoined before)
  | delete | dispose => exact ⟨before, rfl, rfl, rfl, freed before⟩
  | done => exact ⟨⟨before, rfl⟩, rfl, rfl, rfl, freed before⟩

theorem JoinMove.joinInvariant {state : State} (invariant : JoinInvariant state) {index : Nat}
    {fromThread : Bool} {pc after : JoinPc} {shared : Shared}
    (present : state.calls[index]? = some (.join fromThread pc))
    (moved : JoinMove state.shared fromThread pc shared after) :
    JoinInvariant
      { state with shared, calls := state.calls.set index (.join fromThread after) } := by
  have joins : pc.Joins state.shared := invariant.calls index _ present
  have passes (idle : pc.critical = false) (idleAfter : after.critical = false)
      (same : SameJoin state.shared shared) : JoinInvariant
        { state with shared, calls := state.calls.set index (.join fromThread after) } := by
    have exchange := weight_set Call.critical present (.join fromThread after)
    simp only [Call.critical, idle, idleAfter, Nat.add_right_cancel_iff] at exchange
    refine invariant.of_same same exchange ?_
    apply forall_set (fun position member found => same.joins (invariant.calls position member found))
    intro _
    cases after with
    | pthreadJoin | publish | free | finish => cases idleAfter
    | enter | waiting | returned => trivial
  have unchanged : SameJoin state.shared state.shared := .of_state rfl rfl rfl rfl
  cases moved with
  | deadlock => exact passes rfl rfl unchanged
  | wait => exact passes rfl rfl unchanged
  | past arrives | refuse arrives =>
      apply passes _ rfl unchanged
      rcases arrives.2 with ⟨rfl, _⟩ | rfl <;> rfl
  | claim arrives unjoined allowed =>
      rename_i hasThread
      have idle : (Call.join fromThread pc).critical = 0 := by
        rcases arrives.2 with ⟨rfl, _⟩ | rfl <;> rfl
      have exchange := weight_set Call.critical present (.join fromThread (.pthreadJoin hasThread))
      have nobody := invariant.single
      rw [arrives.1, Bool.toNat_false] at nobody
      have one : (Call.join fromThread (.pthreadJoin hasThread)).critical = 1 := rfl
      refine ⟨?_, ?_, invariant.error, fun _ idle => Bool.noConfusion idle, invariant.late⟩
      · show weight Call.critical (state.calls.set index _) = 1
        omega
      · apply forall_set (fun position member found =>
          (invariant.calls position member found).joining true)
        intro _
        exact (Bool.not_eq_true _).mp (fun joined => unjoined (Or.inl joined))
  | reap gone =>
      have alone := invariant.alone present rfl
      exact invariant.of_admitted present rfl (congrArg Bool.toNat alone.1).symm joins invariant.error
        invariant.settled invariant.late
  | publish =>
      have alone := invariant.alone present rfl
      refine invariant.of_admitted present rfl (congrArg Bool.toNat alone.1).symm rfl rfl ?_ fun _ => rfl
      intro _ idle
      cases alone.1.symm.trans idle
  | free moved =>
      have alone := invariant.alone present rfl
      rcases moved.joins joins with ⟨after, joining, joined, error, late⟩
      refine invariant.of_admitted present rfl ?_ after (error.trans invariant.error) ?_ ?_
      · rw [joining, alone.1]
        rfl
      · intro _ idle
        cases (joining.trans alone.1).symm.trans idle
      · intro _
        exact joined.trans (invariant.late late)
  | freed =>
      have alone := invariant.alone present rfl
      exact invariant.of_admitted present rfl (congrArg Bool.toNat alone.1).symm joins invariant.error
        invariant.settled invariant.late
  | finish =>
      exact invariant.of_admitted present rfl rfl trivial invariant.error (fun _ _ => joins.1)
        invariant.late

theorem CallMove.joinInvariant {state : State} (invariant : JoinInvariant state) {index : Nat}
    {call after : Call} {shared : Shared} (present : state.calls[index]? = some call)
    (moved : CallMove state.shared index call shared after) :
    JoinInvariant { state with shared, calls := state.calls.set index after } := by
  -- A call that is no join has no part in the joining.
  have beside (same : SameJoin state.shared shared) (idle : call.critical = 0)
      (idleAfter : after.critical = 0) (joins : after.Joins shared) :
      JoinInvariant { state with shared, calls := state.calls.set index after } := by
    have exchange := weight_set Call.critical present after
    rw [idle, idleAfter] at exchange
    refine invariant.of_same same exchange ?_
    exact forall_set (fun position member found => same.joins (invariant.calls position member found))
      (fun _ => joins)
  cases moved with
  | send moved => exact beside moved.sameJoin rfl rfl trivial
  | stop moved => exact beside moved.sameJoin rfl rfl trivial
  | start moved => exact beside moved.sameJoin rfl rfl trivial
  | join moved => exact moved.joinInvariant invariant present
  | free moved => exact False.elim (invariant.calls index _ present)

/-! ## The invariant -/

theorem step_joinInvariant {self : ServiceId} {state next : State} {action : Action}
    (reachable : (machine self).Reachable state) (invariant : JoinInvariant state)
    (indirect : action ≠ .call .free) (moved : (machine self).step state action = some next) :
    JoinInvariant next := by
  cases action with
  | call request =>
      cases moved
      refine invariant.of_same (.of_state rfl rfl rfl rfl) ?_ ?_
      · cases request <;> simp only [weight_append, weight_cons, weight_nil] <;> rfl
      · apply forall_append_singleton invariant.calls
        cases request with
        | free => exact indirect rfl
        | send | stop | start | join => trivial
  | advance index outcome =>
      rcases reachable_advance reachable moved with ⟨call, shared, after, present, callMoved, rfl⟩
      exact callMoved.joinInvariant invariant present
  | thread choice =>
      have threadMoved := threadStep_move moved
      have same := threadMoved.sameJoin (reachable_lifecycle reachable)
      refine invariant.of_same same ?_ ?_
      · rw [threadMoved.calls]
      · intro index call present
        rw [threadMoved.calls] at present
        exact same.joins (invariant.calls index call present)

theorem fresh_joinInvariant (box : Mailbox Letter) : JoinInvariant (.start box) where
  single := rfl
  calls := fun index call present => by cases present
  error := rfl
  settled := fun joined => by cases joined
  late := fun late => absurd late (show ¬ 5 ≤ Phase.new.rank by decide)

/-! ## Services that have been told to stop -/

theorem PhaseStep.stopping {shared next : Shared} (moved : PhaseStep shared next)
    (before : 3 ≤ shared.state.rank) : 3 ≤ next.state.rank := by
  cases moved with
  | same equal =>
      rw [equal.state]
      exact before
  | stopNew new | start new =>
      rw [new] at before
      exact absurd before (by decide)
  | stop active =>
      rcases active with active | active <;> rw [active] at before <;> exact absurd before (by decide)
  | join past after => exact Nat.le_trans (by decide) after

theorem ThreadMove.stopping {self : ServiceId} {state next : State}
    (moved : ThreadMove self state next) (life : Lifecycle state)
    (before : 3 ≤ state.shared.state.rank) : 3 ≤ next.shared.state.rank := by
  cases moved with
  | quitStep located moved | failStep located moved => exact moved.phase.1.stopping before
  | shutdownStep located moved | shutdownDone located moved =>
      exact (PhaseStep.same moved.phase.1).stopping before
  | started located wanted =>
      have fits := life.stage
      rw [located] at fits
      rcases fits.2.2 with starting | stopping
      · rw [starting.1] at before
        exact absurd before (by decide)
      · cases wanted.symm.trans stopping.2
  | notStarted => exact (by decide : 3 ≤ Phase.stopping.rank)
  | published => exact (by decide : 3 ≤ Phase.stopped.rank)
  | finishLock located =>
      show 3 ≤ (if state.shared.state.rank < Phase.stopping.rank then Phase.stopping
        else state.shared.state).rank
      split
      · decide
      · exact before
  | _ => exact before

/-- Nothing takes a service back from STOPPING. -/
theorem step_stopping {self : ServiceId} {state next : State} {action : Action}
    (reachable : (machine self).Reachable state) (stopping : 3 ≤ state.shared.state.rank)
    (moved : (machine self).step state action = some next) : 3 ≤ next.shared.state.rank := by
  have life := reachable_lifecycle reachable
  rcases reachable_step_cases reachable moved with
    ⟨request, rfl⟩ | ⟨index, call, shared, after, present, callMoved, rfl⟩ | threadMoved
  · exact stopping
  · have phase := (callMoved.phase (life.calls index call present)
      (Stage.Fits.late life.stage) life.joining).1
    exact phase.stopping stopping
  · exact threadMoved.stopping life stopping

/-- A `service_stop` past its section has told the service to stop. -/
def Call.Told (shared : Shared) : Call -> Prop
  | .stop .retire | .stop .lock => True
  | .stop (.close _) | .stop .signal | .stop .returned => 3 ≤ shared.state.rank
  | _ => True

theorem Call.Told.later {shared next : Shared} {call : Call} (told : call.Told shared)
    (stable : 3 ≤ shared.state.rank -> 3 ≤ next.state.rank) : call.Told next := by
  cases call with
  | stop pc =>
      cases pc with
      | retire | lock => trivial
      | close | signal | returned => exact stable told
  | send | start | join | free => trivial

theorem StopMove.told {shared next : Shared} {pc after : StopPc}
    (moved : StopMove shared pc next after) (told : (Call.stop pc).Told shared) :
    (Call.stop after).Told next := by
  cases moved with
  | retire => trivial
  | stopNew => exact (by decide : 3 ≤ Phase.stopped.rank)
  | stop => exact (by decide : 3 ≤ Phase.stopping.rank)
  | late inactive => exact inactive
  | close place =>
      rw [place]
      split <;> exact told
  | signal => exact told

def Told (state : State) : Prop :=
  forall (index : Nat) call, state.calls[index]? = some call -> call.Told state.shared

theorem reachable_told {self : ServiceId} {state : State}
    (reachable : (machine self).Reachable state) : Told state := by
  apply reachable.induction
  · rintro start ⟨capacity, cells, box, _sized, _created, rfl⟩ index call present
    cases present
  · intro state action next reachable told moved
    have stable := fun stopping => step_stopping reachable stopping moved
    rcases reachable_step_cases reachable moved with
      ⟨request, rfl⟩ | ⟨index, call, shared, after, present, callMoved, rfl⟩ | threadMoved
    · apply forall_append_singleton told
      cases request <;> trivial
    · apply forall_set (fun position member found => (told position member found).later stable)
      intro _
      have before := told index call present
      cases callMoved with
      | stop stopMoved => exact stopMoved.told before
      | send | start | join | free => trivial
    · intro index call present
      rw [threadMoved.calls] at present
      exact (told index call present).later stable

/-! ## Joining such a service -/

theorem CallMove.freed {state : State} (invariant : JoinInvariant state) {index : Nat}
    {call after : Call} {shared : Shared} (present : state.calls[index]? = some call)
    (moved : CallMove state.shared index call shared after) (freed : state.shared.state = .freed) :
    shared.state = .freed := by
  cases moved with
  | send moved => exact moved.sameJoin.keeps_freed freed
  | stop moved => exact moved.sameJoin.keeps_freed freed
  | start moved => exact moved.sameJoin.keeps_freed freed
  | free moved => exact False.elim (invariant.calls index _ present)
  | join moved =>
      cases moved with
      | publish =>
          have unjoined : state.shared.threadJoined = false := invariant.calls index _ present
          have joined := invariant.late (by rw [freed]; decide)
          cases unjoined.symm.trans joined
      | free moved =>
          cases moved with
          | free => rfl
          | retire | wait | busy | delete | dispose | done => exact freed
      | deadlock | wait | past | refuse | claim | reap | freed | finish => exact freed

/-- Nothing takes a service back from FREED. -/
theorem step_freed {self : ServiceId} {state next : State} {action : Action}
    (reachable : (machine self).Reachable state) (invariant : JoinInvariant state)
    (freed : state.shared.state = .freed)
    (moved : (machine self).step state action = some next) : next.shared.state = .freed := by
  rcases reachable_step_cases reachable moved with
    ⟨request, rfl⟩ | ⟨index, call, shared, after, present, callMoved, rfl⟩ | threadMoved
  · exact freed
  · exact callMoved.freed invariant present freed
  · exact (threadMoved.sameJoin (reachable_lifecycle reachable)).keeps_freed freed

/-- A service told to stop that has no thread is STOPPED until it is joined. -/
theorem JoinInvariant.stopped_of_threadless {state : State} (invariant : JoinInvariant state)
    (threadless : Threadless state.shared)
    (unjoined : ¬ (state.shared.threadJoined = true ∨ state.shared.state = .freed)) :
    state.shared.state = .stopped := by
  have late := threadless.2
  cases phase : state.shared.state with
  | stopped => rfl
  | freed => exact False.elim (unjoined (Or.inr phase))
  | joined => exact False.elim (unjoined (Or.inl (invariant.late (by rw [phase]; decide))))
  | new | starting | running | stopping =>
      rw [phase] at late
      exact absurd late (by decide)

theorem Lifecycle.threadless_of_stopping {state : State} (life : Lifecycle state)
    (stopping : 3 ≤ state.shared.state.rank) (absent : state.shared.threadCreated = false) :
    Threadless state.shared := by
  have fits := life.stage
  rw [life.unborn_of_threadless absent] at fits
  rcases fits.2 with ⟨created, _⟩ | fresh | past
  · cases absent.symm.trans created
  · rw [fresh.2.1] at stopping
    exact absurd stopping (by decide)
  · exact past

/-- A join by another thread on a service that has been told to stop: if it
has returned, it succeeded. -/
structure JoinsStopped (state : State) (index : Nat) : Prop where
  stopping : 3 ≤ state.shared.state.rank
  call : Exists fun pc => state.calls[index]? = some (.join false pc) ∧
    forall error, pc = .returned error -> error = 0 ∧ state.shared.state = .freed

theorem JoinMove.returns {state : State} (life : Lifecycle state) (invariant : JoinInvariant state)
    (stopping : 3 ≤ state.shared.state.rank) {index : Nat} {pc after : JoinPc} {shared : Shared}
    (present : state.calls[index]? = some (.join false pc))
    (moved : JoinMove state.shared false pc shared after) {error : Errno}
    (returned : after = .returned error) : error = 0 ∧ shared.state = .freed := by
  cases moved with
  | deadlock own => cases own
  | past arrives done =>
      cases returned
      refine ⟨invariant.error, ?_⟩
      rcases done with joined | freed
      · exact invariant.settled joined arrives.1
      · exact freed
  | refuse arrives unjoined active =>
      have threadless : Threadless state.shared := by
        rcases arrives.2 with ⟨rfl, absent⟩ | rfl
        · exact life.threadless_of_stopping stopping absent.symm
        · exact (life.calls index _ present).2 rfl
      exact False.elim (active (invariant.stopped_of_threadless threadless unjoined))
  | finish =>
      cases returned
      have joins := invariant.calls index _ present
      exact ⟨joins.2, joins.1⟩
  | wait | claim | reap | publish | free | freed => cases returned

theorem step_joinsStopped {self : ServiceId} {state next : State} {action : Action}
    (reachable : (machine self).Reachable state) (invariant : JoinInvariant state) {position : Nat}
    (joins : JoinsStopped state position) (moved : (machine self).step state action = some next) :
    JoinsStopped next position := by
  refine ⟨step_stopping reachable joins.stopping moved, ?_⟩
  rcases joins.call with ⟨pc, located, returns⟩
  rcases reachable_call_step reachable moved located with ⟨after, later, rfl | callMoved⟩
  · refine ⟨pc, later, fun error returned => ?_⟩
    rcases returns error returned with ⟨success, freed⟩
    exact ⟨success, step_freed reachable invariant freed moved⟩
  · cases callMoved with
    | join joinMoved =>
        exact ⟨_, later, fun error returned =>
          joinMoved.returns (reachable_lifecycle reachable) invariant joins.stopping located returned⟩

end Service
end ServiceRuntime
