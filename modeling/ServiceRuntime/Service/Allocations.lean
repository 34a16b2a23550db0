import ServiceRuntime.Lua.Allocation
import ServiceRuntime.Service.Sessions

namespace ServiceRuntime
namespace Service

open Lua (Co Visit sessionAt sessionAt_sessionAt sessionAt_zero allocateSession followingSession)
open Foundation

/-!
# Sessions over the life of a service

The runs are observed by the rounds of `allocate_session`: every session the
counter passes is noted, with whether somebody waited under it.  The log walks
around the circle of sessions without a gap, so a session comes up again only
after all the others have.
-/

/-- The rounds of the `allocate_session` a step runs, if it is a call. -/
def allocationVisits (state : State) (action : Action) (_ : State) : List Visit :=
  match state.thread, action with
  | .lua (.user (.coroutine _ _)), .thread (.lua (.call _ _)) => state.vm.visits
  | .lua (.user (.coroutine _ _)), .thread (.lua .callUnpackable) => state.vm.visits
  | _, _ => []

/-- What a step does to the session counter. -/
inductive CounterStep (state next : State) : List Visit -> Prop where
  | allocates (counter : next.vm.nextSession = state.vm.advanced) :
      CounterStep state next state.vm.visits
  | keeps (counter : next.vm.nextSession = state.vm.nextSession) : CounterStep state next []

/-- The step is a `service.call`. -/
def Calls (state : State) (choice : ThreadChoice) : Prop :=
  (Exists fun co => Exists fun ret => state.thread = .lua (.user (.coroutine co ret))) ∧
    ((Exists fun toId => Exists fun payload => choice = .lua (.call toId payload)) ∨
      choice = .lua .callUnpackable)

theorem visits_of_not_calls {state next : State} {choice : ThreadChoice}
    (uncalled : ¬ Calls state choice) : allocationVisits state (.thread choice) next = [] := by
  unfold allocationVisits
  split
  · rename_i located same
    cases same
    exact False.elim (uncalled ⟨⟨_, _, located⟩, Or.inl ⟨_, _, rfl⟩⟩)
  · rename_i located same
    cases same
    exact False.elim (uncalled ⟨⟨_, _, located⟩, Or.inr rfl⟩)
  · rfl

theorem call_counter {self : ServiceId} {state next : State} {choice : ThreadChoice}
    (moved : threadStep self state choice = some next) (calls : Calls state choice) :
    CounterStep state next (allocationVisits state (.thread choice) next) := by
  obtain ⟨⟨co, ret, located⟩, chosen⟩ := calls
  have counter : next.vm.nextSession = state.vm.advanced := by
    unfold Lua.Vm.advanced
    have inner (decided : Lua.Choice) (decides : choice = .lua decided) :
        luaStep self state (.user (.coroutine co ret)) decided = some next := by
      rw [decides] at moved
      rcases threadStep_lua moved with ⟨pc, there, taken⟩
      rw [located] at there
      cases there
      exact taken
    rcases chosen with ⟨toId, payload, same⟩ | same
    · have taken := inner _ same
      simp only [luaStep, Lua.step, Lua.userStep] at taken
      split at taken
      · cases allocated : allocateSession state.vm with
        | none =>
            rw [allocated] at taken
            cases taken
            rfl
        | some handed =>
            rw [allocated] at taken
            cases taken
            rfl
      · cases taken
    · have taken := inner _ same
      simp only [luaStep, Lua.step, Lua.userStep] at taken
      cases allocated : allocateSession state.vm with
      | none =>
          rw [allocated] at taken
          cases taken
      | some handed =>
          rw [allocated] at taken
          cases taken
          rfl
  have noted : allocationVisits state (.thread choice) next = state.vm.visits := by
    unfold allocationVisits
    rcases chosen with ⟨toId, payload, rfl⟩ | rfl <;> rw [located]
  rw [noted]
  exact .allocates counter

theorem step_counter {self : ServiceId} {state next : State} {action : Action}
    (moved : step self state action = some next) :
    CounterStep state next (allocationVisits state action next) := by
  cases action with
  | call request =>
      cases moved
      unfold allocationVisits
      split <;> first
        | rename_i impossible
          cases impossible
        | exact .keeps rfl
  | advance index outcome =>
      have same : next.vm = state.vm := by
        simp only [step, advance] at moved
        split at moved
        · cases moved
        · obtain ⟨_, _, rfl⟩ := Option.map_eq_some_iff.mp moved
          rfl
      unfold allocationVisits
      split <;> first
        | rename_i impossible
          cases impossible
        | exact .keeps (congrArg Lua.Vm.nextSession same)
  | thread choice =>
      by_cases calls : Calls state choice
      · exact call_counter moved calls
      · rw [visits_of_not_calls calls]
        rcases threadStep_cases moved with
          ⟨pc, decided, located, rfl, after, luaMoved, arrives⟩ | ⟨vm, unengaged, other⟩
        · apply CounterStep.keeps
          apply luaMoved.counter
          rintro co ret rfl
          constructor
          · rintro toId payload rfl
            exact calls ⟨⟨co, ret, located⟩, Or.inl ⟨toId, payload, rfl⟩⟩
          · rintro rfl
            exact calls ⟨⟨co, ret, located⟩, Or.inr rfl⟩
        · exact .keeps (congrArg Lua.Vm.nextSession vm)

/-! ## The log -/

/-- The log follows the counter around the circle. -/
structure Rotating (state : State) (log : List Visit) : Prop where
  counter : state.vm.nextSession = sessionAt 1 log.length
  each : forall index visit, log[index]? = some visit -> visit.session = sessionAt 1 index

theorem Rotating.counting {state : State} {log : List Visit} (rotating : Rotating state log) :
    state.vm.Counting := by
  unfold Lua.Vm.Counting
  rw [rotating.counter]
  exact Lua.sessionAt_bounds _ _

theorem Rotating.step {state next : State} {log visits : List Visit}
    (rotating : Rotating state log) (moved : CounterStep state next visits) :
    Rotating next (log ++ visits) := by
  cases moved with
  | keeps counter =>
      rw [List.append_nil]
      exact ⟨counter.trans rotating.counter, rotating.each⟩
  | allocates counter =>
      have counting := rotating.counting
      constructor
      · rw [counter, Lua.Vm.visits_counter counting, rotating.counter, sessionAt_sessionAt,
          List.length_append]
      · intro index visit looked
        rcases Nat.lt_or_ge index log.length with inside | beyond
        · rw [List.getElem?_append_left inside] at looked
          exact rotating.each index visit looked
        · rw [List.getElem?_append_right beyond] at looked
          rw [Lua.Vm.visits_getElem? counting looked, rotating.counter, sessionAt_sessionAt,
            Nat.add_sub_cancel' beyond]

/-- A session comes up again only after every other one. -/
theorem Rotating.passes {state : State} {log : List Visit} (rotating : Rotating state log)
    {before between after : List Visit} {first again : Visit}
    (found : log = before ++ first :: (between ++ again :: after))
    (same : first.session = again.session) {other : Session} (least : 1 ≤ other)
    (most : other ≤ uint32Max) (different : other ≠ first.session) :
    Exists fun visit => visit ∈ between ∧ visit.session = other := by
  have start : log[before.length]? = some first := by
    rw [found, List.getElem?_append_right (Nat.le_refl _), Nat.sub_self, List.getElem?_cons_zero]
  have shift : before.length + 1 + between.length - before.length = between.length + 1 := by omega
  have finish : log[before.length + 1 + between.length]? = some again := by
    rw [found, List.getElem?_append_right (by omega), shift, List.getElem?_cons_succ,
      List.getElem?_append_right (Nat.le_refl _), Nat.sub_self, List.getElem?_cons_zero]
  have round : sessionAt 1 before.length = sessionAt 1 (before.length + 1 + between.length) :=
    (rotating.each _ _ start).symm.trans (same.trans (rotating.each _ _ finish))
  rw [rotating.each _ _ start] at different
  obtain ⟨steps, later, earlier, met⟩ := passes_all (by omega) round least most different
  obtain ⟨offset, rfl⟩ : Exists fun offset => steps = before.length + 1 + offset :=
    ⟨steps - (before.length + 1), by omega⟩
  have inside : offset < between.length := by omega
  refine ⟨between[offset], List.getElem_mem inside, ?_⟩
  have behind : before.length + 1 + offset - before.length = offset + 1 := by omega
  have place : log[before.length + 1 + offset]? = some between[offset] := by
    rw [found, List.getElem?_append_right (by omega), behind, List.getElem?_cons_succ,
      List.getElem?_append_left inside, List.getElem?_eq_getElem inside]
  exact (rotating.each _ _ place).trans met

/-! ## The session on offer -/

/-- While the request of a call is on its way, its session is the one the
counter looked at last. -/
def Offered (state : State) (log : List Visit) : Prop :=
  forall message caller session ret,
    state.thread = .lua (.sending message (.call caller session ret)) ->
      log.getLast? = some ⟨session, false⟩

theorem offers_of_step {self : ServiceId} {state next : State} {action : Action}
    (moved : step self state action = some next) {message : Message} {caller : Co}
    {session : Session} {ret : Lua.Return}
    (sends : next.thread = .lua (.sending message (.call caller session ret))) :
    (next.thread = state.thread ∧ allocationVisits state action next = []) ∨
      (Exists fun later => allocateSession state.vm = some (session, later)) ∧
        allocationVisits state action next = state.vm.visits := by
  cases action with
  | call request =>
      cases moved
      refine Or.inl ⟨rfl, ?_⟩
      unfold allocationVisits
      split <;> first
        | rename_i impossible
          cases impossible
        | rfl
  | advance index outcome =>
      have same : next.thread = state.thread := by
        simp only [step, advance] at moved
        split at moved
        · cases moved
        · obtain ⟨_, _, rfl⟩ := Option.map_eq_some_iff.mp moved
          rfl
      refine Or.inl ⟨same, ?_⟩
      unfold allocationVisits
      split <;> first
        | rename_i impossible
          cases impossible
        | rfl
  | thread choice =>
      rcases threadStep_cases moved with
        ⟨pc, decided, located, rfl, after, luaMoved, arrives⟩ | ⟨vm, unengaged, other⟩
      · have reached := ThreadPc.lua.inj (arrives.symm.trans sends)
        obtain ⟨co, back, toId, payload, rfl, rfl, allocated⟩ := luaMoved.sendsCall reached
        refine Or.inr ⟨allocated, ?_⟩
        unfold allocationVisits
        rw [located]
      · exact False.elim (unengaged.sends _ _ sends)

/-- What the log says about the state. -/
structure Recorded (state : State) (log : List Visit) : Prop where
  rotating : Rotating state log
  offered : Offered state log

theorem Recorded.step {self : ServiceId} {state next : State} {log : List Visit} {action : Action}
    (recorded : Recorded state log) (moved : step self state action = some next) :
    Recorded next (log ++ allocationVisits state action next) := by
  refine ⟨recorded.rotating.step (step_counter moved), ?_⟩
  intro message caller session ret sends
  rcases offers_of_step moved sends with ⟨same, nothing⟩ | ⟨⟨later, allocated⟩, noted⟩
  · rw [nothing, List.append_nil]
    exact recorded.offered message caller session ret (same.symm.trans sends)
  · have last := Lua.Vm.visits_last recorded.rotating.counting allocated
    rw [noted, List.getLast?_append, last]
    rfl

theorem reachable_recorded {self : ServiceId} {observed : State × List Visit}
    (reachable : ((machine self).observe allocationVisits).Reachable observed) :
    Recorded observed.1 observed.2 := by
  apply reachable.observed
  · rintro start ⟨capacity, cells, box, _sized, _created, rfl⟩
    refine ⟨⟨(sessionAt_zero (Nat.le_refl 1) (by decide)).symm, ?_⟩, ?_⟩
    · intro index visit looked
      cases looked
    · intro message caller session ret sends
      cases sends
  · intro state log action next _ recorded moved
    exact recorded.step moved

/-! ## The promise of every run -/

/-- What holds at any moment of a run. -/
structure AllocationRun (state : State) (log : List Visit) : Prop where
  counting : state.vm.Counting
  /-- The request on its way carries the session handed out last, and nobody
  waits under it. -/
  offered : forall message caller session ret,
    state.thread = .lua (.sending message (.call caller session ret)) ->
      message.session = session ∧ log.getLast? = some ⟨session, false⟩ ∧
        state.vm.suspendLookup.lookup session = none
  /-- Between two hand-outs of a session the counter has visited all others. -/
  rotates : forall before between after session,
    log = before ++ ⟨session, false⟩ :: (between ++ ⟨session, false⟩ :: after) ->
      forall other, 1 ≤ other -> other ≤ uint32Max -> other ≠ session ->
        Exists fun visit => visit ∈ between ∧ visit.session = other

/-- What the next step adds to the log: sessions somebody waits under as the
counter passes, and the one that is handed out. -/
structure AllocationStep (state : State) (visits : List Visit) : Prop where
  pending : forall visit, visit ∈ visits ->
    visit.pending = (state.vm.suspendLookup.lookup visit.session).isSome
  handed : forall visit, visit ∈ visits -> (visit.pending = false ↔
    Exists fun next => allocateSession state.vm = some (visit.session, next))

theorem Recorded.run {self : ServiceId} {state : State} {log : List Visit}
    (recorded : Recorded state log) (reachable : (machine self).Reachable state) :
    AllocationRun state log := by
  refine ⟨recorded.rotating.counting, ?_, ?_⟩
  · intro message caller session ret sends
    have signed := (reachable_coroutines reachable).orderly.signed
    rw [sends] at signed
    exact ⟨signed.2.1, recorded.offered message caller session ret sends, signed.2.2.2⟩
  · intro before between after session found other least most different
    exact recorded.rotating.passes found rfl least most different

/-- `allocate_session` hands out the first session on the way around the
circle under which nobody waits, and gives up exactly when all are taken.
Hence no session is handed out twice at a time, and one that is handed out
again has let all the others pass. -/
theorem session_allocation (self : ServiceId) :
    (forall vm : Lua.Vm, vm.Counting -> Lua.AllocationContract vm) ∧
    forall observed, ((machine self).observe allocationVisits).Reachable observed ->
      AllocationRun observed.1 observed.2 ∧
      forall action next,
        ((machine self).observe allocationVisits).step observed action = some next ->
          Exists fun visits => next.2 = observed.2 ++ visits ∧
            AllocationStep observed.1 visits := by
  refine ⟨fun vm counting => Lua.allocation_contract counting, ?_⟩
  intro observed reachable
  have recorded := reachable_recorded reachable
  refine ⟨recorded.run reachable.of_observe, ?_⟩
  intro action next moved
  obtain ⟨taken, noted⟩ := (machine self).observe_step_eq_some moved
  have looked (visit : Visit) (member : visit ∈ allocationVisits observed.1 action next.1) :
      visit ∈ observed.1.vm.visits := by
    have counted := step_counter taken
    generalize allocationVisits observed.1 action next.1 = visits at member counted
    cases counted with
    | allocates => exact member
    | keeps => cases member
  refine ⟨_, noted, ?_, ?_⟩
  · intro visit member
    exact (Lua.Vm.visits_free recorded.rotating.counting (looked visit member)).1
  · intro visit member
    exact (Lua.Vm.visits_free recorded.rotating.counting (looked visit member)).2

/-- The counter is at the last session; coroutines wait under it and under the
first one. -/
def wrapping : Lua.Vm :=
  { Lua.Vm.fresh with
    nextSession := uint32Max
    suspendLookup := (AList.singleton uint32Max 7).insert 1 8 }

/-- The search goes on around the circle, and hands out the second session. -/
theorem session_allocation_wraps : wrapping.Counting ∧ Lua.AllocationContract wrapping ∧
    allocateSession wrapping = some (2, 3) := by
  have counting : wrapping.Counting := ⟨by decide, by decide⟩
  have contract := (session_allocation 0).1 wrapping counting
  refine ⟨counting, contract, (contract.returns 2 3).mpr ⟨2, by decide, by decide, by decide,
    by decide, ?_⟩⟩
  intro earlier before
  rcases Nat.le_one_iff_eq_zero_or_eq_one.mp (Nat.le_of_lt_succ before) with rfl | rfl
  · decide
  · decide

end Service
end ServiceRuntime
