import ServiceRuntime.Foundation.Cycle
import ServiceRuntime.Lua.Coroutines

namespace ServiceRuntime
namespace Lua

open Foundation (turn place place_zero place_le place_pos turn_place exists_place)

/-!
# Which session `allocate_session` hands out

The counter walks around the circle `1 .. UINT32_MAX`.  The loop compares the
advanced counter with the one it started from, so it looks at every session at
most once: it stops at the first one nobody waits under, or after a full turn.
-/

/-- One round of the loop: the session it looks at, and whether somebody waits
under that session. -/
structure Visit where
  session : Session
  pending : Bool
  deriving DecidableEq, Repr

/-- The rounds of the `repeat` loop of `allocate_session`. -/
def searchVisits (lookup : Table Session Co) (first : Session) : Nat -> Session -> List Visit
  | 0, _ => []
  | fuel + 1, session =>
      ⟨session, (lookup.lookup session).isSome⟩ ::
        if (lookup.lookup session).isNone then []
        else if followingSession session = first then []
        else searchVisits lookup first fuel (followingSession session)

/-- The sessions one call of `allocate_session` looks at. -/
def Vm.visits (vm : Vm) : List Visit :=
  searchVisits vm.suspendLookup vm.nextSession uint32Max vm.nextSession

/-- The session the counter shows after so many steps. -/
def sessionAt (start : Session) (steps : Nat) : Session :=
  place uint32Max start steps

theorem uint32Max_pos : 0 < uint32Max := by decide

theorem followingSession_sessionAt (start : Session) (steps : Nat) :
    followingSession (sessionAt start steps) = sessionAt start (steps + 1) :=
  turn_place uint32Max_pos steps

/-- How a search ends that stands `step` steps behind its first session. -/
inductive Searched (lookup : Table Session Co) (first : Session) (step : Nat) :
    Option (Session × Session) -> List Visit -> Prop where
  | found {log} (count : Nat)
      (busy : forall index, index < count ->
        (lookup.lookup (sessionAt first (step + index))).isSome = true)
      (free : lookup.lookup (sessionAt first (step + count)) = none)
      (inside : step + count < uint32Max) (rounds : log.length = count + 1) :
      Searched lookup first step
        (some (sessionAt first (step + count), sessionAt first (step + count + 1))) log
  | exhausted {log}
      (busy : forall index, step + index < uint32Max ->
        (lookup.lookup (sessionAt first (step + index))).isSome = true)
      (rounds : step + log.length = uint32Max) : Searched lookup first step none log

/-- The counter is back where the search began only after a full turn. -/
theorem returns_iff {first : Session} (least : 1 ≤ first) (most : first ≤ uint32Max) {step : Nat}
    (inside : step < uint32Max) :
    sessionAt first (step + 1) = first ↔ step + 1 = uint32Max := by
  have start : first = place uint32Max first 0 := (place_zero least most).symm
  constructor
  · intro back
    have round := (Foundation.place_eq_iff uint32Max first (step + 1) 0).mp (back.trans start)
    have divides := (Nat.modEq_zero_iff_dvd).mp round
    have := Nat.le_of_dvd (Nat.succ_pos step) divides
    omega
  · intro full
    have turned := Foundation.place_add_size uint32Max first 0
    rw [Nat.zero_add] at turned
    rw [sessionAt, full, turned]
    exact start.symm

theorem search_searched {lookup : Table Session Co} {first : Session} (least : 1 ≤ first)
    (most : first ≤ uint32Max) {fuel step : Nat} (inside : step < uint32Max)
    (fuelled : uint32Max ≤ step + fuel) :
    Searched lookup first step (searchSession lookup first fuel (sessionAt first step))
      (searchVisits lookup first fuel (sessionAt first step)) := by
  induction fuel generalizing step with
  | zero => exact absurd inside (Nat.not_lt.mpr fuelled)
  | succ fuel inductionHypothesis =>
      rw [searchSession, searchVisits, followingSession_sessionAt]
      cases waiting : lookup.lookup (sessionAt first step) with
      | none =>
          simp only [Option.isNone_none, if_true]
          refine .found 0 ?_ waiting inside rfl
          intro index impossible
          exact absurd impossible (Nat.not_lt_zero index)
      | some co =>
          have here : (lookup.lookup (sessionAt first (step + 0))).isSome = true := by
            rw [Nat.add_zero, waiting]
            exact Option.isSome_some
          simp only [Option.isNone_some, Bool.false_eq_true, if_false,
            returns_iff least most inside]
          by_cases full : step + 1 = uint32Max
          · rw [if_pos full, if_pos full]
            refine .exhausted ?_ full
            intro index bound
            have zero : index = 0 := by omega
            rw [zero]
            exact here
          · rw [if_neg full, if_neg full]
            have later : Searched lookup first (step + 1) _ _ :=
              inductionHypothesis (by omega) (by omega)
            generalize searchSession lookup first fuel (sessionAt first (step + 1)) = result at later
            have shift (index : Nat) : step + 1 + index = step + (index + 1) := by omega
            cases later with
            | found count busy free bound rounds =>
                rw [shift]
                refine .found (count + 1) ?_ (shift count ▸ free) (shift count ▸ bound) ?_
                · intro index below
                  cases index with
                  | zero => exact here
                  | succ index => exact shift index ▸ busy index (Nat.lt_of_succ_lt_succ below)
                · rw [List.length_cons, rounds]
            | exhausted busy rounds =>
                refine .exhausted ?_ ?_
                · intro index below
                  cases index with
                  | zero => exact here
                  | succ index =>
                      have far : step + 1 + index < uint32Max := by omega
                      exact shift index ▸ busy index far
                · rw [List.length_cons, ← rounds]
                  omega

/-- What the rounds look at: one session after the other. -/
theorem searchVisits_getElem? {lookup : Table Session Co} {first : Session} {fuel step index : Nat}
    {visit : Visit}
    (looked : (searchVisits lookup first fuel (sessionAt first step))[index]? = some visit) :
    visit = ⟨sessionAt first (step + index),
      (lookup.lookup (sessionAt first (step + index))).isSome⟩ := by
  induction fuel generalizing step index with
  | zero => cases looked
  | succ fuel inductionHypothesis =>
      rw [searchVisits, followingSession_sessionAt] at looked
      cases index with
      | zero => exact (Option.some.inj looked).symm
      | succ index =>
          rw [List.getElem?_cons_succ] at looked
          have shift : step + (index + 1) = step + 1 + index := by omega
          split at looked
          · cases looked
          · split at looked
            · cases looked
            · rw [shift]
              exact inductionHypothesis looked

/-! ## The contract of `allocate_session` -/

theorem sessionAt_zero {start : Session} (least : 1 ≤ start) (most : start ≤ uint32Max) :
    sessionAt start 0 = start :=
  place_zero least most

theorem sessionAt_sessionAt {start : Session} (first second : Nat) :
    sessionAt (sessionAt start first) second = sessionAt start (first + second) := by
  simp only [sessionAt, place, Nat.add_sub_cancel, Nat.mod_add_mod, Nat.add_assoc]

/-- The counter is a session. -/
def Vm.Counting (vm : Vm) : Prop :=
  1 ≤ vm.nextSession ∧ vm.nextSession ≤ uint32Max

theorem Vm.searched {vm : Vm} (counting : vm.Counting) {fuel : Nat} (fuelled : uint32Max ≤ fuel) :
    Searched vm.suspendLookup vm.nextSession 0
      (searchSession vm.suspendLookup vm.nextSession fuel vm.nextSession)
      (searchVisits vm.suspendLookup vm.nextSession fuel vm.nextSession) := by
  have searched : Searched vm.suspendLookup vm.nextSession 0
      (searchSession vm.suspendLookup vm.nextSession fuel (sessionAt vm.nextSession 0))
      (searchVisits vm.suspendLookup vm.nextSession fuel (sessionAt vm.nextSession 0)) :=
    search_searched counting.1 counting.2 uint32Max_pos
      (Nat.le_trans fuelled (Nat.le_add_left fuel 0))
  rw [sessionAt_zero counting.1 counting.2] at searched
  exact searched

/-- The outcome does not depend on how the search is run. -/
theorem Searched.unique {lookup : Table Session Co} {first : Session} {step : Nat}
    {one other : Option (Session × Session)} {log late : List Visit}
    (searched : Searched lookup first step one log) (again : Searched lookup first step other late) :
    one = other := by
  cases searched with
  | found count busy free inside rounds =>
      cases again with
      | found count' busy' free' inside' rounds' =>
          rcases Nat.lt_trichotomy count count' with less | rfl | more
          · have waits := busy' count less
            rw [free] at waits
            cases waits
          · rfl
          · have waits := busy count' more
            rw [free'] at waits
            cases waits
      | exhausted busy' rounds' =>
          have waits := busy' count inside
          rw [free] at waits
          cases waits
  | exhausted busy rounds =>
      cases again with
      | found count' busy' free' inside' rounds' =>
          have waits := busy count' inside'
          rw [free'] at waits
          cases waits
      | exhausted busy' rounds' => rfl

/-- What a call of `allocate_session` promises in any state. -/
structure AllocationContract (vm : Vm) : Prop where
  /-- The loop ends by itself: more rounds make no difference. -/
  terminates : forall fuel, uint32Max ≤ fuel ->
    searchSession vm.suspendLookup vm.nextSession fuel vm.nextSession = allocateSession vm
  /-- The first free session on the way around, and the counter behind it. -/
  returns : forall session next, allocateSession vm = some (session, next) ↔
    Exists fun steps => steps < uint32Max ∧ session = sessionAt vm.nextSession steps ∧
      vm.suspendLookup.lookup session = none ∧ next = followingSession session ∧
      forall earlier, earlier < steps ->
        (vm.suspendLookup.lookup (sessionAt vm.nextSession earlier)).isSome = true
  /-- `RPC_SESSION_EXHAUSTED`. -/
  raises : allocateSession vm = none ↔ forall session, 1 ≤ session -> session ≤ uint32Max ->
    (vm.suspendLookup.lookup session).isSome = true
  ranges : forall session next, allocateSession vm = some (session, next) ->
    (1 ≤ session ∧ session ≤ uint32Max) ∧ 1 ≤ next ∧ next ≤ uint32Max

theorem sessionAt_bounds (start : Session) (steps : Nat) :
    1 ≤ sessionAt start steps ∧ sessionAt start steps ≤ uint32Max :=
  ⟨place_pos _ _ _, place_le uint32Max_pos steps⟩

theorem allocation_contract {vm : Vm} (counting : vm.Counting) : AllocationContract vm := by
  have searched := vm.searched counting (Nat.le_refl _)
  have returns (session next : Session) : allocateSession vm = some (session, next) ↔
      Exists fun steps => steps < uint32Max ∧ session = sessionAt vm.nextSession steps ∧
        vm.suspendLookup.lookup session = none ∧ next = followingSession session ∧
        forall earlier, earlier < steps ->
          (vm.suspendLookup.lookup (sessionAt vm.nextSession earlier)).isSome = true := by
    constructor
    · intro allocated
      have ended := searched
      rw [allocateSession] at allocated
      rw [allocated] at ended
      cases ended with
      | found count busy free inside rounds =>
          rw [Nat.zero_add] at inside free ⊢
          refine ⟨count, inside, rfl, free, (followingSession_sessionAt _ _).symm, ?_⟩
          intro earlier before
          have waits := busy earlier before
          rw [Nat.zero_add] at waits
          exact waits
    · rintro ⟨steps, inside, rfl, free, rfl, busy⟩
      have other : Searched vm.suspendLookup vm.nextSession 0
          (some (sessionAt vm.nextSession (0 + steps), sessionAt vm.nextSession (0 + steps + 1)))
          (List.replicate (steps + 1) ⟨0, false⟩) := by
        refine .found steps ?_ (by rw [Nat.zero_add]; exact free) (by omega)
          (List.length_replicate)
        intro earlier before
        rw [Nat.zero_add]
        exact busy earlier before
      rw [followingSession_sessionAt]
      have same := searched.unique other
      rw [Nat.zero_add] at same
      exact same
  refine ⟨?_, returns, ?_, ?_⟩
  · intro fuel fuelled
    exact (vm.searched counting fuelled).unique searched
  · constructor
    · intro raised session least most
      have ended := searched
      rw [allocateSession] at raised
      rw [raised] at ended
      cases ended with
      | exhausted busy rounds =>
          have reached : Exists fun steps => 0 ≤ steps ∧ steps < 0 + uint32Max ∧
              sessionAt vm.nextSession steps = session := exists_place least most 0
          obtain ⟨steps, _, inside, met⟩ := reached
          have waits := busy steps (by omega)
          rw [Nat.zero_add] at waits
          exact met ▸ waits
    · intro full
      cases allocated : allocateSession vm with
      | none => rfl
      | some handed =>
          obtain ⟨steps, _, place, free, _⟩ := (returns handed.1 handed.2).mp allocated
          have bounds := sessionAt_bounds vm.nextSession steps
          have waits := full handed.1 (place ▸ bounds.1) (place ▸ bounds.2)
          rw [free] at waits
          cases waits
  · intro session next allocated
    obtain ⟨steps, _, rfl, _, rfl, _⟩ := (returns session next).mp allocated
    rw [followingSession_sessionAt]
    exact ⟨sessionAt_bounds _ _, sessionAt_bounds _ _⟩

/-! ## The rounds of one call -/

theorem Vm.visits_getElem? {vm : Vm} (counting : vm.Counting) {index : Nat} {visit : Visit}
    (looked : vm.visits[index]? = some visit) :
    visit = ⟨sessionAt vm.nextSession index,
      (vm.suspendLookup.lookup (sessionAt vm.nextSession index)).isSome⟩ := by
  have found : (searchVisits vm.suspendLookup vm.nextSession uint32Max
      (sessionAt vm.nextSession 0))[index]? = some visit := by
    rw [sessionAt_zero counting.1 counting.2]
    exact looked
  have met := searchVisits_getElem? found
  rw [Nat.zero_add] at met
  exact met

/-- How one call of `allocate_session` leaves the counter. -/
def Vm.advanced (vm : Vm) : Session :=
  match allocateSession vm with
  | some (_, next) => next
  | none => vm.nextSession

theorem Vm.visits_counter {vm : Vm} (counting : vm.Counting) :
    vm.advanced = sessionAt vm.nextSession vm.visits.length := by
  have searched := vm.searched counting (Nat.le_refl _)
  unfold Vm.advanced allocateSession Vm.visits
  generalize searchSession vm.suspendLookup vm.nextSession uint32Max vm.nextSession = result at *
  cases searched with
  | found count busy free inside rounds => rw [rounds, Nat.zero_add]
  | exhausted busy rounds =>
      rw [Nat.zero_add] at rounds
      have turned := Foundation.place_add_size uint32Max vm.nextSession 0
      rw [Nat.zero_add] at turned
      rw [rounds, sessionAt, turned]
      exact (place_zero counting.1 counting.2).symm

/-- A round ends the call with a session exactly when nobody waits under it. -/
theorem Vm.visits_free {vm : Vm} (counting : vm.Counting) {visit : Visit}
    (looked : visit ∈ vm.visits) :
    visit.pending = (vm.suspendLookup.lookup visit.session).isSome ∧
      (visit.pending = false ↔
        Exists fun next => allocateSession vm = some (visit.session, next)) := by
  obtain ⟨index, found⟩ := List.mem_iff_getElem?.mp looked
  have inside := (List.getElem?_eq_some_iff.mp found).1
  obtain rfl := Vm.visits_getElem? counting found
  refine ⟨rfl, ?_⟩
  constructor
  · intro free
    have searched := vm.searched counting (Nat.le_refl _)
    change Searched vm.suspendLookup vm.nextSession 0 (allocateSession vm) vm.visits at searched
    have idle : vm.suspendLookup.lookup (sessionAt vm.nextSession index) = none :=
      Option.isSome_eq_false_iff.mp free |> Option.isNone_iff_eq_none.mp
    generalize allocateSession vm = outcome at searched ⊢
    cases searched with
    | found count busy free' inside' rounds =>
        -- the earlier rounds were busy, so this is the last one
        have last : index = count := by
          by_contra different
          have waits := busy index (by omega)
          rw [Nat.zero_add, idle] at waits
          cases waits
        exact ⟨_, by rw [last, Nat.zero_add]⟩
    | exhausted busy rounds =>
        have waits := busy index (by omega)
        rw [Nat.zero_add, idle] at waits
        cases waits
  · rintro ⟨next, allocated⟩
    obtain ⟨_, _, _, free, _⟩ := ((allocation_contract counting).returns _ _).mp allocated
    exact Option.isSome_eq_false_iff.mpr (Option.isNone_iff_eq_none.mpr free)

/-- The last round of a successful call hands out its session. -/
theorem Vm.visits_last {vm : Vm} (counting : vm.Counting) {session next : Session}
    (allocated : allocateSession vm = some (session, next)) :
    vm.visits.getLast? = some ⟨session, false⟩ := by
  have searched := vm.searched counting (Nat.le_refl _)
  change Searched vm.suspendLookup vm.nextSession 0 (allocateSession vm) vm.visits at searched
  rw [allocated] at searched
  generalize rounds : vm.visits = log at searched
  cases searched with
  | found count busy free inside length =>
      have within : count < vm.visits.length := by
        rw [rounds, length]
        exact Nat.lt_succ_self count
      have present : vm.visits[count]? = some vm.visits[count] := List.getElem?_eq_getElem within
      have visit := Vm.visits_getElem? counting present
      rw [List.getLast?_eq_getElem?, length, Nat.add_sub_cancel, ← rounds, present, visit]
      rw [Nat.zero_add] at free ⊢
      rw [free]
      rfl

/-! ## Who moves the counter -/

theorem Raised.counter {self : ServiceId} {vm next : Vm} {co : Co} {ret : Return} {after : Pc}
    (raised : Raised self vm co ret next after) : next.nextSession = vm.nextSession := by
  cases raised with
  | bootQuits | bootEnds | answered | unnoticed => rfl

/-- Only calls touch the counter. -/
theorem Move.counter {self : ServiceId} {vm next : Vm} {pc after : Pc} {choice : Choice}
    (moved : Move self vm pc choice next after)
    (uncalled : forall co ret, pc = .user (.coroutine co ret) ->
      (forall toId payload, choice ≠ .call toId payload) ∧ choice ≠ .callUnpackable) :
    next.nextSession = vm.nextSession := by
  cases moved with
  | call => exact False.elim ((uncalled _ _ rfl).1 _ _ rfl)
  | callUnpackable => exact False.elim ((uncalled _ _ rfl).2 rfl)
  | raise control raised inside => exact raised.counter
  | _ => rfl

/-- The request of a call carries the session just handed out. -/
theorem Move.sendsCall {self : ServiceId} {vm next : Vm} {pc after : Pc} {choice : Choice}
    (moved : Move self vm pc choice next after) {message : Message} {caller : Co}
    {session : Session} {ret : Return} (sends : after = .sending message (.call caller session ret)) :
    Exists fun co => Exists fun ret => Exists fun toId => Exists fun payload =>
      pc = .user (.coroutine co ret) ∧ choice = .call toId payload ∧
        Exists fun later => allocateSession vm = some (session, later) := by
  cases moved with
  | call managed allocated =>
      cases sends
      exact ⟨_, _, _, _, rfl, rfl, _, allocated⟩
  | raise control raised inside =>
      cases raised with
      | bootQuits | answered => cases sends
      | bootEnds | unnoticed => exact False.elim (Return.pc_ne_sending _ _ _ sends)
  | removed | notBooted | finishSilent | yield | sentCall | sentResponse | sentFailure =>
      exact False.elim (Return.pc_ne_sending _ _ _ sends)
  | stopped => exact False.elim (AfterQuit.pc_ne_sending _ _ _ sends)
  | _ => cases sends

end Lua
end ServiceRuntime
