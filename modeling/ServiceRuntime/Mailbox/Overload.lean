import ServiceRuntime.Foundation.Doubling
import ServiceRuntime.Mailbox.Producers

namespace ServiceRuntime

open Foundation

/-!
# Overload reports

The loop at the end of `mailbox_try_pop` is taken here in the arithmetic of
`size_t`, where doubling may wrap to zero and the loop need not end.  It is
compared with the loop of `Mailbox.tryPop`, which doubles a natural number.

Between two empty pops the threshold is the least doubling of the initial
capacity that covers every length a pop has left, so the reports of such a
segment are as many as the doublings they needed at most.
-/

namespace Mailbox

variable {Item : Type}

/-- One round of the loop of `mailbox_try_pop`: what it writes to `overload`,
and the threshold it doubles. -/
structure Round where
  recorded : Nat
  threshold : Nat
  deriving DecidableEq, Repr

/-- The `while` loop of `mailbox_try_pop` in `size_t`: its rounds, and what it
leaves in `overload` and `overload_threshold`; nothing when it is not over
after so many tests. -/
def overloadLoop (count : Nat) : Nat -> Nat × Nat -> Option (List Round × Nat × Nat)
  | 0, _ => none
  | tests + 1, (overload, threshold) =>
      if threshold < count then
        (overloadLoop count tests (count, threshold * 2 % (sizeMax + 1))).map
          fun ended => (⟨count, threshold⟩ :: ended.1, ended.2)
      else some ([], overload, threshold)

/-! ## The loop -/

theorem raiseThreshold_overload {count fuel overload threshold : Nat} (positive : 0 < threshold)
    (enough : count - threshold ≤ fuel) :
    (raiseThreshold count fuel (overload, threshold)).1 =
      if threshold < count then count else overload := by
  induction fuel generalizing overload threshold with
  | zero => rw [raiseThreshold, if_neg (by omega)]
  | succ fuel inductionHypothesis =>
      rw [raiseThreshold]
      by_cases above : threshold < count
      · rw [if_pos above, if_pos above, inductionHypothesis (by omega) (by omega), ite_self]
      · rw [if_neg above, if_neg above]

/-- The threshold is doubled no more than the length needs. -/
theorem raiseThreshold_least {base count fuel overload threshold : Nat} (positive : 0 < threshold)
    (doubling : Doubling base threshold) (enough : count - threshold ≤ fuel) :
    LeastDoubling base [threshold, count] (raiseThreshold count fuel (overload, threshold)).2 := by
  induction fuel generalizing overload threshold with
  | zero =>
      rw [raiseThreshold]
      exact (LeastDoubling.start doubling).append_of_le (by omega)
  | succ fuel inductionHypothesis =>
      rw [raiseThreshold]
      by_cases above : threshold < count
      · rw [if_pos above]
        exact (inductionHypothesis (by omega) doubling.twice (by omega)).of_twice doubling above
      · rw [if_neg above]
        exact (LeastDoubling.start doubling).append_of_le (by omega)

/-- In `size_t` the loop ends as in the natural numbers: what it doubles lies
below a length, and twice a length is representable. -/
theorem overloadLoop_eq {count fuel overload threshold : Nat} (positive : 0 < threshold)
    (representable : count * 2 ≤ sizeMax) (enough : count - threshold ≤ fuel) :
    Exists fun rounds =>
      overloadLoop count (fuel + 1) (overload, threshold) =
          some (rounds, raiseThreshold count fuel (overload, threshold)) ∧
        (forall round, round ∈ rounds -> round.recorded = count ∧ round.threshold * 2 ≤ sizeMax) ∧
        (rounds = [] <-> ¬ threshold < count) := by
  induction fuel generalizing overload threshold with
  | zero =>
      have within : ¬ threshold < count := by omega
      refine ⟨[], ?_, ?_, ?_⟩
      · rw [overloadLoop, if_neg within, raiseThreshold]
      · intro round member
        exact absurd member List.not_mem_nil
      · simp [within]
  | succ fuel inductionHypothesis =>
      by_cases above : threshold < count
      · have small : threshold * 2 % (sizeMax + 1) = threshold * 2 :=
          Nat.mod_eq_of_lt (by omega)
        rcases @inductionHypothesis count (threshold * 2) (by omega) (by omega) with
          ⟨rounds, ended, sound, _⟩
        refine ⟨⟨count, threshold⟩ :: rounds, ?_, ?_, ?_⟩
        · rw [overloadLoop, if_pos above, small, ended, raiseThreshold, if_pos above]
          rfl
        · intro round member
          rcases List.mem_cons.mp member with rfl | later
          · exact ⟨rfl, by dsimp only; omega⟩
          · exact sound round later
        · simp [above]
      · refine ⟨[], ?_, ?_, ?_⟩
        · rw [overloadLoop, if_neg above, raiseThreshold, if_neg above]
        · intro round member
          exact absurd member List.not_mem_nil
        · simp [above]

/-- A pop that finds a message leaves one less, and sets the report to that length. -/
theorem tryPop_found {box : Mailbox Item} (found : 0 < box.count) :
    box.tryPop.1.count = box.count - 1 ∧
      (box.tryPop.1.overload, box.tryPop.1.overloadThreshold) =
        raiseThreshold (box.count - 1) (box.count - 1) (box.overload, box.overloadThreshold) := by
  unfold tryPop
  rw [if_pos found]
  exact ⟨rfl, rfl⟩

theorem tryPop_empty {box : Mailbox Item} (empty : ¬ 0 < box.count) :
    box.tryPop.1 = { box with scheduled := false, overloadThreshold := box.initialCapacity } := by
  unfold tryPop
  rw [if_neg empty]

theorem new_threshold {capacity : Nat} {cells : Option (List Item)} {box : Mailbox Item}
    (created : new capacity cells = some box) : box.overloadThreshold = capacity := by
  unfold new at created
  split at created
  · cases created
  · rcases Option.map_eq_some_iff.mp created with ⟨items, _, rfl⟩
    rfl

theorem tryPush_threshold (box : Mailbox Item) (spare : Option (List Item)) (item : Item) :
    (box.tryPush spare item).1.overloadThreshold = box.overloadThreshold := by
  rcases tryPush_cases box spare item with
    ⟨_, result⟩ | ⟨_, _, _, result⟩ | ⟨grown, _, _, _, result⟩ | ⟨_, _, result⟩
  · rw [result]
  · rw [result]
  · rw [result]
    rfl
  · rw [result]
    rfl

theorem finishBatch_threshold (box : Mailbox Item) :
    box.finishBatch.1.overloadThreshold = box.overloadThreshold := by
  unfold finishBatch
  split
  · rfl
  · rfl

end Mailbox

namespace MailboxSystem

variable {Item : Type}

/-! ## What a step does to the mailbox -/

theorem producerStep_box {state next : State Item} {index : Nat} {producer : Producer Item}
    {action : Action Item} (moved : producerStep state index producer action = some next) :
    next.box = state.box ∨
      Exists fun spare => Exists fun item => next.box = (state.box.tryPush spare item).1 := by
  cases action with
  | push _ item =>
      cases pc : producer.pc <;> simp only [producerStep, pc, reduceCtorEq, Option.some.injEq] at moved
      cases moved
      exact Or.inl rfl
  | enter _ =>
      cases pc : producer.pc <;> simp only [producerStep, pc, reduceCtorEq, Option.some.injEq] at moved
      cases moved
      exact Or.inr ⟨none, _, afterRegion_box _ _ _ _ _⟩
  | allocate _ malloc =>
      cases pc : producer.pc <;> simp only [producerStep, pc, reduceCtorEq] at moved
      split at moved
      · split at moved
        · cases moved
          exact Or.inl rfl
        · cases moved
          exact Or.inl rfl
      · cases moved
  | relock _ =>
      cases pc : producer.pc <;> simp only [producerStep, pc, reduceCtorEq, Option.some.injEq] at moved
      cases moved
      exact Or.inr ⟨_, _, afterRegion_box _ _ _ _ _⟩
  | spawn => cases moved
  | pop => cases moved
  | finishBatch => cases moved
  | takeOverload => cases moved
  | close => cases moved

/-- Only a pop changes the threshold. -/
theorem step_threshold {state next : State Item} {action : Action Item}
    (moved : step state action = some next) (other : action ≠ .pop) :
    next.box.overloadThreshold = state.box.overloadThreshold := by
  have ofProducer : forall index producer, producerStep state index producer action = some next ->
      next.box.overloadThreshold = state.box.overloadThreshold := by
    intro index producer own
    rcases producerStep_box own with same | ⟨spare, item, pushed⟩
    · rw [same]
    · rw [pushed, Mailbox.tryPush_threshold]
  cases action with
  | push index item =>
      rcases step_of_producer moved with ⟨producer, _, own⟩
      exact ofProducer index producer own
  | enter index =>
      rcases step_of_producer moved with ⟨producer, _, own⟩
      exact ofProducer index producer own
  | allocate index malloc =>
      rcases step_of_producer moved with ⟨producer, _, own⟩
      exact ofProducer index producer own
  | relock index =>
      rcases step_of_producer moved with ⟨producer, _, own⟩
      exact ofProducer index producer own
  | spawn =>
      cases moved
      rfl
  | pop => exact absurd rfl other
  | finishBatch =>
      cases moved
      exact Mailbox.finishBatch_threshold state.box
  | takeOverload =>
      cases moved
      rfl
  | close =>
      cases moved
      rfl

/-! ## The pops of a run -/

/-- A pop: the mailbox it found and the one it left. -/
structure Pop (Item : Type) where
  before : Mailbox Item
  after : Mailbox Item

namespace Pop

/-- The length the pop left. -/
def left (pop : Pop Item) : Nat := pop.after.count

def Found (pop : Pop Item) : Prop := 0 < pop.before.count

/-- The loop of the pop, with as many tests as it can need. -/
def loop (pop : Pop Item) : Option (List Mailbox.Round × Nat × Nat) :=
  Mailbox.overloadLoop pop.left (pop.left + 1) (pop.before.overload, pop.before.overloadThreshold)

/-- What the pop records: the last value its loop writes to `overload`. -/
def report (pop : Pop Item) : Option Nat :=
  pop.loop.bind fun ended => ended.1.getLast?.map Mailbox.Round.recorded

/-- The loop is over, leaves what the pop left, and doubles no threshold whose
double does not fit `size_t`. -/
def Terminates (pop : Pop Item) : Prop :=
  Exists fun rounds =>
    pop.loop = some (rounds, pop.after.overload, pop.after.overloadThreshold) ∧
      forall round, round ∈ rounds -> round.threshold * 2 ≤ sizeMax

end Pop

/-- The machine with a log of its pops. -/
def popping (Item : Type) (capacity : Nat) : Machine (State Item × List (Pop Item)) (Action Item) :=
  (machine Item capacity).observe fun state action next =>
    match action with
    | .pop => [⟨state.box, next.box⟩]
    | _ => []

/-- The threshold is a doubling of the initial capacity at all times. -/
def OnLadder (capacity : Nat) (state : State Item) : Prop :=
  Doubling capacity state.box.overloadThreshold

theorem Invariant.capacity_pos {capacity : Nat} {state : State Item}
    (holds : Invariant capacity state) : 0 < capacity := by
  rw [← holds.initial]
  exact holds.valid.initial_pos

/-- What a pop that finds a message does. -/
structure Pop.Reports (capacity : Nat) (pop : Pop Item) : Prop where
  terminates : pop.Terminates
  report : pop.report = if pop.before.overloadThreshold < pop.left then some pop.left else none
  overload : pop.after.overload = pop.report.getD pop.before.overload
  raised : LeastDoubling capacity [pop.before.overloadThreshold, pop.left] pop.after.overloadThreshold

/-- What the last round of a loop recorded, when all record the same. -/
theorem getLast?_recorded {rounds : List Mailbox.Round} {count : Nat}
    (same : forall round, round ∈ rounds -> round.recorded = count) :
    rounds.getLast?.map Mailbox.Round.recorded = if rounds = [] then none else some count := by
  cases rounds with
  | nil => rfl
  | cons round rest =>
      rw [List.getLast?_eq_some_getLast (List.cons_ne_nil round rest), Option.map_some,
        same _ (List.getLast_mem _), if_neg (List.cons_ne_nil round rest)]

theorem pop_reports {capacity : Nat} {state : State Item} (holds : Invariant capacity state)
    (ladder : OnLadder capacity state) (found : 0 < state.box.count) :
    (Pop.mk state.box state.box.tryPop.1).Reports capacity := by
  have positive : 0 < state.box.overloadThreshold :=
    Nat.lt_of_lt_of_le holds.capacity_pos ladder.base_le
  have fits : (state.box.count - 1) * 2 ≤ sizeMax := by
    have within := holds.valid.count_le
    have representable := holds.valid.representable
    unfold sizeMax messageSize at *
    omega
  rcases Mailbox.tryPop_found found with ⟨count, report⟩
  have overload := congrArg Prod.fst report
  have threshold := congrArg Prod.snd report
  dsimp only at overload threshold
  rw [Mailbox.raiseThreshold_overload positive (Nat.sub_le _ _)] at overload
  rcases @Mailbox.overloadLoop_eq (state.box.count - 1) (state.box.count - 1) state.box.overload
    state.box.overloadThreshold positive fits (Nat.sub_le _ _) with ⟨rounds, ended, sound, none_iff⟩
  have loop : (Pop.mk state.box state.box.tryPop.1).loop =
      some (rounds, state.box.tryPop.1.overload, state.box.tryPop.1.overloadThreshold) := by
    unfold Pop.loop Pop.left
    rw [count, ended, ← report]
  have recorded : (Pop.mk state.box state.box.tryPop.1).report =
      if state.box.overloadThreshold < state.box.count - 1 then some (state.box.count - 1)
      else none := by
    unfold Pop.report
    rw [loop, Option.bind_some, getLast?_recorded fun round member => (sound round member).1]
    by_cases above : state.box.overloadThreshold < state.box.count - 1
    · rw [if_pos above, if_neg (fun empty => none_iff.mp empty above)]
    · rw [if_neg above, if_pos (none_iff.mpr above)]
  exact
    { terminates := ⟨rounds, loop, fun round member => (sound round member).2⟩
      report := by
        unfold Pop.left
        rw [count]
        exact recorded
      overload := by
        rw [recorded]
        dsimp only
        rw [overload]
        split
        · rfl
        · rfl
      raised := by
        unfold Pop.left
        dsimp only
        rw [count, threshold]
        exact Mailbox.raiseThreshold_least positive ladder (Nat.sub_le _ _) }

theorem step_onLadder {capacity : Nat} {state next : State Item} {action : Action Item}
    (holds : Invariant capacity state) (ladder : OnLadder capacity state)
    (moved : step state action = some next) : OnLadder capacity next := by
  by_cases isPop : action = .pop
  · subst isPop
    cases moved
    by_cases found : 0 < state.box.count
    · exact (pop_reports holds ladder found).raised.doubling
    · change Doubling capacity state.box.tryPop.1.overloadThreshold
      rw [Mailbox.tryPop_empty found]
      dsimp only
      rw [holds.initial]
      exact Doubling.zero capacity
  · unfold OnLadder
    rw [step_threshold moved isPop]
    exact ladder

theorem initial_onLadder {capacity : Nat} {state : State Item}
    (initial : (machine Item capacity).initial state) : OnLadder capacity state := by
  rcases initial with ⟨cells, _, created, _⟩
  unfold OnLadder
  rw [Mailbox.new_threshold created]
  exact Doubling.zero capacity

theorem reachable_onLadder {capacity : Nat} {state : State Item}
    (reachable : (machine Item capacity).Reachable state) : OnLadder capacity state :=
  reachable.induction (fun _ initial => initial_onLadder initial)
    fun _ _ _ before ladder moved => step_onLadder (reachable_invariant before) ladder moved

/-! ## A segment without an empty pop -/

/-- The pops that record a report. -/
def reporting (pops : List (Pop Item)) : List (Pop Item) :=
  pops.filter fun pop => pop.report.isSome

theorem reporting_append (pops : List (Pop Item)) (pop : Pop Item) :
    reporting (pops ++ [pop]) =
      if pop.report.isSome then reporting pops ++ [pop] else reporting pops := by
  unfold reporting
  rw [List.filter_append, List.filter_singleton]
  cases pop.report.isSome with
  | true => rfl
  | false => exact List.append_nil _

/-- What holds at the end of a segment that starts with the given threshold. -/
structure Segment (capacity start : Nat) (pops : List (Pop Item)) (state : State Item) : Prop where
  threshold : LeastDoubling capacity (start :: pops.map Pop.left) state.box.overloadThreshold
  sound : forall pop, pop ∈ pops -> pop.Reports capacity
  reports : capacity * 2 ^ (reporting pops).length ≤ state.box.overloadThreshold
  lengths : forall index pop, (reporting pops)[index]? = some pop -> capacity * 2 ^ index < pop.left

namespace Segment

variable {capacity start : Nat} {pops : List (Pop Item)} {state : State Item}

theorem begins (ladder : OnLadder capacity state) :
    Segment capacity state.box.overloadThreshold [] state where
  threshold := LeastDoubling.start ladder
  sound := fun _ absent => absurd absent List.not_mem_nil
  reports := by
    rw [reporting, List.filter_nil, List.length_nil, Nat.pow_zero, Nat.mul_one]
    exact ladder.base_le
  lengths := by
    intro index pop present
    cases present

theorem frame (segment : Segment capacity start pops state) {next : State Item}
    (same : next.box.overloadThreshold = state.box.overloadThreshold) :
    Segment capacity start pops next where
  threshold := by
    rw [same]
    exact segment.threshold
  sound := segment.sound
  reports := by
    rw [same]
    exact segment.reports
  lengths := segment.lengths

/-- One more pop that finds a message. -/
theorem append (segment : Segment capacity start pops state) {pop : Pop Item} {next : State Item}
    (reports : pop.Reports capacity)
    (before : pop.before.overloadThreshold = state.box.overloadThreshold)
    (after : pop.after.overloadThreshold = next.box.overloadThreshold) :
    Segment capacity start (pops ++ [pop]) next := by
  have raised := reports.raised
  have recorded := reports.report
  rw [before] at recorded
  rw [before, after] at raised
  have threshold : LeastDoubling capacity (start :: (pops ++ [pop]).map Pop.left)
      next.box.overloadThreshold := by
    rw [List.map_append, ← List.cons_append]
    exact segment.threshold.append raised
  have sound : forall pop', pop' ∈ pops ++ [pop] -> pop'.Reports capacity := by
    intro pop' member
    rcases List.mem_append.mp member with earlier | last
    · exact segment.sound pop' earlier
    · rw [List.mem_singleton.mp last]
      exact reports
  have kept := raised.covers _ List.mem_cons_self
  by_cases above : state.box.overloadThreshold < pop.left
  · rw [if_pos above] at recorded
    have reported : reporting (pops ++ [pop]) = reporting pops ++ [pop] := by
      rw [reporting_append, if_pos (by rw [recorded]; rfl)]
    have beyond : state.box.overloadThreshold < next.box.overloadThreshold :=
      Nat.lt_of_lt_of_le above (raised.covers _ (List.mem_cons_of_mem _ List.mem_cons_self))
    refine ⟨threshold, sound, ?_, ?_⟩
    · rw [reported, List.length_append, List.length_singleton, Nat.pow_succ, ← Nat.mul_assoc]
      calc
        capacity * 2 ^ (reporting pops).length * 2 ≤ state.box.overloadThreshold * 2 :=
          Nat.mul_le_mul_right 2 segment.reports
        _ ≤ next.box.overloadThreshold :=
          segment.threshold.doubling.twice_le raised.doubling beyond
    · intro index pop' present
      rw [reported] at present
      rcases Nat.lt_or_ge index (reporting pops).length with earlier | last
      · rw [List.getElem?_append_left earlier] at present
        exact segment.lengths index pop' present
      · rw [List.getElem?_append_right last] at present
        rcases List.getElem?_eq_some_iff.mp present with ⟨inside, rfl⟩
        rw [List.length_singleton] at inside
        have position : index = (reporting pops).length := by omega
        subst position
        rw [List.getElem_singleton]
        exact Nat.lt_of_le_of_lt segment.reports above
  · rw [if_neg above] at recorded
    have reported : reporting (pops ++ [pop]) = reporting pops := by
      rw [reporting_append, if_neg (by rw [recorded]; exact Bool.false_ne_true)]
    refine ⟨threshold, sound, ?_, ?_⟩
    · rw [reported]
      exact Nat.le_trans segment.reports kept
    · rw [reported]
      exact segment.lengths

end Segment

/-- A run of the logging machine keeps what a segment promises, as long as no
pop of its log is empty. -/
theorem run_segment {capacity start : Nat} {state final : State Item × List (Pop Item)}
    {schedule : List (Action Item)} (holds : Invariant capacity state.1)
    (segment : Segment capacity start state.2 state.1)
    (taken : (popping Item capacity).run state schedule = some final)
    (found : forall pop, pop ∈ final.2 -> pop.Found) : Segment capacity start final.2 final.1 := by
  have kept : Invariant capacity final.1 ∧
      ((forall pop, pop ∈ final.2 -> pop.Found) -> Segment capacity start final.2 final.1) := by
    apply (popping Item capacity).run_preserves _ taken ⟨holds, fun _ => segment⟩
    rintro current action next ⟨valid, promised⟩ moved
    rcases (machine Item capacity).observe_step_eq_some moved with ⟨stepped, logged⟩
    refine ⟨step_invariant valid stepped, ?_⟩
    intro noneEmpty
    have earlier := promised fun pop member =>
      noneEmpty pop (by rw [logged]; exact List.mem_append_left _ member)
    by_cases isPop : action = .pop
    · subst isPop
      have box : next.1 = consumerPop current.1 := (Option.some.inj stepped).symm
      have nonempty : 0 < current.1.box.count :=
        noneEmpty ⟨current.1.box, next.1.box⟩
          (by rw [logged]; exact List.mem_append_right _ List.mem_cons_self)
      rw [logged, box]
      exact earlier.append (pop_reports valid earlier.threshold.doubling nonempty) rfl rfl
    · have same : next.2 = current.2 := by
        rw [logged]
        cases action <;> first | exact List.append_nil _ | exact absurd rfl isPop
      rw [same]
      exact earlier.frame (step_threshold stepped isPop)
  exact kept.2 found

/-- In any segment of a run without an empty pop: the threshold is the least
doubling of the initial capacity that covers its start and every length a pop
left; a pop records a report exactly if it leaves more than the threshold it
finds, and then the length it left; the reports come at doubled lengths; and the
loop of every pop ends without overflow. -/
theorem overload_reports {capacity : Nat} {start final : State Item} {schedule : List (Action Item)}
    {pops : List (Pop Item)} (reachable : (machine Item capacity).Reachable start)
    (taken : (popping Item capacity).run (start, []) schedule = some (final, pops))
    (found : forall pop, pop ∈ pops -> pop.Found) :
    LeastDoubling capacity (start.box.overloadThreshold :: pops.map Pop.left)
        final.box.overloadThreshold ∧
      (forall pop, pop ∈ pops ->
        pop.report = (if pop.before.overloadThreshold < pop.left then some pop.left else none) ∧
          pop.after.overload = pop.report.getD pop.before.overload ∧ pop.Terminates) ∧
      forall index pop, (reporting pops)[index]? = some pop -> capacity * 2 ^ index < pop.left := by
  have segment : Segment capacity start.box.overloadThreshold pops final :=
    @run_segment Item capacity start.box.overloadThreshold (start, []) (final, pops) schedule
      (reachable_invariant reachable) (Segment.begins (reachable_onLadder reachable)) taken found
  refine ⟨segment.threshold, ?_, segment.lengths⟩
  intro pop member
  have reports := segment.sound pop member
  exact ⟨reports.report, reports.overload, reports.terminates⟩

/-- Five messages into a ring of capacity one, then two pops. -/
def backlogRun : List (Action Nat) :=
  [.spawn, .push 0 1, .enter 0, .push 0 2, .enter 0, .allocate 0 (some [0, 0]), .relock 0,
    .push 0 3, .enter 0, .allocate 0 (some [0, 0, 0, 0]), .relock 0, .push 0 4, .enter 0,
    .push 0 5, .enter 0, .allocate 0 (some [0, 0, 0, 0, 0, 0, 0, 0]), .relock 0, .pop, .pop]

theorem overload_reports_backlog :
    Exists fun final : State Nat => Exists fun pops : List (Pop Nat) =>
      pops.map (fun pop => (pop.report, pop.left)) = [(some 4, 4), (none, 3)] ∧
        LeastDoubling 1 (1 :: pops.map Pop.left) final.box.overloadThreshold := by
  let start : State Nat :=
    { box := { items := [0], capacity := 1, head := 0, tail := 0, count := 0, initialCapacity := 1,
               overload := 0, overloadThreshold := 1, closed := false, scheduled := false }
      producers := [], popped := [], accepted := [] }
  have enabled : ((popping Nat 1).run (start, []) backlogRun).isSome = true := by decide
  rcases Option.isSome_iff_exists.mp enabled with ⟨⟨final, pops⟩, taken⟩
  have reachable : (machine Nat 1).Reachable start :=
    ⟨start, [], ⟨[0], rfl, by decide, rfl, rfl, rfl⟩, rfl⟩
  have observed : ((popping Nat 1).run (start, []) backlogRun).map
      (fun ended => (ended.2.map (fun pop => (pop.report, pop.left)),
        ended.2.all fun pop => decide (0 < pop.before.count))) =
      some ([(some 4, 4), (none, 3)], true) := by decide
  rw [taken, Option.map_some, Option.some.injEq, Prod.mk.injEq] at observed
  have found : forall pop, pop ∈ pops -> pop.Found := by
    intro pop member
    have occupied := List.all_eq_true.mp observed.2 pop member
    exact @of_decide_eq_true (0 < pop.before.count) _ occupied
  exact ⟨final, pops, observed.1, (overload_reports reachable taken found).1⟩

end MailboxSystem
end ServiceRuntime
