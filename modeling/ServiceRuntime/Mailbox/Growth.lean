import ServiceRuntime.Foundation.Doubling
import ServiceRuntime.Mailbox.Producers

namespace ServiceRuntime

open Foundation

/-!
# How far the ring grows, and at what cost

Several producers may find the ring full and allocate at the same time; the
buffers that come too late are thrown away.  So the ring never grows twice for
one shortage: its capacity is the least doubling of the initial one that covers
the longest queue there has been.  What `grow_locked` moves adds up to what the
ring has grown by, which the pushes that made the queue long have paid for.
-/

namespace MailboxSystem

variable {Item : Type}

/-- What a step does to the ring: the items `grow_locked` moves, and the length
of the queue after it. -/
structure Sample where
  moved : Nat
  length : Nat
  deriving DecidableEq, Repr

/-- `grow_locked` moves all items, and doubles the capacity. -/
def sample (state : State Item) (_action : Action Item) (next : State Item) : List Sample :=
  [{  moved := if next.box.capacity = state.box.capacity then 0 else state.box.count
      length := next.box.count }]

/-- The machine of a mailbox with the log of these steps. -/
def sampled (Item : Type) (capacity : Nat) : Machine (State Item × List Sample) (Action Item) :=
  (machine Item capacity).observe sample

/-- The items moved so far. -/
def moves (log : List Sample) : Nat := (log.map Sample.moved).sum

/-- The ring has grown as far as the queue asked for. -/
structure Measured (capacity : Nat) (state : State Item) (log : List Sample) : Prop where
  least : LeastDoubling capacity (log.map Sample.length) state.box.capacity
  moved : capacity + moves log = state.box.capacity
  pushed : forall length, length ∈ log.map Sample.length -> length ≤ state.accepted.length

theorem Invariant.count_le_accepted {capacity : Nat} {state : State Item}
    (holds : Invariant capacity state) : state.box.count ≤ state.accepted.length := by
  calc state.box.count
      = state.box.contents.length := holds.valid.contents_length.symm
    _ ≤ (state.popped ++ state.box.contents).length := by
        rw [List.length_append]
        exact Nat.le_add_left _ _
    _ = state.accepted.length := by rw [holds.fifo, List.length_map]

theorem afterRegion_accepted (state : State Item) (index : Nat) (producer : Producer Item)
    (item : Item) (outcome : Mailbox Item × Mailbox.PushRegion) :
    state.accepted.length ≤ (afterRegion state index producer item outcome).accepted.length := by
  rcases outcome with ⟨box, _ | ⟨result, _⟩⟩
  · exact Nat.le_refl _
  · simp only [afterRegion]
    split
    · rw [List.length_append]
      exact Nat.le_add_right _ _
    · exact Nat.le_refl _

/-- Nothing that was accepted is forgotten. -/
theorem step_accepted {state next : State Item} {action : Action Item}
    (moved : step state action = some next) :
    state.accepted.length ≤ next.accepted.length := by
  cases action with
  | push index item | enter index | relock index =>
      rcases step_of_producer moved with ⟨producer, _, own⟩
      cases pc : producer.pc <;>
        simp only [producerStep, pc, reduceCtorEq, Option.some.injEq] at own
      subst own
      first
        | exact Nat.le_refl _
        | exact afterRegion_accepted _ _ _ _ _
  | allocate index malloc =>
      rcases step_of_producer moved with ⟨producer, _, own⟩
      cases pc : producer.pc <;> simp only [producerStep, pc, reduceCtorEq] at own
      split at own
      · split at own <;> cases own <;> exact Nat.le_refl _
      · cases own
  | spawn | pop | finishBatch | takeOverload | close =>
      cases moved
      exact Nat.le_refl _

/-- A full ring that gets one item more needs exactly one doubling. -/
theorem leastDoubling_full {base capacity : Nat} (doubling : Doubling base capacity)
    (positive : 0 < capacity) :
    LeastDoubling base [capacity, capacity + 1] (capacity * 2) := by
  have covered : LeastDoubling base [capacity * 2, capacity + 1] (capacity * 2) :=
    (LeastDoubling.start doubling.twice).append_of_le (by omega)
  exact covered.of_twice doubling (Nat.lt_succ_self capacity)

/-- One step of the machine keeps the measures. -/
theorem Measured.step {capacity : Nat} {state next : State Item} {log : List Sample}
    {action : Action Item} (measured : Measured capacity state log)
    (holds : Invariant capacity state) (moved : MailboxSystem.step state action = some next) :
    Measured capacity next (log ++ sample state action next) := by
  have after : Invariant capacity next := step_invariant holds moved
  have pushed : forall length, length ∈ (log ++ sample state action next).map Sample.length ->
      length ≤ next.accepted.length := by
    intro length member
    rw [List.map_append] at member
    rcases List.mem_append.mp member with earlier | last
    · exact Nat.le_trans (measured.pushed length earlier) (step_accepted moved)
    · rw [List.mem_singleton.mp last]
      exact after.count_le_accepted
  by_cases same : next.box.capacity = state.box.capacity
  · -- the queue still fits
    refine ⟨?_, ?_, pushed⟩
    · rw [List.map_append, same]
      exact measured.least.append_of_le (same ▸ after.valid.count_le)
    · simp only [moves, sample, List.map_append, List.map_cons, List.map_nil, List.sum_append,
        List.sum_cons, List.sum_nil, same, if_true, Nat.add_zero]
      exact measured.moved
  · rcases step_grows holds moved same with
      ⟨_, _, item, grown, _, _, _, full, _, result⟩
    have larger : next.box.capacity = state.box.capacity * 2 := congrArg Mailbox.capacity result
    have longer : next.box.count = state.box.capacity + 1 :=
      (congrArg Mailbox.count result).trans (congrArg Nat.succ full)
    have doubled := leastDoubling_full measured.least.doubling holds.valid.capacity_pos
    refine ⟨?_, ?_, pushed⟩
    · rw [List.map_append, larger]
      change LeastDoubling capacity (log.map Sample.length ++ [next.box.count]) _
      rw [longer]
      exact measured.least.append doubled
    · have before := measured.moved
      simp only [moves, sample, List.map_append, List.map_cons, List.map_nil, List.sum_append,
        List.sum_cons, List.sum_nil, same, if_false, Nat.add_zero] at before ⊢
      omega

theorem reachable_measured {capacity : Nat} {observed : State Item × List Sample}
    (reachable : (sampled Item capacity).Reachable observed) :
    Measured capacity observed.1 observed.2 := by
  apply reachable.observed
  · rintro start ⟨cells, _, created, _, _, _⟩
    have fresh : start.box.capacity = capacity := by
      unfold Mailbox.new at created
      split at created
      · cases created
      · rcases Option.map_eq_some_iff.mp created with ⟨_, _, same⟩
        rw [← same]
    refine ⟨⟨fresh ▸ Doubling.zero _, ?_, ?_⟩, ?_, ?_⟩
    · exact fun _ absent => absurd absent List.not_mem_nil
    · exact fun other doubling _ => fresh ▸ doubling.base_le
    · exact (Nat.add_zero _).trans fresh.symm
    · exact fun _ absent => absurd absent List.not_mem_nil
  · intro state log action next before measured moved
    exact measured.step (reachable_invariant before) moved

/-- Under every interleaving of the producers, with any allocations that fail or
come too late, the ring is as large as the longest queue asked for and no larger,
`grow_locked` has moved as many items as the ring has grown by, and fewer than
two for each push that was accepted. -/
theorem ring_grows_least {capacity : Nat} {observed : State Item × List Sample}
    (reachable : (sampled Item capacity).Reachable observed) :
    LeastDoubling capacity (observed.2.map Sample.length) observed.1.box.capacity ∧
    capacity + moves observed.2 = observed.1.box.capacity ∧
    (0 < moves observed.2 -> moves observed.2 < 2 * observed.1.accepted.length) := by
  have measured := reachable_measured reachable
  refine ⟨measured.least, measured.moved, ?_⟩
  intro positive
  have total := measured.moved
  have grown : observed.1.box.capacity ≠ capacity := by omega
  rcases measured.least.lt_twice grown with ⟨length, member, long⟩
  have paid := measured.pushed length member
  omega

/-- Two producers meet the full ring of one cell and both allocate: the ring
grows once. -/
def racingRun : List (Action Nat) :=
  [.spawn, .spawn, .push 0 10, .enter 0, .push 0 11, .push 1 20, .enter 0, .enter 1,
    .allocate 0 (some [0, 0]), .allocate 1 (some [0, 0]), .relock 0, .pop, .relock 1]

theorem ring_grows_least_racing :
    Exists fun observed => (sampled Nat 1).Reachable observed ∧
      observed.1.box.capacity = 2 ∧ observed.1.accepted.length = 3 ∧ moves observed.2 = 1 ∧
      LeastDoubling 1 (observed.2.map Sample.length) observed.1.box.capacity ∧
      moves observed.2 < 2 * observed.1.accepted.length := by
  let start : State Nat × List Sample :=
    ({ box := { items := [0], capacity := 1, head := 0, tail := 0, count := 0,
                initialCapacity := 1, overload := 0, overloadThreshold := 1, closed := false,
                scheduled := false }
       producers := [], popped := [], accepted := [] }, [])
  have initial : (sampled Nat 1).initial start := ⟨⟨[0], rfl, by decide, rfl, rfl, rfl⟩, rfl⟩
  have ends : ((sampled Nat 1).run start racingRun).any (fun observed =>
      decide (observed.1.box.capacity = 2 ∧ observed.1.accepted.length = 3 ∧
        moves observed.2 = 1)) = true := by decide
  rcases Machine.exists_reachable _ initial ends with ⟨observed, reachable, larger, pushed, moved⟩
  rcases ring_grows_least reachable with ⟨least, _, paid⟩
  exact ⟨observed, reachable, larger, pushed, moved, least, paid (moved ▸ Nat.one_pos)⟩

end MailboxSystem

end ServiceRuntime
