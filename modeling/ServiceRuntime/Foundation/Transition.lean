import Mathlib.Data.List.Basic

namespace ServiceRuntime
namespace Foundation

/-!
# Guarded machines and their runs

A concurrent component is described by one executable step function.  The
action names the party that moves together with every choice the environment
makes for it, so that the step itself is a function: `none` says that the
action is not enabled.  Interleavings are then plain lists of actions, and a
statement about every interleaving is a statement about every list.

The invariant rules below are the only inductions over runs which the
development needs.  They mention no particular component.
-/

/-- A machine given by its initial states and a partial step function. -/
structure Machine (State : Type u) (Action : Type v) where
  initial : State -> Prop
  step : State -> Action -> Option State

namespace Machine

variable {State : Type u} {Action : Type v} (machine : Machine State Action)

/-- Execute a schedule; a disabled action makes the whole schedule void. -/
def run : State -> List Action -> Option State
  | state, [] => some state
  | state, action :: rest => (machine.step state action).bind fun next => run next rest

/-- A state some schedule leads to from an initial state. -/
def Reachable (state : State) : Prop :=
  Exists fun start => Exists fun schedule =>
    machine.initial start ∧ machine.run start schedule = some state

@[simp] theorem run_nil (state : State) : machine.run state [] = some state := rfl

theorem run_cons_eq_some {state final : State} {action : Action} {rest : List Action} :
    machine.run state (action :: rest) = some final <->
      Exists fun next => machine.step state action = some next ∧ machine.run next rest = some final := by
  simp only [run, Option.bind_eq_some_iff]

theorem run_append_eq_some {state final : State} {first second : List Action} :
    machine.run state (first ++ second) = some final <->
      Exists fun middle => machine.run state first = some middle ∧
        machine.run middle second = some final := by
  induction first generalizing state with
  | nil => simp only [List.nil_append, run_nil, Option.some.injEq, exists_eq_left']
  | cons action rest inductionHypothesis =>
      rw [List.cons_append, run_cons_eq_some]
      constructor
      · rintro ⟨next, taken, later⟩
        rcases inductionHypothesis.mp later with ⟨middle, reached, finish⟩
        exact ⟨middle, (machine.run_cons_eq_some).mpr ⟨next, taken, reached⟩, finish⟩
      · rintro ⟨middle, reached, finish⟩
        rcases (machine.run_cons_eq_some).mp reached with ⟨next, taken, later⟩
        exact ⟨next, taken, inductionHypothesis.mpr ⟨middle, later, finish⟩⟩

/-- A property kept by every enabled step is kept by every run. -/
theorem run_preserves {property : State -> Prop}
    (preserved : forall state action next, property state ->
      machine.step state action = some next -> property next)
    {state final : State} {schedule : List Action}
    (taken : machine.run state schedule = some final) (holds : property state) :
    property final := by
  induction schedule generalizing state with
  | nil =>
      cases taken
      exact holds
  | cons action rest inductionHypothesis =>
      rcases (machine.run_cons_eq_some).mp taken with ⟨next, first, later⟩
      exact inductionHypothesis later (preserved state action next holds first)

/-- The same rule for a property of two states, read as "everything that has
happened since `state`".  It is the shape of all monotonicity statements. -/
theorem run_relates {relation : State -> State -> Prop}
    (reflexive : forall state, relation state state)
    (transitive : forall first second third, relation first second ->
      relation second third -> relation first third)
    (stepwise : forall state action next, machine.step state action = some next ->
      relation state next)
    {state final : State} {schedule : List Action}
    (taken : machine.run state schedule = some final) : relation state final := by
  have kept : forall current action next, relation state current ->
      machine.step current action = some next -> relation state next := by
    intro current action next sofar moved
    exact transitive state current next sofar (stepwise current action next moved)
  exact machine.run_preserves kept taken (reflexive state)

/-- The invariant rule: established initially, kept by every step. -/
theorem Reachable.invariant {machine : Machine State Action} {property : State -> Prop}
    (established : forall start, machine.initial start -> property start)
    (preserved : forall state action next, property state ->
      machine.step state action = some next -> property next)
    {state : State} (reachable : machine.Reachable state) : property state := by
  rcases reachable with ⟨start, schedule, initial, taken⟩
  exact machine.run_preserves preserved taken (established start initial)

theorem Reachable.step {machine : Machine State Action} {state next : State} {action : Action}
    (reachable : machine.Reachable state) (moved : machine.step state action = some next) :
    machine.Reachable next := by
  rcases reachable with ⟨start, schedule, initial, taken⟩
  refine ⟨start, schedule ++ [action], initial, ?_⟩
  rw [run_append_eq_some]
  exact ⟨state, taken, by rw [run_cons_eq_some]; exact ⟨next, moved, rfl⟩⟩

theorem Reachable.run {machine : Machine State Action} {state final : State}
    {schedule : List Action} (reachable : machine.Reachable state)
    (taken : machine.run state schedule = some final) : machine.Reachable final := by
  rcases reachable with ⟨start, before, initial, arrived⟩
  exact ⟨start, before ++ schedule, initial, machine.run_append_eq_some.mpr ⟨state, arrived, taken⟩⟩

/-- The invariant rule with earlier invariants at hand: the state a step
starts from is reachable itself. -/
theorem Reachable.induction {machine : Machine State Action} {property : State -> Prop}
    (established : forall start, machine.initial start -> property start)
    (preserved : forall state action next, machine.Reachable state -> property state ->
      machine.step state action = some next -> property next)
    {state : State} (reachable : machine.Reachable state) : property state := by
  have both : machine.Reachable state ∧ property state := by
    apply Reachable.invariant _ _ reachable
    · intro start initial
      exact ⟨⟨start, [], initial, rfl⟩, established start initial⟩
    · intro current action next sofar moved
      exact ⟨sofar.1.step moved, preserved current action next sofar.1 sofar.2 moved⟩
  exact both.2

/-- What has happened since a reachable state, with its invariants at hand. -/
theorem Reachable.relates {machine : Machine State Action} {relation : State -> Prop}
    {state final : State} {schedule : List Action} (reachable : machine.Reachable state)
    (here : relation state)
    (stepwise : forall current action next, machine.Reachable current -> relation current ->
      machine.step current action = some next -> relation next)
    (taken : machine.run state schedule = some final) :
    machine.Reachable final ∧ relation final := by
  have kept : forall current action next, machine.Reachable current ∧ relation current ->
      machine.step current action = some next -> machine.Reachable next ∧ relation next := by
    intro current action next sofar moved
    exact ⟨sofar.1.step moved, stepwise current action next sofar.1 sofar.2 moved⟩
  exact machine.run_preserves kept taken ⟨reachable, here⟩

/-- The same machine on the runs whose steps all meet a condition. -/
def restrict (allowed : State -> Action -> Prop) [forall state action, Decidable (allowed state action)] :
    Machine State Action where
  initial := machine.initial
  step := fun state action => if allowed state action then machine.step state action else none

theorem restrict_step_eq_some {machine : Machine State Action} {allowed : State -> Action -> Prop}
    [forall state action, Decidable (allowed state action)] {state next : State} {action : Action}
    (moved : (machine.restrict allowed).step state action = some next) :
    allowed state action ∧ machine.step state action = some next := by
  simp only [restrict] at moved
  split at moved
  · exact ⟨by assumption, moved⟩
  · cases moved

theorem Reachable.of_restrict {machine : Machine State Action} {allowed : State -> Action -> Prop}
    [forall state action, Decidable (allowed state action)] {state : State}
    (reachable : (machine.restrict allowed).Reachable state) : machine.Reachable state := by
  apply reachable.invariant
  · intro start initial
    exact ⟨start, [], initial, rfl⟩
  · intro current action next sofar moved
    exact sofar.step (restrict_step_eq_some moved).2

/-- Executing a schedule shows that a state with a decidable property is
reachable. -/
theorem exists_reachable {property : State -> Prop} [DecidablePred property] {start : State}
    {schedule : List Action} (initial : machine.initial start)
    (ends : (machine.run start schedule).any (fun final => decide (property final)) = true) :
    Exists fun state => machine.Reachable state ∧ property state := by
  rcases (Option.any_eq_true _ _).mp ends with ⟨state, taken, observed⟩
  exact ⟨state, ⟨start, schedule, initial, taken⟩, of_decide_eq_true observed⟩

/-! ## What holds all along one run -/

/-- The property holds in every state the schedule visits. -/
def Throughout (property : State -> Prop) : State -> List Action -> Prop
  | state, [] => property state
  | state, action :: rest =>
      property state ∧
        match machine.step state action with
        | some next => Throughout property next rest
        | none => True

/-- Every step the schedule takes meets the condition. -/
def Obeys (allowed : State -> Action -> Prop) : State -> List Action -> Prop
  | _, [] => True
  | state, action :: rest =>
      match machine.step state action with
      | some next => allowed state action ∧ Obeys allowed next rest
      | none => True

theorem Throughout.here {property : State -> Prop} {state : State} {schedule : List Action}
    (holds : machine.Throughout property state schedule) : property state := by
  cases schedule with
  | nil => exact holds
  | cons action rest => exact holds.1

theorem obeys_cons_of_some {allowed : State -> Action -> Prop} {state next : State}
    {action : Action} (rest : List Action) (moved : machine.step state action = some next) :
    machine.Obeys allowed state (action :: rest) <->
      allowed state action ∧ machine.Obeys allowed next rest := by
  simp only [Obeys, moved]

theorem obeys_append {allowed : State -> Action -> Prop} {state middle : State}
    {first second : List Action} (taken : machine.run state first = some middle) :
    machine.Obeys allowed state (first ++ second) <->
      machine.Obeys allowed state first ∧ machine.Obeys allowed middle second := by
  induction first generalizing state with
  | nil =>
      cases taken
      exact (and_iff_right trivial).symm
  | cons action rest inductionHypothesis =>
      rcases (machine.run_cons_eq_some).mp taken with ⟨next, moved, later⟩
      rw [List.cons_append, machine.obeys_cons_of_some _ moved, machine.obeys_cons_of_some _ moved,
        inductionHypothesis later, and_assoc]

instance decidableObeys (allowed : State -> Action -> Prop)
    [forall state action, Decidable (allowed state action)] :
    forall (state : State) (schedule : List Action), Decidable (machine.Obeys allowed state schedule)
  | _, [] => .isTrue trivial
  | state, action :: rest =>
      match moved : machine.step state action with
      | some next =>
          have _later := decidableObeys allowed next rest
          decidable_of_iff _ (machine.obeys_cons_of_some rest moved).symm
      | none => .isTrue (by simp only [Obeys, moved])

/-- A condition on steps is exact for a property of states when the steps that
meet it keep an invariant that implies the property, and the others break the
property at once. -/
theorem throughout_iff_obeys {property : State -> Prop} {allowed : State -> Action -> Prop}
    (invariant : State -> Prop)
    (sound : forall state, invariant state -> property state)
    (kept : forall state action next, invariant state -> allowed state action ->
      machine.step state action = some next -> invariant next)
    (broken : forall state action next, invariant state -> ¬ allowed state action ->
      machine.step state action = some next -> ¬ property next)
    {state : State} (holds : invariant state) (schedule : List Action) :
    machine.Throughout property state schedule <-> machine.Obeys allowed state schedule := by
  induction schedule generalizing state with
  | nil =>
      constructor
      · intro _
        trivial
      · intro _
        exact sound state holds
  | cons action rest inductionHypothesis =>
      cases moved : machine.step state action with
      | none => simp only [Throughout, Obeys, moved, and_true, sound state holds]
      | some next =>
          simp only [Throughout, Obeys, moved, sound state holds, true_and]
          constructor
          · intro later
            have meets : allowed state action := by
              by_contra fails
              exact broken state action next holds fails moved (later.here)
            exact ⟨meets, (inductionHypothesis (kept state action next holds meets moved)).mp later⟩
          · rintro ⟨meets, later⟩
            exact (inductionHypothesis (kept state action next holds meets moved)).mpr later

/-- A measure which some allowed step brings down, as long as the goal is not
reached, leads to the goal along allowed steps. -/
theorem Reachable.leads {machine : Machine State Action} {property goal : State -> Prop}
    {allowed : State -> Action -> Prop} (measure : State -> Nat)
    (progress : forall current, machine.Reachable current -> property current -> ¬ goal current ->
      Exists fun action => Exists fun next => allowed current action ∧
        machine.step current action = some next ∧ property next ∧ measure next < measure current)
    {state : State} (reachable : machine.Reachable state) (holds : property state) :
    Exists fun schedule => Exists fun final => machine.Obeys allowed state schedule ∧
      machine.run state schedule = some final ∧ property final ∧ goal final := by
  generalize remaining : measure state = bound
  induction bound using Nat.strongRecOn generalizing state with
  | ind bound inductionHypothesis =>
      by_cases reached : goal state
      · exact ⟨[], state, trivial, rfl, holds, reached⟩
      · rcases progress state reachable holds reached with
          ⟨action, next, meets, moved, keeps, smaller⟩
        rw [remaining] at smaller
        rcases inductionHypothesis (measure next) smaller (reachable.step moved) keeps rfl with
          ⟨schedule, final, obeys, taken, ends⟩
        refine ⟨action :: schedule, final, ?_, ?_, ends⟩
        · exact (machine.obeys_cons_of_some schedule moved).mpr ⟨meets, obeys⟩
        · exact machine.run_cons_eq_some.mpr ⟨next, moved, taken⟩

/-! ## Observing a machine -/

/-- The machine together with a log of what its steps did. -/
def observe {Event : Type w} (emit : State -> Action -> State -> List Event) :
    Machine (State × List Event) Action where
  initial := fun observed => machine.initial observed.1 ∧ observed.2 = []
  step := fun observed action =>
    (machine.step observed.1 action).map fun next => (next, observed.2 ++ emit observed.1 action next)

section Observe

variable {Event : Type w} {emit : State -> Action -> State -> List Event}

theorem observe_step_eq_some {observed next : State × List Event} {action : Action}
    (moved : (machine.observe emit).step observed action = some next) :
    machine.step observed.1 action = some next.1 ∧
      next.2 = observed.2 ++ emit observed.1 action next.1 := by
  rcases Option.map_eq_some_iff.mp moved with ⟨state, taken, rfl⟩
  exact ⟨taken, rfl⟩

/-- Observing does not disturb. -/
theorem Reachable.of_observe {machine : Machine State Action} {observed : State × List Event}
    (reachable : (machine.observe emit).Reachable observed) : machine.Reachable observed.1 := by
  apply reachable.invariant
  · intro start initial
    exact ⟨start.1, [], initial.1, rfl⟩
  · intro current action next sofar moved
    exact sofar.step (machine.observe_step_eq_some moved).1

/-- The invariant rule for a property of the state and the log. -/
theorem Reachable.observed {machine : Machine State Action} {property : State -> List Event -> Prop}
    (established : forall start, machine.initial start -> property start [])
    (preserved : forall state log action next, machine.Reachable state -> property state log ->
      machine.step state action = some next -> property next (log ++ emit state action next))
    {observed : State × List Event} (reachable : (machine.observe emit).Reachable observed) :
    property observed.1 observed.2 := by
  apply reachable.induction
  · rintro ⟨start, empty⟩ ⟨initial, rfl⟩
    exact established start initial
  · intro current action next before holds moved
    rcases machine.observe_step_eq_some moved with ⟨taken, noted⟩
    rw [noted]
    exact preserved current.1 current.2 action next.1 before.of_observe holds taken

end Observe

end Machine

end Foundation
end ServiceRuntime
