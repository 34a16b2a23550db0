import ServiceRuntime.Foundation.Transition

namespace ServiceRuntime
namespace Foundation

/-!
# One machine simulates another

A step of the lower machine is matched by a schedule of the upper one, which
may be empty: what the lower machine does in several steps the upper one does
at once, or not at all.  Properties of the upper machine's reachable states
are thereby read off below.
-/

universe u v w x

variable {State : Type u} {Action : Type v} {Model : Type w} {Move : Type x}

/-- The relation holds initially, and the upper machine keeps up with every
step of the lower one. -/
structure Simulation (lower : Machine State Action) (upper : Machine Model Move)
    (related : State -> Model -> Prop) : Prop where
  starts : forall start, lower.initial start ->
    Exists fun model => upper.initial model ∧ related start model
  steps : forall state action next model, lower.Reachable state -> upper.Reachable model ->
    related state model -> lower.step state action = some next ->
      Exists fun moves => Exists fun after =>
        upper.run model moves = some after ∧ related next after

namespace Simulation

variable {lower : Machine State Action} {upper : Machine Model Move}
  {related : State -> Model -> Prop}

/-- Every reachable state below stands for a reachable state above. -/
theorem reachable (simulation : Simulation lower upper related) {state : State}
    (reached : lower.Reachable state) :
    Exists fun model => upper.Reachable model ∧ related state model := by
  apply reached.induction
  · intro start initial
    rcases simulation.starts start initial with ⟨model, begins, same⟩
    exact ⟨model, ⟨model, [], begins, rfl⟩, same⟩
  · rintro current action next before ⟨model, sofar, same⟩ moved
    rcases simulation.steps current action next model before sofar same moved with
      ⟨moves, after, taken, later⟩
    rcases sofar with ⟨start, schedule, begins, ran⟩
    refine ⟨after, ⟨start, schedule ++ moves, begins, ?_⟩, later⟩
    rw [upper.run_append_eq_some]
    exact ⟨model, ran, taken⟩

/-- A step that is matched by nothing. -/
theorem stutter {model : Model} {next : State} (same : related next model) :
    Exists fun moves => Exists fun after =>
      upper.run model moves = some after ∧ related next after :=
  ⟨[], model, rfl, same⟩

/-- A step that is matched by one step. -/
theorem single (move : Move) {model after : Model} {next : State}
    (taken : upper.step model move = some after) (same : related next after) :
    Exists fun moves => Exists fun after =>
      upper.run model moves = some after ∧ related next after := by
  refine ⟨[move], after, ?_, same⟩
  rw [upper.run_cons_eq_some]
  exact ⟨after, taken, rfl⟩

end Simulation

end Foundation
end ServiceRuntime
