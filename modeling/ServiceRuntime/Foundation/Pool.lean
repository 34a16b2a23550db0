import Mathlib.Algebra.BigOperators.Group.List.Basic
import Mathlib.Algebra.Ring.Nat

namespace ServiceRuntime
namespace Foundation

/-!
# Pools of threads

Arbitrarily many threads are a list; a thread's position is its name, a new
thread is appended, and a step replaces one entry.  Global quantities are sums
over the pool: how many threads are inside a region, how often a token is held.
The lemmas say how such a sum changes when one entry is replaced.
-/

variable {α : Type u}

/-- The sum of a quantity over all members of a pool. -/
def weight (quantity : α -> Nat) (pool : List α) : Nat :=
  (pool.map quantity).sum

@[simp] theorem weight_nil (quantity : α -> Nat) : weight quantity [] = 0 := rfl

@[simp] theorem weight_cons (quantity : α -> Nat) (member : α) (pool : List α) :
    weight quantity (member :: pool) = quantity member + weight quantity pool := by
  simp only [weight, List.map_cons, List.sum_cons]

@[simp] theorem weight_append (quantity : α -> Nat) (first second : List α) :
    weight quantity (first ++ second) = weight quantity first + weight quantity second := by
  simp only [weight, List.map_append, List.sum_append]

/-- Replacing one member exchanges its contribution. -/
theorem weight_set (quantity : α -> Nat) {pool : List α} {position : Nat} {old : α}
    (present : pool[position]? = some old) (new : α) :
    weight quantity (pool.set position new) + quantity old = weight quantity pool + quantity new := by
  induction pool generalizing position with
  | nil => cases present
  | cons head rest inductionHypothesis =>
      cases position with
      | zero =>
          cases present
          simp only [List.set_cons_zero, weight_cons]
          omega
      | succ position =>
          have below : rest[position]? = some old := present
          have later := inductionHypothesis below
          simp only [List.set_cons_succ, weight_cons]
          omega

/-- A member's contribution is part of the sum. -/
theorem quantity_le_weight (quantity : α -> Nat) {pool : List α} {position : Nat} {member : α}
    (present : pool[position]? = some member) : quantity member ≤ weight quantity pool := by
  induction pool generalizing position with
  | nil => cases present
  | cons head rest inductionHypothesis =>
      rw [weight_cons]
      cases position with
      | zero =>
          cases present
          exact Nat.le_add_right _ _
      | succ position =>
          have below : rest[position]? = some member := present
          exact Nat.le_trans (inductionHypothesis below) (Nat.le_add_left _ _)

theorem weight_eq_zero (quantity : α -> Nat) {pool : List α}
    (none : forall (position : Nat) member, pool[position]? = some member -> quantity member = 0) :
    weight quantity pool = 0 := by
  induction pool with
  | nil => rfl
  | cons head rest inductionHypothesis =>
      have first : quantity head = 0 := none 0 head rfl
      have others : weight quantity rest = 0 := by
        apply inductionHypothesis
        intro position member present
        exact none (position + 1) member present
      rw [weight_cons, first, others]

/-- Two quantities which no member has together more of than of a third. -/
theorem weight_add_le {first second whole : α -> Nat} (pool : List α)
    (bounded : forall member, first member + second member ≤ whole member) :
    weight first pool + weight second pool ≤ weight whole pool := by
  induction pool with
  | nil => exact Nat.le_refl 0
  | cons head rest inductionHypothesis =>
      have here := bounded head
      simp only [weight_cons]
      omega

/-- So are the contributions of two members. -/
theorem quantity_pair_le_weight (quantity : α -> Nat) {pool : List α} {position other : Nat}
    {member neighbour : α} (present : pool[position]? = some member)
    (beside : pool[other]? = some neighbour) (distinct : other ≠ position) :
    quantity member + quantity neighbour ≤ weight quantity pool := by
  induction pool generalizing position other with
  | nil => cases present
  | cons head rest inductionHypothesis =>
      rw [weight_cons]
      cases position with
      | zero =>
          cases other with
          | zero => exact False.elim (distinct rfl)
          | succ other =>
              have below : rest[other]? = some neighbour := beside
              have part := quantity_le_weight quantity below
              cases present
              omega
      | succ position =>
          have present : rest[position]? = some member := present
          cases other with
          | zero =>
              have part := quantity_le_weight quantity present
              cases beside
              omega
          | succ other =>
              have beside : rest[other]? = some neighbour := beside
              have distinct : other ≠ position := fun same => distinct (congrArg Nat.succ same)
              have part := inductionHypothesis present beside distinct
              omega

/-- What holds of every other member and of the replacement holds of every
member of the new pool. -/
theorem forall_set_others {property : Nat -> α -> Prop} {pool : List α} {position : Nat} {new : α}
    (elsewhere : forall index member, index ≠ position -> pool[index]? = some member ->
      property index member)
    (replaced : position < pool.length -> property position new) :
    forall index member, (pool.set position new)[index]? = some member -> property index member := by
  intro index member present
  by_cases same : index = position
  · subst same
    rcases List.getElem?_eq_some_iff.mp present with ⟨below, equal⟩
    rw [List.length_set] at below
    rw [List.getElem_set_self] at equal
    exact equal ▸ replaced below
  · rw [List.getElem?_set_ne (Ne.symm same)] at present
    exact elsewhere index member same present

theorem forall_set {property : Nat -> α -> Prop} {pool : List α} {position : Nat} {new : α}
    (everywhere : forall index member, pool[index]? = some member -> property index member)
    (replaced : position < pool.length -> property position new) :
    forall index member, (pool.set position new)[index]? = some member -> property index member :=
  forall_set_others (fun index member _ present => everywhere index member present) replaced

/-- The same for a pool that gains one member at its end. -/
theorem forall_append_singleton {property : Nat -> α -> Prop} {pool : List α} {new : α}
    (everywhere : forall index member, pool[index]? = some member -> property index member)
    (added : property pool.length new) :
    forall index member, (pool ++ [new])[index]? = some member -> property index member := by
  intro index member present
  by_cases below : index < pool.length
  · rw [List.getElem?_append_left below] at present
    exact everywhere index member present
  · rw [List.getElem?_append_right (Nat.not_lt.mp below)] at present
    have position : index - pool.length = 0 := by
      rcases List.getElem?_eq_some_iff.mp present with ⟨bound, _equal⟩
      rw [List.length_singleton] at bound
      omega
    have equal : index = pool.length := by omega
    rw [position, List.getElem?_cons_zero] at present
    cases present
    exact equal ▸ added

/-- Replacing a member by one with the same view changes no view. -/
theorem map_set_same {β : Type v} (view : α -> β) {pool : List α} {position : Nat} {old : α}
    (present : pool[position]? = some old) (new : α) (same : view new = view old) :
    (pool.set position new).map view = pool.map view := by
  rw [List.map_set, same]
  apply List.ext_getElem?
  intro index
  by_cases here : position = index
  · subst here
    have inside := (List.getElem?_eq_some_iff.mp present).1
    rw [List.getElem?_set_self (by rwa [List.length_map]), List.getElem?_map, present]
    rfl
  · rw [List.getElem?_set_ne here]

/-! ## Changing one member in place -/

theorem modify_eq_set {pool : List α} {position : Nat} {old : α}
    (present : pool[position]? = some old) (change : α -> α) :
    pool.modify position change = pool.set position (change old) := by
  rw [List.modify_eq_set_getElem?, present]
  rfl

theorem weight_modify (quantity : α -> Nat) {pool : List α} {position : Nat} {old : α}
    (present : pool[position]? = some old) (change : α -> α) :
    weight quantity (pool.modify position change) + quantity old =
      weight quantity pool + quantity (change old) := by
  rw [modify_eq_set present]
  exact weight_set quantity present (change old)

theorem getElem?_modify_of_some {pool : List α} {index : Nat} {member : α}
    (present : pool[index]? = some member) (position : Nat) (change : α -> α) :
    (pool.modify position change)[index]? =
      some (if position = index then change member else member) := by
  rw [List.getElem?_modify, present]
  rfl

/-- A change that leaves a view of the members alone. -/
theorem getElem?_modify_view {β : Type v} {view : α -> β} {change : α -> α}
    (same : forall member, view (change member) = view member) {pool : List α} {index : Nat}
    {member : α} (present : pool[index]? = some member) (position : Nat) :
    Exists fun after => (pool.modify position change)[index]? = some after ∧
      view after = view member := by
  refine ⟨_, getElem?_modify_of_some present position change, ?_⟩
  split
  · exact same member
  · rfl

theorem getElem?_of_modify {pool : List α} {index position : Nat} {change : α -> α} {after : α}
    (present : (pool.modify position change)[index]? = some after) :
    Exists fun member => pool[index]? = some member ∧
      after = if position = index then change member else member := by
  rw [List.getElem?_modify] at present
  rcases Option.map_eq_some_iff.mp present with ⟨member, found, equal⟩
  exact ⟨member, found, equal.symm⟩

/-! ## Two parallel pools -/

theorem zip_set_left {β : Type v} {first : List α} {second : List β} {position : Nat} {beside : β}
    (present : second[position]? = some beside) (new : α) :
    (first.set position new).zip second = (first.zip second).set position (new, beside) := by
  induction first generalizing second position with
  | nil => rfl
  | cons head rest inductionHypothesis =>
      cases second with
      | nil => cases present
      | cons other others =>
          cases position with
          | zero =>
              cases present
              rfl
          | succ position =>
              have below : others[position]? = some beside := present
              simp only [List.set_cons_succ, List.zip_cons_cons, inductionHypothesis below]

theorem zip_modify_right {β : Type v} (first : List α) (second : List β) (position : Nat)
    (change : β -> β) :
    first.zip (second.modify position change) =
      (first.zip second).modify position fun entry => (entry.1, change entry.2) := by
  induction first generalizing second position with
  | nil => simp only [List.zip_nil_left, List.modify_nil]
  | cons head rest inductionHypothesis =>
      cases second with
      | nil => simp only [List.modify_nil, List.zip_nil_right]
      | cons other others =>
          cases position with
          | zero => simp only [List.modify_zero_cons, List.zip_cons_cons]
          | succ position =>
              simp only [List.modify_succ_cons, List.zip_cons_cons, inductionHypothesis]

theorem length_of_getElem? {pool : List α} {position : Nat} {member : α}
    (present : pool[position]? = some member) : position < pool.length :=
  (List.getElem?_eq_some_iff.mp present).1

end Foundation
end ServiceRuntime
