import Mathlib.Data.List.Basic
import Mathlib.Data.Nat.ModEq

namespace ServiceRuntime
namespace Foundation

/-!
# Walking around a cycle of numbers

The numbers `1 .. size` in a circle.  `turn` is one step of a counter that
skips zero, `place` the number reached from a start after so many steps.  A
walk comes back to a number only after it has passed all the others.
-/

/-- The next number of the circle. -/
def turn (size number : Nat) : Nat :=
  if number = size then 1 else number + 1

/-- The number reached from `start` after `steps` steps. -/
def place (size start steps : Nat) : Nat :=
  (start - 1 + steps) % size + 1

variable {size start : Nat}

theorem place_pos (size start steps : Nat) : 1 ≤ place size start steps :=
  Nat.succ_pos _

theorem place_le (positive : 0 < size) (steps : Nat) : place size start steps ≤ size :=
  Nat.succ_le_of_lt (Nat.mod_lt _ positive)

theorem place_zero (first : 1 ≤ start) (last : start ≤ size) : place size start 0 = start := by
  rw [place, Nat.add_zero, Nat.mod_eq_of_lt (by omega), Nat.sub_add_cancel first]

theorem turn_place (positive : 0 < size) (steps : Nat) :
    turn size (place size start steps) = place size start (steps + 1) := by
  have bound := Nat.mod_lt (start - 1 + steps) positive
  have next : place size start (steps + 1) =
      ((start - 1 + steps) % size + 1 % size) % size + 1 := by
    rw [place, ← Nat.add_assoc, Nat.add_mod (start - 1 + steps) 1]
  rw [turn, next]
  by_cases wraps : place size start steps = size
  · rw [if_pos wraps]
    rw [place] at wraps
    by_cases single : size = 1
    · subst single
      simp only [Nat.mod_one]
    · rw [Nat.mod_eq_of_lt (by omega : 1 < size), wraps, Nat.mod_self]
  · rw [if_neg wraps]
    rw [place] at wraps ⊢
    have fits : (start - 1 + steps) % size + 1 < size := by omega
    rw [Nat.mod_eq_of_lt (by omega : 1 < size), Nat.mod_eq_of_lt fits]

/-- A full turn changes nothing. -/
theorem place_add_size (size start steps : Nat) :
    place size start (steps + size) = place size start steps := by
  simp only [place, ← Nat.add_assoc, Nat.add_mod_right]

theorem place_eq_iff (size start first second : Nat) :
    place size start first = place size start second ↔ first ≡ second [MOD size] := by
  unfold place
  constructor
  · intro same
    exact Nat.ModEq.add_left_cancel' (start - 1) (Nat.succ.inj same)
  · intro same
    exact congrArg Nat.succ (Nat.ModEq.add_left (start - 1) same)

/-- Every number of the circle is met within one turn. -/
theorem exists_place {number : Nat} (first : 1 ≤ number) (last : number ≤ size)
    (steps : Nat) : Exists fun later => steps ≤ later ∧ later < steps + size ∧
      place size start later = number := by
  have positive : 0 < size := Nat.lt_of_lt_of_le first last
  -- the distance from where the walk stands to the number
  let distance := (number - 1 + (size - (start - 1 + steps) % size)) % size
  refine ⟨steps + distance, Nat.le_add_right _ _,
    Nat.add_lt_add_left (Nat.mod_lt _ positive) _, ?_⟩
  have bound := Nat.mod_lt (start - 1 + steps) positive
  have whole : (start - 1 + steps) % size + (size - (start - 1 + steps) % size) = size :=
    Nat.add_sub_cancel' (Nat.le_of_lt bound)
  rw [place, ← Nat.add_assoc]
  have sum : (start - 1 + steps + distance) % size = number - 1 := by
    rw [Nat.add_mod_mod, ← Nat.mod_add_mod, Nat.add_left_comm, whole, Nat.add_mod_right,
      Nat.mod_eq_of_lt (by omega)]
  rw [sum, Nat.sub_add_cancel first]

/-- Between two visits to the same number the walk passes all the others. -/
theorem passes_all {first second number : Nat} (earlier : first < second)
    (same : place size start first = place size start second) (least : 1 ≤ number)
    (most : number ≤ size) (other : number ≠ place size start first) :
    Exists fun steps => first < steps ∧ steps < second ∧ place size start steps = number := by
  have turnaround : first + size ≤ second := by
    have divides := (Nat.modEq_iff_dvd' (Nat.le_of_lt earlier)).mp
      ((place_eq_iff size start first second).mp same)
    have := Nat.le_of_dvd (Nat.sub_pos_of_lt earlier) divides
    omega
  obtain ⟨steps, lower, upper, met⟩ := @exists_place size start number least most first
  refine ⟨steps, ?_, Nat.lt_of_lt_of_le upper turnaround, met⟩
  rcases Nat.lt_or_eq_of_le lower with later | rfl
  · exact later
  · exact False.elim (other met.symm)

end Foundation
end ServiceRuntime
