import Mathlib.Algebra.Ring.Nat
import Mathlib.Data.List.Basic

namespace ServiceRuntime
namespace Foundation

/-!
# Bounds that are doubled until they hold

A bound starts at a base and is doubled, never more than needed, when a value
exceeds it.  It then is the least doubling of the base that covers the values
seen, in whatever order they came.
-/

/-- The base times a power of two. -/
def Doubling (base value : Nat) : Prop :=
  Exists fun times => value = base * 2 ^ times

/-- The least doubling of the base that is at least each of the values. -/
structure LeastDoubling (base : Nat) (values : List Nat) (bound : Nat) : Prop where
  doubling : Doubling base bound
  covers : forall value, value ∈ values -> value ≤ bound
  least : forall other, Doubling base other -> (forall value, value ∈ values -> value ≤ other) ->
    bound ≤ other

namespace Doubling

variable {base value other : Nat}

theorem zero (base : Nat) : Doubling base base := ⟨0, (Nat.mul_one base).symm⟩

theorem base_le (doubling : Doubling base value) : base ≤ value := by
  rcases doubling with ⟨times, rfl⟩
  exact Nat.le_mul_of_pos_right base (Nat.two_pow_pos times)

theorem twice (doubling : Doubling base value) : Doubling base (value * 2) := by
  rcases doubling with ⟨times, rfl⟩
  exact ⟨times + 1, by rw [Nat.pow_succ, Nat.mul_assoc]⟩

/-- There is no doubling between one and its double. -/
theorem twice_le (doubling : Doubling base value) (larger : Doubling base other)
    (above : value < other) : value * 2 ≤ other := by
  rcases doubling with ⟨times, rfl⟩
  rcases larger with ⟨more, rfl⟩
  have later : times < more := by
    apply (Nat.pow_lt_pow_iff_right (Nat.lt_succ_self 1)).mp
    exact Nat.lt_of_mul_lt_mul_left above
  calc
    base * 2 ^ times * 2 = base * 2 ^ (times + 1) := by rw [Nat.pow_succ, Nat.mul_assoc]
    _ ≤ base * 2 ^ more := Nat.mul_le_mul_left base (Nat.pow_le_pow_right (Nat.succ_pos 1) later)

end Doubling

namespace LeastDoubling

variable {base value bound next : Nat} {values : List Nat}

/-- A doubling is the least that covers itself. -/
theorem start (doubling : Doubling base value) : LeastDoubling base [value] value where
  doubling := doubling
  covers := by
    intro other member
    exact Nat.le_of_eq (List.mem_singleton.mp member)
  least := by
    intro other _ covers
    exact covers value List.mem_cons_self

/-- A value that is covered already asks for nothing. -/
theorem append_of_le (least : LeastDoubling base values bound) (within : next ≤ bound) :
    LeastDoubling base (values ++ [next]) bound where
  doubling := least.doubling
  covers := by
    intro other member
    rcases List.mem_append.mp member with earlier | last
    · exact least.covers other earlier
    · rw [List.mem_singleton.mp last]
      exact within
  least := by
    intro other doubling covers
    exact least.least other doubling fun value member => covers value (List.mem_append_left _ member)

/-- A bound that is exceeded may be doubled first. -/
theorem of_twice (least : LeastDoubling base [value * 2, next] bound) (doubling : Doubling base value)
    (above : value < next) : LeastDoubling base [value, next] bound where
  doubling := least.doubling
  covers := by
    have doubled := least.covers (value * 2) List.mem_cons_self
    have further := least.covers next (List.mem_cons_of_mem _ List.mem_cons_self)
    intro other member
    rcases List.mem_cons.mp member with rfl | second
    · omega
    · rw [List.mem_singleton.mp second]
      exact further
  least := by
    intro other isDoubling covers
    have further := covers next (List.mem_cons_of_mem _ List.mem_cons_self)
    apply least.least other isDoubling
    intro value' member
    rcases List.mem_cons.mp member with rfl | second
    · exact doubling.twice_le isDoubling (Nat.lt_of_lt_of_le above further)
    · rw [List.mem_singleton.mp second]
      exact further

/-- Covering one more value from the bound so far covers them all. -/
theorem append (least : LeastDoubling base values value)
    (further : LeastDoubling base [value, next] bound) :
    LeastDoubling base (values ++ [next]) bound where
  doubling := further.doubling
  covers := by
    intro other member
    rcases List.mem_append.mp member with earlier | last
    · exact Nat.le_trans (least.covers other earlier) (further.covers value List.mem_cons_self)
    · rw [List.mem_singleton.mp last]
      exact further.covers next (List.mem_cons_of_mem _ List.mem_cons_self)
  least := by
    intro other doubling covers
    have earlier := least.least other doubling fun value member =>
      covers value (List.mem_append_left _ member)
    have last := covers next (List.mem_append_right _ List.mem_cons_self)
    apply further.least other doubling
    intro value member
    rcases List.mem_cons.mp member with rfl | second
    · exact earlier
    · rw [List.mem_singleton.mp second]
      exact last

/-- The bound is where it started exactly if no value exceeds the base. -/
theorem eq_base_iff (least : LeastDoubling base values bound) :
    bound = base <-> forall value, value ∈ values -> value ≤ base := by
  constructor
  · intro same value member
    rw [← same]
    exact least.covers value member
  · intro within
    exact Nat.le_antisymm (least.least base (Doubling.zero base) within) least.doubling.base_le

/-- A bound that was doubled at all is less than twice some value. -/
theorem lt_twice (least : LeastDoubling base values bound) (doubled : bound ≠ base) :
    Exists fun value => value ∈ values ∧ bound < value * 2 := by
  by_contra none
  rcases least.doubling with ⟨times, whole⟩
  cases times with
  | zero => exact doubled (whole.trans (Nat.mul_one base))
  | succ times =>
      -- half of the bound would have covered them too
      have half : bound = base * 2 ^ times * 2 := by
        rw [whole, Nat.pow_succ, Nat.mul_assoc]
      have covers : forall value, value ∈ values -> value ≤ base * 2 ^ times := by
        intro value member
        by_contra above
        exact none ⟨value, member, by omega⟩
      have below := least.least _ ⟨times, rfl⟩ covers
      have nothing : base * 2 ^ times = 0 := by omega
      have empty : base = 0 :=
        (Nat.mul_eq_zero.mp nothing).resolve_right (Nat.ne_of_gt (Nat.two_pow_pos times))
      rw [half, nothing, empty] at doubled
      exact doubled rfl

end LeastDoubling

end Foundation
end ServiceRuntime
