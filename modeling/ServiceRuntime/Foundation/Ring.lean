import Mathlib.Data.List.Basic
import Mathlib.Data.List.Range
import Mathlib.Data.Nat.ModEq

namespace ServiceRuntime
namespace Foundation

/-!
# Circular reads of a list of cells

`ringRead cells head count` is what a consumer sees who starts at cell `head`
and walks `count` cells forward, wrapping around at the end of the buffer.
The capacity is the number of cells and need not be a power of two.  The
lemmas are the three moves of a circular queue: write behind the last cell,
drop the first one, and copy the whole window into a larger buffer.
-/

variable {α : Type u}

/-- The window of `count` cells starting at `head`, in walking order. -/
def ringRead (cells : List α) (head count : Nat) : List α :=
  (List.range count).filterMap fun offset => cells[(head + offset) % cells.length]?

/-- Copy the window into `target`, cell by cell from its front. -/
def ringCopy (cells : List α) (head : Nat) (target : List α) : Nat -> List α
  | 0 => target
  | count + 1 =>
      match cells[(head + count) % cells.length]? with
      | some cell => (ringCopy cells head target count).set count cell
      | none => ringCopy cells head target count

@[simp] theorem ringRead_zero (cells : List α) (head : Nat) : ringRead cells head 0 = [] := rfl

theorem ringRead_succ (cells : List α) (head count : Nat) :
    ringRead cells head (count + 1) =
      ringRead cells head count ++ (cells[(head + count) % cells.length]?).toList := by
  simp only [ringRead, List.range_succ, List.filterMap_append, List.filterMap_cons,
    List.filterMap_nil]
  cases cells[(head + count) % cells.length]? <;> rfl

private theorem cell_exists {cells : List α} (nonempty : 0 < cells.length) (position : Nat) :
    Exists fun cell => cells[position % cells.length]? = some cell :=
  ⟨_, List.getElem?_eq_getElem (Nat.mod_lt position nonempty)⟩

theorem length_ringRead {cells : List α} (nonempty : 0 < cells.length) (head count : Nat) :
    (ringRead cells head count).length = count := by
  induction count with
  | zero => rfl
  | succ count inductionHypothesis =>
      rcases cell_exists nonempty (head + count) with ⟨cell, present⟩
      rw [ringRead_succ, present, List.length_append, inductionHypothesis]
      rfl

/-- Two windows agree when they agree cell by cell. -/
theorem ringRead_congr {first second : List α} {firstHead secondHead count : Nat}
    (same : forall offset, offset < count ->
      first[(firstHead + offset) % first.length]? = second[(secondHead + offset) % second.length]?) :
    ringRead first firstHead count = ringRead second secondHead count := by
  induction count with
  | zero => rfl
  | succ count inductionHypothesis =>
      rw [ringRead_succ, ringRead_succ, same count (Nat.lt_succ_self count),
        inductionHypothesis fun offset below => same offset (Nat.lt_succ_of_lt below)]

/-- Distinct offsets below the capacity address distinct cells. -/
theorem ring_offset_ne {head first second capacity : Nat}
    (ordered : first < second) (bounded : second < capacity) :
    (head + first) % capacity ≠ (head + second) % capacity := by
  intro equal
  have cancelled : first ≡ second [MOD capacity] := Nat.ModEq.add_left_cancel' head equal
  exact Nat.ne_of_lt ordered
    (Nat.ModEq.eq_of_lt_of_lt cancelled (Nat.lt_trans ordered bounded) bounded)

/-- Writing behind the last cell appends to the window. -/
theorem ringRead_set_tail {cells : List α} {head count : Nat} (room : count < cells.length)
    (value : α) :
    ringRead (cells.set ((head + count) % cells.length) value) head (count + 1) =
      ringRead cells head count ++ [value] := by
  have nonempty : 0 < cells.length := Nat.lt_of_le_of_lt (Nat.zero_le count) room
  have kept : ringRead (cells.set ((head + count) % cells.length) value) head count =
      ringRead cells head count := by
    apply ringRead_congr
    intro offset below
    rw [List.length_set]
    exact List.getElem?_set_ne (ring_offset_ne below room).symm
  rw [ringRead_succ, kept, List.length_set,
    List.getElem?_set_self (Nat.mod_lt _ nonempty)]
  rfl

/-- Dropping the first cell advances the head by one, modulo the capacity. -/
theorem ringRead_cons {cells : List α} {head : Nat} (bounded : head < cells.length) (count : Nat) :
    ringRead cells head (count + 1) =
      cells[head] :: ringRead cells ((head + 1) % cells.length) count := by
  induction count with
  | zero =>
      rw [ringRead_succ, ringRead_zero, Nat.add_zero, Nat.mod_eq_of_lt bounded,
        List.getElem?_eq_getElem bounded]
      rfl
  | succ count inductionHypothesis =>
      rw [ringRead_succ, inductionHypothesis, ringRead_succ, Nat.mod_add_mod,
        List.cons_append, show head + (count + 1) = head + 1 + count by omega]

@[simp] theorem length_ringCopy (cells : List α) (head : Nat) (target : List α) (count : Nat) :
    (ringCopy cells head target count).length = target.length := by
  induction count with
  | zero => rfl
  | succ count inductionHypothesis =>
      rw [ringCopy]
      cases cells[(head + count) % cells.length]? with
      | none => exact inductionHypothesis
      | some cell => simpa only [List.length_set] using inductionHypothesis

/-- Copying fills exactly the first `count` cells of the target. -/
theorem ringCopy_getElem? {cells : List α} (nonempty : 0 < cells.length) (head : Nat)
    (target : List α) {count : Nat} (room : count ≤ target.length) {offset : Nat}
    (below : offset < count) :
    (ringCopy cells head target count)[offset]? = cells[(head + offset) % cells.length]? := by
  induction count with
  | zero => exact False.elim (Nat.not_lt_zero offset below)
  | succ count inductionHypothesis =>
      rcases cell_exists nonempty (head + count) with ⟨cell, present⟩
      simp only [ringCopy, present]
      rcases Nat.lt_succ_iff_lt_or_eq.mp below with earlier | last
      · rw [List.getElem?_set_ne (Nat.ne_of_gt earlier)]
        exact inductionHypothesis (Nat.le_of_succ_le room) earlier
      · subst last
        rw [present, List.getElem?_set_self]
        rw [length_ringCopy]
        exact room

/-- Moving the window to the front of a larger buffer preserves it. -/
theorem ringRead_ringCopy {cells : List α} (nonempty : 0 < cells.length) (head : Nat)
    {target : List α} {count : Nat} (room : count ≤ target.length) :
    ringRead (ringCopy cells head target count) 0 count = ringRead cells head count := by
  apply ringRead_congr
  intro offset below
  rw [length_ringCopy, Nat.zero_add,
    Nat.mod_eq_of_lt (Nat.lt_of_lt_of_le below room)]
  exact ringCopy_getElem? nonempty head target room below

end Foundation
end ServiceRuntime
