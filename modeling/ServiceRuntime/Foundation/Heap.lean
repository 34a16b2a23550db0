import Mathlib.Data.List.Nodup
import Mathlib.Logic.Function.Basic
import Mathlib.Order.Lattice

namespace ServiceRuntime
namespace Foundation

/-!
# Binary heaps whose entries know their place

A heap is an array of references, numbered from one, in which no entry comes
before its parent.  Every reference remembers its place, so that an entry can
be taken out from the middle.  The order is a test on references; what the
references stand for is left to the user, who promises that the test compares
keys from a linear order.
-/

/-- The array, and the place each reference remembers. -/
structure Heap (Ref : Type u) where
  slots : List Ref
  position : Ref -> Option Nat

namespace Heap

variable {Ref : Type u}

def empty : Heap Ref where
  slots := []
  position := fun _ => none

def size (heap : Heap Ref) : Nat :=
  heap.slots.length

/-- The entry at an index; there is none at zero. -/
def entry (heap : Heap Ref) (index : Nat) : Option Ref :=
  if index = 0 then none else heap.slots[index - 1]?

/-- The entry at one index comes before the entry at another. -/
def comes (before : Ref -> Ref -> Bool) (heap : Heap Ref) (first second : Nat) : Bool :=
  match heap.entry first, heap.entry second with
  | some one, some other => before one other
  | _, _ => false

section Operations

variable [DecidableEq Ref] (before : Ref -> Ref -> Bool)

def swap (heap : Heap Ref) (left right : Nat) : Heap Ref :=
  match heap.entry left, heap.entry right with
  | some one, some other =>
      { slots := (heap.slots.set (left - 1) other).set (right - 1) one
        position := Function.update (Function.update heap.position other (some left)) one (some right) }
  | _, _ => heap

theorem swap_size (heap : Heap Ref) (left right : Nat) : (heap.swap left right).size = heap.size := by
  unfold swap size
  split
  · simp only [List.length_set]
  · rfl

/-- Move an entry towards the root while it comes before its parent. -/
def siftUp (heap : Heap Ref) (index : Nat) : Heap Ref :=
  if 1 < index then
    if comes before heap index (index / 2) then siftUp (heap.swap index (index / 2)) (index / 2)
    else heap
  else heap
termination_by index
decreasing_by omega

/-- The candidate if it comes before the best so far. -/
def pick (heap : Heap Ref) (best candidate : Nat) : Nat :=
  if candidate ≤ heap.size ∧ comes before heap candidate best then candidate else best

/-- The first in order of an entry and its two children. -/
def smallest (heap : Heap Ref) (index : Nat) : Nat :=
  pick before heap (pick before heap index (index * 2)) (index * 2 + 1)

omit [DecidableEq Ref] in
theorem pick_cases (heap : Heap Ref) (best candidate : Nat) :
    (pick before heap best candidate = candidate ∧ candidate ≤ heap.size ∧
      comes before heap candidate best = true) ∨
    (pick before heap best candidate = best ∧
      (candidate ≤ heap.size -> comes before heap candidate best = false)) := by
  unfold pick
  split
  · rename_i better
    exact Or.inl ⟨rfl, better⟩
  · rename_i worse
    refine Or.inr ⟨rfl, ?_⟩
    intro inside
    exact Bool.eq_false_iff.mpr fun earlier => worse ⟨inside, earlier⟩

omit [DecidableEq Ref] in
theorem smallest_cases (heap : Heap Ref) (index : Nat) :
    smallest before heap index = index ∨
      (smallest before heap index = index * 2 ∨ smallest before heap index = index * 2 + 1) ∧
        smallest before heap index ≤ heap.size := by
  unfold smallest
  have left := pick_cases before heap index (index * 2)
  have right := pick_cases before heap (pick before heap index (index * 2)) (index * 2 + 1)
  omega

/-- Move an entry away from the root while one of its children comes before it. -/
def siftDown (heap : Heap Ref) (index : Nat) : Heap Ref :=
  if smallest before heap index = index then heap
  else siftDown (heap.swap index (smallest before heap index)) (smallest before heap index)
termination_by heap.size - index
decreasing_by
  have cases := smallest_cases before heap index
  rw [swap_size]
  omega

/-- The new entry at the end. -/
def append (heap : Heap Ref) (ref : Ref) : Heap Ref where
  slots := heap.slots ++ [ref]
  position := Function.update heap.position ref (some (heap.size + 1))

def push (heap : Heap Ref) (ref : Ref) : Heap Ref :=
  siftUp before (heap.append ref) (heap.size + 1)

/-- Put the last entry in the place of the one at the index. -/
def refill (heap : Heap Ref) (index : Nat) : Heap Ref :=
  match heap.entry index, heap.entry heap.size with
  | some removed, some last =>
      { slots := (heap.slots.set (index - 1) last).dropLast
        position :=
          Function.update (Function.update heap.position removed none) last (some index) }
  | _, _ => heap

/-- Take the last entry away. -/
def dropLast (heap : Heap Ref) : Heap Ref :=
  match heap.entry heap.size with
  | some last =>
      { slots := heap.slots.dropLast, position := Function.update heap.position last none }
  | none => heap

/-- Take the root out. -/
def pop (heap : Heap Ref) : Option (Ref × Heap Ref) :=
  (heap.entry 1).map fun root =>
    (root, if heap.size = 1 then heap.dropLast else siftDown before (heap.refill 1) 1)

/-- Take an entry out by the place it remembers; `none` if it is not there. -/
def remove (heap : Heap Ref) (ref : Ref) : Option (Heap Ref) :=
  match heap.position ref with
  | none => none
  | some index =>
      if heap.entry index = some ref then
        if index = heap.size then some heap.dropLast
        else
          let filled := heap.refill index
          if 1 < index ∧ comes before filled index (index / 2) then
            some (siftUp before filled index)
          else some (siftDown before filled index)
      else none

end Operations

/-! ## Entries -/

theorem entry_eq_some {heap : Heap Ref} {index : Nat} {ref : Ref} :
    heap.entry index = some ref <->
      1 ≤ index ∧ index ≤ heap.size ∧ heap.slots[index - 1]? = some ref := by
  unfold entry size
  split
  · simp only [reduceCtorEq, false_iff]
    omega
  · constructor
    · intro present
      have inside := (List.getElem?_eq_some_iff.mp present).1
      exact ⟨by omega, by omega, present⟩
    · exact fun present => present.2.2

theorem exists_entry {heap : Heap Ref} {index : Nat} (positive : 1 ≤ index)
    (inside : index ≤ heap.size) : Exists fun ref => heap.entry index = some ref := by
  unfold size at inside
  have bound : index - 1 < heap.slots.length := by omega
  exact ⟨heap.slots[index - 1], entry_eq_some.mpr
    ⟨positive, inside, List.getElem?_eq_some_iff.mpr ⟨bound, rfl⟩⟩⟩

theorem mem_slots_iff {heap : Heap Ref} {ref : Ref} :
    ref ∈ heap.slots <-> Exists fun index => heap.entry index = some ref := by
  constructor
  · intro member
    rcases List.getElem?_of_mem member with ⟨offset, located⟩
    have inside := (List.getElem?_eq_some_iff.mp located).1
    exact ⟨offset + 1, entry_eq_some.mpr ⟨by omega, inside, located⟩⟩
  · rintro ⟨index, present⟩
    exact List.mem_of_getElem? (entry_eq_some.mp present).2.2

/-- Every entry remembers its place, and nobody else remembers one. -/
def Indexed (heap : Heap Ref) : Prop :=
  forall ref index, heap.position ref = some index <-> heap.entry index = some ref

theorem Indexed.inj {heap : Heap Ref} (indexed : Indexed heap) {ref : Ref} {first second : Nat}
    (one : heap.entry first = some ref) (other : heap.entry second = some ref) : first = second :=
  Option.some.inj (((indexed ref first).mpr one).symm.trans ((indexed ref second).mpr other))

theorem Indexed.nodup {heap : Heap Ref} (indexed : Indexed heap) : heap.slots.Nodup := by
  rw [List.nodup_iff_getElem?_ne_getElem?]
  intro first second less inside same
  have bound : first < heap.slots.length := by omega
  have one : heap.entry (first + 1) = some heap.slots[first] :=
    entry_eq_some.mpr ⟨by omega, bound, List.getElem?_eq_some_iff.mpr ⟨bound, rfl⟩⟩
  have other : heap.entry (second + 1) = some heap.slots[first] :=
    entry_eq_some.mpr ⟨by omega, inside,
      same.symm.trans (List.getElem?_eq_some_iff.mpr ⟨bound, rfl⟩)⟩
  have equal := indexed.inj one other
  omega

section Swap

variable [DecidableEq Ref] {heap : Heap Ref} {left right : Nat}

theorem swap_eq {one other : Ref} (first : heap.entry left = some one)
    (second : heap.entry right = some other) :
    heap.swap left right =
      { slots := (heap.slots.set (left - 1) other).set (right - 1) one
        position :=
          Function.update (Function.update heap.position other (some left)) one (some right) } := by
  simp only [swap, first, second]

theorem swap_entry {one other : Ref} (first : heap.entry left = some one)
    (second : heap.entry right = some other) (index : Nat) :
    (heap.swap left right).entry index =
      if index = right then some one else if index = left then some other else heap.entry index := by
  have leftInside := entry_eq_some.mp first
  have rightInside := entry_eq_some.mp second
  unfold size at leftInside rightInside
  rw [swap_eq first second]
  unfold entry
  dsimp only
  by_cases zero : index = 0
  · rw [if_pos zero, if_neg (by omega), if_neg (by omega), if_pos zero]
  · rw [if_neg zero, if_neg zero]
    by_cases atRight : index = right
    · subst atRight
      rw [if_pos rfl, List.getElem?_set_self (by rw [List.length_set]; omega)]
    · rw [if_neg atRight, List.getElem?_set_ne (by omega)]
      by_cases atLeft : index = left
      · subst atLeft
        rw [if_pos rfl, List.getElem?_set_self (by omega)]
      · rw [if_neg atLeft, List.getElem?_set_ne (by omega)]

theorem swap_perm (heap : Heap Ref) (left right : Nat) :
    (heap.swap left right).slots.Perm heap.slots := by
  unfold swap
  split
  · rename_i one other first second
    rcases entry_eq_some.mp first with ⟨-, -, firstAt⟩
    rcases entry_eq_some.mp second with ⟨-, -, secondAt⟩
    rcases List.getElem?_eq_some_iff.mp firstAt with ⟨leftInside, rfl⟩
    rcases List.getElem?_eq_some_iff.mp secondAt with ⟨rightInside, rfl⟩
    exact List.set_set_perm leftInside rightInside
  · exact List.Perm.refl _

theorem Indexed.swap (indexed : Indexed heap) (left right : Nat) :
    Indexed (heap.swap left right) := by
  cases first : heap.entry left with
  | none =>
      have same : heap.swap left right = heap := by
        simp only [Heap.swap, first]
      rwa [same]
  | some one =>
      cases second : heap.entry right with
      | none =>
          have same : heap.swap left right = heap := by
            simp only [Heap.swap, first, second]
          rwa [same]
      | some other =>
          intro ref index
          have atLeft := (indexed one left).mpr first
          have atRight := (indexed other right).mpr second
          have place := indexed ref index
          rw [swap_entry first second, swap_eq first second]
          simp only [Function.update_apply]
          grind

end Swap

/-! ## Order -/

section Order

variable {K : Type v} [LinearOrder K] (key : Ref -> K)

/-- The entry at one index does not come after the entry at another. -/
def Below (heap : Heap Ref) (first second : Nat) : Prop :=
  forall one other, heap.entry first = some one -> heap.entry second = some other ->
    key one ≤ key other

/-- No entry comes before its parent. -/
def Ordered (heap : Heap Ref) : Prop :=
  forall index, 2 ≤ index -> heap.Below key (index / 2) index

/-- Only the entry at the hole may come before its parent. -/
structure UpOrder (heap : Heap Ref) (hole : Nat) : Prop where
  others : forall index, 2 ≤ index -> index ≠ hole -> heap.Below key (index / 2) index
  around : forall child, 2 ≤ hole -> child / 2 = hole -> heap.Below key (hole / 2) child

/-- Only the children of the hole may come before it. -/
structure DownOrder (heap : Heap Ref) (hole : Nat) : Prop where
  others : forall index, 2 ≤ index -> index / 2 ≠ hole -> heap.Below key (index / 2) index
  around : forall child, 2 ≤ hole -> child / 2 = hole -> heap.Below key (hole / 2) child

variable {key} {heap : Heap Ref}

theorem Below.refl (heap : Heap Ref) (index : Nat) : heap.Below key index index := by
  intro one other first second
  rw [Option.some.inj (first.symm.trans second)]

theorem Below.trans {first second third : Nat} (lower : heap.Below key first second)
    (upper : heap.Below key second third) {middle : Ref} (present : heap.entry second = some middle) :
    heap.Below key first third := by
  intro one other atFirst atThird
  exact le_trans (lower one middle atFirst present) (upper middle other present atThird)

/-- The root does not come after any entry. -/
theorem Ordered.root_below (ordered : Ordered key heap) (index : Nat) (positive : 1 ≤ index) :
    heap.Below key 1 index := by
  induction index using Nat.strongRecOn with
  | ind index inductionHypothesis =>
      by_cases root : index = 1
      · rw [root]
        exact Below.refl heap 1
      · intro one other atRoot atIndex
        have inside := (entry_eq_some.mp atIndex).2.1
        rcases exists_entry (show 1 ≤ index / 2 by omega) (show index / 2 ≤ heap.size by omega) with
          ⟨parent, present⟩
        exact Below.trans (inductionHypothesis (index / 2) (by omega) (by omega))
          (ordered index (by omega)) present one other atRoot atIndex

section Comparison

variable {before : Ref -> Ref -> Bool}
  (compares : forall one other, before one other = true <-> key one < key other)

include compares

theorem comes_eq_true {first second : Nat} :
    comes before heap first second = true <->
      Exists fun one => Exists fun other => heap.entry first = some one ∧
        heap.entry second = some other ∧ key one < key other := by
  unfold comes
  cases heap.entry first with
  | none => simp only [Bool.false_eq_true, reduceCtorEq, false_and, exists_false]
  | some one =>
      cases heap.entry second with
      | none => simp only [Bool.false_eq_true, reduceCtorEq, false_and, and_false, exists_false]
      | some other =>
          rw [compares]
          constructor
          · exact fun less => ⟨one, other, rfl, rfl, less⟩
          · rintro ⟨_, _, ⟨⟩, ⟨⟩, less⟩
            exact less

theorem below_of_not_comes {first second : Nat}
    (later : comes before heap first second = false) : heap.Below key second first := by
  intro one other atSecond atFirst
  by_contra less
  have earlier := (comes_eq_true compares).mpr ⟨other, one, atFirst, atSecond, lt_of_not_ge less⟩
  rw [later] at earlier
  cases earlier

theorem pick_below (heap : Heap Ref) (best candidate : Nat) :
    heap.Below key (pick before heap best candidate) best ∧
      heap.Below key (pick before heap best candidate) candidate := by
  rcases pick_cases before heap best candidate with ⟨chosen, inside, earlier⟩ | ⟨kept, later⟩
  · rw [chosen]
    refine ⟨?_, Below.refl heap candidate⟩
    rcases (comes_eq_true compares).mp earlier with ⟨one, other, first, second, less⟩
    intro left right atLeft atRight
    rw [Option.some.inj (atLeft.symm.trans first), Option.some.inj (atRight.symm.trans second)]
    exact le_of_lt less
  · rw [kept]
    refine ⟨Below.refl heap best, ?_⟩
    intro one other atBest atCandidate
    exact below_of_not_comes compares (later (entry_eq_some.mp atCandidate).2.1) one other atBest
      atCandidate

theorem smallest_below {index : Nat} {ref : Ref} (present : heap.entry index = some ref) :
    heap.Below key (smallest before heap index) index ∧
      forall child, child / 2 = index -> 2 ≤ child ->
        heap.Below key (smallest before heap index) child := by
  have left := pick_below compares heap index (index * 2)
  have right := pick_below compares heap (pick before heap index (index * 2)) (index * 2 + 1)
  have middle : Exists fun other => heap.entry (pick before heap index (index * 2)) = some other := by
    rcases pick_cases before heap index (index * 2) with ⟨chosen, inside, -⟩ | ⟨kept, -⟩
    · have positive := (entry_eq_some.mp present).1
      rw [chosen]
      exact exists_entry (by omega) inside
    · rw [kept]
      exact ⟨ref, present⟩
  rcases middle with ⟨other, picked⟩
  refine ⟨Below.trans right.1 left.1 picked, ?_⟩
  intro child parent positive
  obtain rfl | rfl : child = index * 2 ∨ child = index * 2 + 1 := by omega
  · exact Below.trans right.1 left.2 picked
  · exact right.2

variable [DecidableEq Ref]

omit compares in
/-- Swapping an entry with the parent it comes before moves the hole up. -/
theorem UpOrder.swap {hole : Nat} (up : UpOrder key heap hole) (inner : 2 ≤ hole) {one other : Ref}
    (atHole : heap.entry hole = some one) (atParent : heap.entry (hole / 2) = some other)
    (less : key one < key other) : UpOrder key (heap.swap hole (hole / 2)) (hole / 2) := by
  have entries := swap_entry atHole atParent
  constructor
  · intro index least different first second atFirst atSecond
    rw [entries] at atFirst atSecond
    rw [if_neg different] at atSecond
    by_cases moved : index = hole
    · rw [if_pos moved] at atSecond
      rw [if_pos (by omega)] at atFirst
      cases atFirst
      cases atSecond
      exact le_of_lt less
    · rw [if_neg moved] at atSecond
      have below := up.others index least moved
      by_cases sibling : index / 2 = hole / 2
      · rw [if_pos sibling] at atFirst
        cases atFirst
        rw [sibling] at below
        exact le_trans (le_of_lt less) (below other second atParent atSecond)
      · rw [if_neg sibling] at atFirst
        by_cases child : index / 2 = hole
        · rw [if_pos child] at atFirst
          cases atFirst
          exact up.around index inner child other second atParent atSecond
        · rw [if_neg child] at atFirst
          exact below first second atFirst atSecond
  · intro child deep sibling first second atFirst atSecond
    rw [entries] at atFirst atSecond
    rw [if_neg (by omega), if_neg (by omega)] at atFirst
    rw [if_neg (by omega)] at atSecond
    have parentBelow := up.others (hole / 2) deep (by omega) first other atFirst atParent
    by_cases moved : child = hole
    · rw [if_pos moved] at atSecond
      cases atSecond
      exact parentBelow
    · rw [if_neg moved] at atSecond
      have below := up.others child (by omega) moved
      rw [sibling] at below
      exact le_trans parentBelow (below other second atParent atSecond)

omit compares in
/-- Swapping an entry with its first child moves the hole down. -/
theorem DownOrder.swap {hole child : Nat} (down : DownOrder key heap hole)
    (descends : child = hole * 2 ∨ child = hole * 2 + 1) {one other : Ref}
    (atHole : heap.entry hole = some one) (atChild : heap.entry child = some other)
    (less : key other ≤ key one)
    (least : forall sibling, sibling / 2 = hole -> 2 ≤ sibling -> heap.Below key child sibling) :
    DownOrder key (heap.swap hole child) child := by
  have entries := swap_entry atHole atChild
  have positive := (entry_eq_some.mp atHole).1
  constructor
  · intro index bound different first second atFirst atSecond
    rw [entries] at atFirst atSecond
    rw [if_neg different] at atFirst
    by_cases moved : index = child
    · rw [if_pos moved] at atSecond
      rw [if_pos (by omega)] at atFirst
      cases atFirst
      cases atSecond
      exact less
    · rw [if_neg moved] at atSecond
      by_cases hollow : index = hole
      · rw [if_pos hollow] at atSecond
        rw [if_neg (by omega)] at atFirst
        cases atSecond
        rw [hollow] at atFirst
        exact down.around child (by omega) (by omega) first other atFirst atChild
      · rw [if_neg hollow] at atSecond
        by_cases sibling : index / 2 = hole
        · rw [if_pos sibling] at atFirst
          cases atFirst
          exact least index sibling bound other second atChild atSecond
        · rw [if_neg sibling] at atFirst
          exact down.others index bound sibling first second atFirst atSecond
  · intro grandchild bound parent first second atFirst atSecond
    rw [entries] at atFirst atSecond
    rw [if_neg (by omega), if_pos (by omega)] at atFirst
    rw [if_neg (by omega), if_neg (by omega)] at atSecond
    cases atFirst
    have below := down.others grandchild (by omega) (by omega)
    rw [parent] at below
    exact below other second atChild atSecond

theorem siftUp_ordered {index : Nat} (up : UpOrder key heap index)
    (present : Exists fun ref => heap.entry index = some ref) :
    Ordered key (siftUp before heap index) := by
  fun_induction siftUp before heap index with
  | case1 heap index inner earlier inductionHypothesis =>
      rcases (comes_eq_true compares).mp earlier with ⟨one, other, atHole, atParent, less⟩
      apply inductionHypothesis (up.swap (by omega) atHole atParent less)
      exact ⟨one, by rw [swap_entry atHole atParent, if_pos rfl]⟩
  | case2 heap index inner later =>
      intro child least
      by_cases hole : child = index
      · rw [hole]
        exact below_of_not_comes compares (Bool.eq_false_iff.mpr later)
      · exact up.others child least hole
  | case3 heap index root =>
      intro child least
      exact up.others child least (by omega)

theorem siftDown_ordered {index : Nat} (down : DownOrder key heap index)
    (present : Exists fun ref => heap.entry index = some ref) :
    Ordered key (siftDown before heap index) := by
  fun_induction siftDown before heap index with
  | case1 heap index settled =>
      rcases present with ⟨ref, atHole⟩
      have below := (smallest_below compares atHole).2
      rw [settled] at below
      intro child least
      by_cases parent : child / 2 = index
      · rw [parent]
        exact below child parent least
      · exact down.others child least parent
  | case2 heap index unsettled inductionHypothesis =>
      rcases present with ⟨one, atHole⟩
      have least := smallest_below compares atHole
      rcases smallest_cases before heap index with same | ⟨descends, inside⟩
      · exact absurd same unsettled
      · have positive := (entry_eq_some.mp atHole).1
        rcases exists_entry (show 1 ≤ smallest before heap index by omega) inside with
          ⟨other, atChild⟩
        apply inductionHypothesis
          (down.swap descends atHole atChild (least.1 other one atChild atHole) least.2)
        exact ⟨one, by rw [swap_entry atHole atChild, if_pos rfl]⟩

end Comparison

end Order

/-! ## Adding and taking entries -/

section Contents

variable [DecidableEq Ref] {heap : Heap Ref}

theorem siftUp_perm (before : Ref -> Ref -> Bool) (heap : Heap Ref) (index : Nat) :
    (siftUp before heap index).slots.Perm heap.slots := by
  fun_induction siftUp before heap index with
  | case1 heap index _ _ inductionHypothesis => exact inductionHypothesis.trans (swap_perm heap _ _)
  | case2 => exact List.Perm.refl _
  | case3 => exact List.Perm.refl _

theorem siftDown_perm (before : Ref -> Ref -> Bool) (heap : Heap Ref) (index : Nat) :
    (siftDown before heap index).slots.Perm heap.slots := by
  fun_induction siftDown before heap index with
  | case1 => exact List.Perm.refl _
  | case2 heap index _ inductionHypothesis => exact inductionHypothesis.trans (swap_perm heap _ _)

theorem Indexed.siftUp (before : Ref -> Ref -> Bool) (index : Nat) (indexed : Indexed heap) :
    Indexed (siftUp before heap index) := by
  fun_induction Heap.siftUp before heap index with
  | case1 heap index _ _ inductionHypothesis => exact inductionHypothesis (indexed.swap _ _)
  | case2 => exact indexed
  | case3 => exact indexed

theorem Indexed.siftDown (before : Ref -> Ref -> Bool) (index : Nat) (indexed : Indexed heap) :
    Indexed (siftDown before heap index) := by
  fun_induction Heap.siftDown before heap index with
  | case1 => exact indexed
  | case2 heap index _ inductionHypothesis => exact inductionHypothesis (indexed.swap _ _)

theorem append_entry (heap : Heap Ref) (ref : Ref) (index : Nat) :
    (heap.append ref).entry index =
      if index = heap.size + 1 then some ref else heap.entry index := by
  unfold append entry size
  dsimp only
  by_cases zero : index = 0
  · rw [if_pos zero, if_neg (by omega), if_pos zero]
  · rw [if_neg zero, if_neg zero]
    split
    · rename_i last
      rw [last, Nat.add_sub_cancel]
      exact List.getElem?_concat_length
    · rename_i other
      by_cases inside : index - 1 < heap.slots.length
      · exact List.getElem?_append_left inside
      · rw [List.getElem?_eq_none (by rw [List.length_append, List.length_singleton]; omega),
          List.getElem?_eq_none (by omega)]

theorem Indexed.append (indexed : Indexed heap) {ref : Ref} (absent : ref ∉ heap.slots) :
    Indexed (heap.append ref) := by
  intro other index
  have place := indexed other index
  have free : forall place, heap.entry place ≠ some ref :=
    fun place present => absent (mem_slots_iff.mpr ⟨place, present⟩)
  have beyond : forall ref, heap.entry (heap.size + 1) ≠ some ref := by
    intro ref present
    have inside := (entry_eq_some.mp present).2.1
    omega
  rw [append_entry]
  simp only [Heap.append, Function.update_apply]
  grind

theorem refill_eq {index : Nat} {removed last : Ref} (atIndex : heap.entry index = some removed)
    (atEnd : heap.entry heap.size = some last) :
    heap.refill index =
      { slots := (heap.slots.set (index - 1) last).dropLast
        position :=
          Function.update (Function.update heap.position removed none) last (some index) } := by
  simp only [refill, atIndex, atEnd]

theorem refill_entry {index : Nat} {removed last : Ref} (atIndex : heap.entry index = some removed)
    (atEnd : heap.entry heap.size = some last) (place : Nat) :
    (heap.refill index).entry place =
      if heap.size ≤ place then none else if place = index then some last else heap.entry place := by
  have inside := entry_eq_some.mp atIndex
  rw [refill_eq atIndex atEnd]
  unfold entry size at *
  dsimp only
  rw [List.getElem?_dropLast, List.length_set]
  by_cases zero : place = 0
  · rw [if_pos zero, if_neg (by omega), if_neg (by omega), if_pos zero]
  · rw [if_neg zero, if_neg zero]
    by_cases beyond : heap.slots.length ≤ place
    · rw [if_neg (by omega), if_pos beyond]
    · rw [if_pos (by omega), if_neg beyond]
      by_cases same : place = index
      · rw [if_pos same, same, List.getElem?_set_self (by omega)]
      · rw [if_neg same, List.getElem?_set_ne (by omega)]

theorem dropLast_entry {last : Ref} (atEnd : heap.entry heap.size = some last) (place : Nat) :
    heap.dropLast.entry place = if heap.size ≤ place then none else heap.entry place := by
  have same : heap.dropLast =
      { slots := heap.slots.dropLast, position := Function.update heap.position last none } := by
    simp only [dropLast, atEnd]
  have inside := entry_eq_some.mp atEnd
  rw [same]
  unfold entry size at *
  dsimp only
  rw [List.getElem?_dropLast]
  by_cases zero : place = 0
  · rw [if_pos zero, if_neg (by omega), if_pos zero]
  · rw [if_neg zero, if_neg zero]
    by_cases beyond : heap.slots.length ≤ place
    · rw [if_neg (by omega), if_pos beyond]
    · rw [if_pos (by omega), if_neg beyond]

theorem Indexed.refill (indexed : Indexed heap) {index : Nat} {removed last : Ref}
    (atIndex : heap.entry index = some removed) (atEnd : heap.entry heap.size = some last)
    (inner : index ≠ heap.size) : Indexed (heap.refill index) := by
  intro ref place
  have known := indexed ref place
  have atRemoved := (indexed removed index).mpr atIndex
  have atLast := (indexed last heap.size).mpr atEnd
  have inside : index ≤ heap.size := (entry_eq_some.mp atIndex).2.1
  have beyond : forall ref, heap.size < place -> heap.entry place ≠ some ref := by
    intro ref less present
    have bound := (entry_eq_some.mp present).2.1
    omega
  rw [refill_entry atIndex atEnd, refill_eq atIndex atEnd]
  simp only [Function.update_apply]
  grind

theorem Indexed.dropLast (indexed : Indexed heap) {last : Ref}
    (atEnd : heap.entry heap.size = some last) : Indexed heap.dropLast := by
  intro ref place
  have known := indexed ref place
  have atLast := (indexed last heap.size).mpr atEnd
  have beyond : forall ref, heap.size < place -> heap.entry place ≠ some ref := by
    intro ref less present
    have bound := (entry_eq_some.mp present).2.1
    omega
  rw [dropLast_entry atEnd]
  simp only [Heap.dropLast, atEnd, Function.update_apply]
  grind

omit [DecidableEq Ref] in
/-- Two heaps that differ in one entry. -/
theorem perm_of_entries {rest : Heap Ref} (indexed : Indexed heap) (left : Indexed rest)
    {removed : Ref} (gone : removed ∉ rest.slots)
    (others : forall ref, ref ∈ heap.slots <-> ref = removed ∨ ref ∈ rest.slots) :
    heap.slots.Perm (removed :: rest.slots) := by
  apply (List.perm_ext_iff_of_nodup indexed.nodup (List.nodup_cons.mpr ⟨gone, left.nodup⟩)).mpr
  intro ref
  rw [others, List.mem_cons]

end Contents

/-! ## Valid heaps -/

section Valid

variable {K : Type v} [LinearOrder K]

structure Valid (key : Ref -> K) (heap : Heap Ref) : Prop where
  ordered : Ordered key heap
  indexed : Indexed heap

theorem valid_empty (key : Ref -> K) : Valid key (empty : Heap Ref) where
  ordered := by
    intro index _ one other first
    have inside := entry_eq_some.mp first
    exact absurd inside.2.1 (Nat.not_le_of_lt inside.1)
  indexed := by
    intro ref index
    constructor
    · intro impossible
      cases impossible
    · intro present
      have inside := entry_eq_some.mp present
      exact absurd inside.2.1 (Nat.not_le_of_lt inside.1)

/-- Only the keys of the entries matter. -/
theorem Valid.congr {key other : Ref -> K} {heap : Heap Ref} (valid : Valid key heap)
    (same : forall ref, ref ∈ heap.slots -> other ref = key ref) : Valid other heap where
  ordered := by
    intro index least one second atFirst atSecond
    rw [same one (mem_slots_iff.mpr ⟨_, atFirst⟩), same second (mem_slots_iff.mpr ⟨_, atSecond⟩)]
    exact valid.ordered index least one second atFirst atSecond
  indexed := valid.indexed

variable [DecidableEq Ref] {key : Ref -> K} {before : Ref -> Ref -> Bool} {heap : Heap Ref}
  (compares : forall one other, before one other = true <-> key one < key other)

omit [LinearOrder K] in
theorem push_perm (before : Ref -> Ref -> Bool) (heap : Heap Ref) (ref : Ref) :
    (heap.push before ref).slots.Perm (ref :: heap.slots) := by
  refine (siftUp_perm before (heap.append ref) (heap.size + 1)).trans ?_
  exact List.perm_append_comm

include compares

theorem Valid.push (valid : Valid key heap) {ref : Ref} (absent : ref ∉ heap.slots) :
    Valid key (heap.push before ref) where
  ordered := by
    apply siftUp_ordered compares
    · constructor
      · intro index least different one other first second
        rw [append_entry, if_neg different] at second
        have inside := (entry_eq_some.mp second).2.1
        rw [append_entry, if_neg (by omega)] at first
        exact valid.ordered index least one other first second
      · intro child least parent one other first second
        rw [append_entry, if_neg (by omega)] at second
        have inside := (entry_eq_some.mp second).2.1
        omega
    · exact ⟨ref, by rw [append_entry, if_pos rfl]⟩
  indexed := (valid.indexed.append absent).siftUp before _

omit [DecidableEq Ref] in
omit compares in
theorem Valid.least (valid : Valid key heap) {root : Ref} (atRoot : heap.entry 1 = some root)
    {ref : Ref} (member : ref ∈ heap.slots) : key root ≤ key ref := by
  rcases mem_slots_iff.mp member with ⟨index, present⟩
  exact valid.ordered.root_below index (entry_eq_some.mp present).1 root ref atRoot present

omit compares in
theorem pop_eq_none : heap.pop before = none <-> heap.slots = [] := by
  unfold pop
  rw [Option.map_eq_none_iff]
  constructor
  · intro absent
    by_contra filled
    have positive : 0 < heap.slots.length := List.length_pos_iff.mpr filled
    rcases exists_entry (Nat.le_refl 1) (show 1 ≤ heap.size from positive) with ⟨ref, present⟩
    rw [absent] at present
    cases present
  · intro nothing
    unfold entry
    rw [nothing]
    rfl

omit compares in
/-- The entries of a heap without its last one. -/
theorem Valid.dropLast (valid : Valid key heap) {last : Ref}
    (atEnd : heap.entry heap.size = some last) :
    Valid key heap.dropLast ∧ heap.slots.Perm (last :: heap.dropLast.slots) := by
  have entries := dropLast_entry atEnd
  have indexed := valid.indexed.dropLast atEnd
  constructor
  · refine ⟨?_, indexed⟩
    intro index least one other first second
    rw [entries] at first second
    split at second
    · cases second
    · rw [if_neg (by omega)] at first
      exact valid.ordered index least one other first second
  · apply perm_of_entries valid.indexed indexed
    · rw [mem_slots_iff]
      rintro ⟨place, present⟩
      rw [entries] at present
      split at present
      · cases present
      · have same := valid.indexed.inj present atEnd
        omega
    · intro ref
      simp only [mem_slots_iff, entries]
      constructor
      · rintro ⟨place, present⟩
        by_cases final : place = heap.size
        · rw [final] at present
          exact Or.inl (Option.some.inj (present.symm.trans atEnd))
        · have inside := (entry_eq_some.mp present).2.1
          exact Or.inr ⟨place, by rw [if_neg (by omega), present]⟩
      · rintro (rfl | ⟨place, present⟩)
        · exact ⟨heap.size, atEnd⟩
        · split at present
          · cases present
          · exact ⟨place, present⟩

omit compares in
theorem Valid.refill_perm (valid : Valid key heap) {index : Nat} {removed last : Ref}
    (atIndex : heap.entry index = some removed) (atEnd : heap.entry heap.size = some last)
    (inner : index ≠ heap.size) : heap.slots.Perm (removed :: (heap.refill index).slots) := by
  have entries := refill_entry atIndex atEnd
  have inside := entry_eq_some.mp atIndex
  apply perm_of_entries valid.indexed (valid.indexed.refill atIndex atEnd inner)
  · rw [mem_slots_iff]
    rintro ⟨place, present⟩
    rw [entries] at present
    split at present
    · cases present
    · split at present
      · obtain rfl : last = removed := Option.some.inj present
        exact inner (valid.indexed.inj atIndex atEnd)
      · rename_i different
        exact different (valid.indexed.inj present atIndex)
  · intro ref
    simp only [mem_slots_iff, entries]
    constructor
    · rintro ⟨place, present⟩
      have bound := (entry_eq_some.mp present).2.1
      by_cases hollow : place = index
      · rw [hollow] at present
        exact Or.inl (Option.some.inj (present.symm.trans atIndex))
      · refine Or.inr ?_
        by_cases final : place = heap.size
        · rw [final] at present
          obtain rfl : last = ref := Option.some.inj (atEnd.symm.trans present)
          exact ⟨index, by rw [if_neg (by omega), if_pos rfl]⟩
        · exact ⟨place, by rw [if_neg (by omega), if_neg hollow, present]⟩
    · rintro (rfl | ⟨place, present⟩)
      · exact ⟨index, atIndex⟩
      · split at present
        · cases present
        · split at present
          · exact ⟨heap.size, atEnd.trans present⟩
          · exact ⟨place, present⟩

omit compares in
/-- Filling a hole with the last entry leaves the rest in order. -/
theorem Valid.refill_around (valid : Valid key heap) {index : Nat} {removed last : Ref}
    (atIndex : heap.entry index = some removed) (atEnd : heap.entry heap.size = some last) :
    (forall child, 2 ≤ child -> child ≠ index -> child / 2 ≠ index ->
      (heap.refill index).Below key (child / 2) child) ∧
    (forall child, 2 ≤ index -> child / 2 = index ->
      (heap.refill index).Below key (index / 2) child) := by
  have entries := refill_entry atIndex atEnd
  constructor
  · intro child least different apart one other first second
    rw [entries] at first second
    split at second
    · cases second
    · rw [if_neg (by omega), if_neg apart] at first
      exact valid.ordered child least one other first second
  · intro child least parent one other first second
    rw [entries] at first second
    split at second
    · cases second
    · rw [if_neg (by omega), if_neg (by omega)] at first
      rw [if_neg (by omega)] at second
      have above := valid.ordered child (by omega)
      rw [parent] at above
      exact Below.trans (valid.ordered index least) above atIndex one other first second

theorem Valid.siftDown_refill (valid : Valid key heap) {index : Nat} {removed last : Ref}
    (atIndex : heap.entry index = some removed) (atEnd : heap.entry heap.size = some last)
    (inner : index ≠ heap.size)
    (settled : 2 ≤ index -> (heap.refill index).Below key (index / 2) index) :
    Valid key (siftDown before (heap.refill index) index) where
  ordered := by
    have around := valid.refill_around atIndex atEnd
    have inside := (entry_eq_some.mp atIndex).2.1
    apply siftDown_ordered compares
    · constructor
      · intro child least apart
        by_cases same : child = index
        · rw [same]
          exact settled (by omega)
        · exact around.1 child least same apart
      · exact around.2
    · exact ⟨last, by rw [refill_entry atIndex atEnd, if_neg (by omega), if_pos rfl]⟩
  indexed := (valid.indexed.refill atIndex atEnd inner).siftDown before index

/-- `pop` takes a least entry out. -/
theorem Valid.pop (valid : Valid key heap) {root : Ref} {rest : Heap Ref}
    (popped : heap.pop before = some (root, rest)) :
    Valid key rest ∧ heap.slots.Perm (root :: rest.slots) ∧ heap.entry 1 = some root := by
  rcases Option.map_eq_some_iff.mp popped with ⟨first, atRoot, result⟩
  obtain ⟨rfl, rfl⟩ := Prod.mk.inj result
  have inside := entry_eq_some.mp atRoot
  rcases exists_entry (Nat.le_trans inside.1 inside.2.1) (Nat.le_refl heap.size) with ⟨last, atEnd⟩
  split
  · rename_i single
    have same : first = last := by
      rw [single] at atEnd
      exact Option.some.inj (atRoot.symm.trans atEnd)
    subst same
    exact ⟨(valid.dropLast atEnd).1, (valid.dropLast atEnd).2, atRoot⟩
  · rename_i several
    refine ⟨valid.siftDown_refill compares atRoot atEnd (by omega) (by omega), ?_, atRoot⟩
    exact (valid.refill_perm atRoot atEnd (by omega)).trans
      ((siftDown_perm before (heap.refill 1) 1).symm.cons first)

/-- `remove` takes exactly the given entry out. -/
theorem Valid.remove (valid : Valid key heap) {ref : Ref} {rest : Heap Ref}
    (removed : heap.remove before ref = some rest) :
    Valid key rest ∧ heap.slots.Perm (ref :: rest.slots) := by
  unfold Heap.remove at removed
  split at removed
  · cases removed
  · rename_i index _
    split at removed
    · rename_i atIndex
      have inside := entry_eq_some.mp atIndex
      rcases exists_entry (Nat.le_trans inside.1 inside.2.1) (Nat.le_refl heap.size) with
        ⟨last, atEnd⟩
      split at removed
      · rename_i final
        cases removed
        rw [← final, atIndex] at atEnd
        cases atEnd
        exact valid.dropLast (final ▸ atIndex)
      · rename_i inner
        have around := valid.refill_around atIndex atEnd
        have entries := refill_entry atIndex atEnd
        have shorter := valid.refill_perm atIndex atEnd inner
        dsimp only at removed
        split at removed
        · rename_i rising
          cases removed
          rcases (comes_eq_true compares).mp rising.2 with ⟨one, parent, atHole, atParent, less⟩
          rw [entries, if_neg (by omega), if_pos rfl] at atHole
          cases atHole
          rw [entries, if_neg (by omega), if_neg (by omega)] at atParent
          constructor
          · refine ⟨?_, (valid.indexed.refill atIndex atEnd inner).siftUp before index⟩
            apply siftUp_ordered compares
            · constructor
              · intro child least different
                by_cases apart : child / 2 = index
                · -- what rises comes before everything below the hole
                  intro first second atFirst atSecond
                  rw [apart, entries, if_neg (by omega), if_pos rfl] at atFirst
                  cases atFirst
                  have above := around.2 child (by omega) apart parent second
                    (by rw [entries, if_neg (by omega), if_neg (by omega), atParent]) atSecond
                  exact le_trans (le_of_lt less) above
                · exact around.1 child least different apart
              · exact around.2
            · exact ⟨last, by rw [entries, if_neg (by omega), if_pos rfl]⟩
          · exact shorter.trans ((siftUp_perm before (heap.refill index) index).symm.cons ref)
        · rename_i falling
          cases removed
          constructor
          · apply valid.siftDown_refill compares atIndex atEnd inner
            intro least
            apply below_of_not_comes compares
            rw [Bool.eq_false_iff]
            exact fun rising => falling ⟨by omega, rising⟩
          · exact shorter.trans ((siftDown_perm before (heap.refill index) index).symm.cons ref)
    · cases removed

omit compares in
/-- An entry is found by the place it remembers. -/
theorem Valid.remove_isSome (valid : Valid key heap) {ref : Ref} (member : ref ∈ heap.slots) :
    Exists fun rest => heap.remove before ref = some rest := by
  rcases mem_slots_iff.mp member with ⟨index, present⟩
  have known := (valid.indexed ref index).mpr present
  unfold Heap.remove
  rw [known]
  dsimp only
  rw [if_pos present]
  split
  · exact ⟨_, rfl⟩
  · split
    · exact ⟨_, rfl⟩
    · exact ⟨_, rfl⟩

end Valid


end Heap

end Foundation
end ServiceRuntime
