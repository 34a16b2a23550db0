import ServiceRuntime.Foundation.Heap

namespace ServiceRuntime
namespace Foundation
namespace Heap

/-!
# Heaps of which only the entries are known

What a reference outside the array remembers does not influence the operations.
A heap may therefore be replaced by the one in which strangers remember
nothing; whatever holds of the entries afterwards holds of the original too.
-/

variable {Ref : Type u}

/-- Every entry remembers its place. -/
def Placed (heap : Heap Ref) : Prop :=
  forall index ref, heap.entry index = some ref -> heap.position ref = some index

/-- Nobody outside remembers a place. -/
def Confined (heap : Heap Ref) : Prop :=
  forall ref, ref ∉ heap.slots -> heap.position ref = none

theorem Indexed.placed {heap : Heap Ref} (indexed : Indexed heap) : heap.Placed :=
  fun index ref present => (indexed ref index).mpr present

theorem Indexed.confined {heap : Heap Ref} (indexed : Indexed heap) : heap.Confined := by
  intro ref outside
  cases remembered : heap.position ref with
  | none => rfl
  | some index =>
      exact False.elim (outside (mem_slots_iff.mpr ⟨index, (indexed ref index).mp remembered⟩))

theorem Placed.indexed {heap : Heap Ref} (placed : heap.Placed) (confined : heap.Confined) :
    Indexed heap := by
  intro ref index
  constructor
  · intro remembered
    by_cases inside : ref ∈ heap.slots
    · obtain ⟨place, present⟩ := mem_slots_iff.mp inside
      have same : place = index :=
        Option.some.inj ((placed place ref present).symm.trans remembered)
      exact same ▸ present
    · cases (confined ref inside).symm.trans remembered
  · exact placed index ref

/-- The same array, and the same memories of its entries. -/
structure Alike (heap other : Heap Ref) : Prop where
  slots : other.slots = heap.slots
  position : forall ref, ref ∈ heap.slots -> other.position ref = heap.position ref

namespace Alike

variable {heap other : Heap Ref}

theorem size (alike : Alike heap other) : other.size = heap.size := by
  rw [Heap.size, alike.slots, Heap.size]

theorem entry (alike : Alike heap other) (index : Nat) : other.entry index = heap.entry index := by
  rw [Heap.entry, alike.slots, Heap.entry]

theorem comes (alike : Alike heap other) (before : Ref -> Ref -> Bool) (first second : Nat) :
    Heap.comes before other first second = Heap.comes before heap first second := by
  rw [Heap.comes, alike.entry, alike.entry, Heap.comes]

theorem pick (alike : Alike heap other) (before : Ref -> Ref -> Bool) (best candidate : Nat) :
    Heap.pick before other best candidate = Heap.pick before heap best candidate := by
  rw [Heap.pick, alike.comes, alike.size, Heap.pick]

theorem smallest (alike : Alike heap other) (before : Ref -> Ref -> Bool) (index : Nat) :
    Heap.smallest before other index = Heap.smallest before heap index := by
  rw [Heap.smallest, alike.pick, alike.pick, Heap.smallest]

theorem placed (alike : Alike heap other) (placed : other.Placed) : heap.Placed := by
  intro index ref present
  rw [← alike.position ref (mem_slots_iff.mpr ⟨index, present⟩)]
  exact placed index ref ((alike.entry index).trans present)

theorem ordered {K : Type v} [LinearOrder K] {key : Ref -> K} (alike : Alike heap other)
    (ordered : Ordered key other) : Ordered key heap := by
  intro index least one second first below
  exact ordered index least one second ((alike.entry _).trans first) ((alike.entry _).trans below)

variable [DecidableEq Ref]

theorem swap (alike : Alike heap other) (left right : Nat) :
    Alike (heap.swap left right) (other.swap left right) := by
  have members (ref : Ref) (member : ref ∈ (heap.swap left right).slots) : ref ∈ heap.slots :=
    (swap_perm heap left right).subset member
  refine ⟨?_, fun ref member => ?_⟩
  · simp only [Heap.swap, alike.entry]
    split
    · simp only [alike.slots]
    · exact alike.slots
  · have same := alike.position ref (members ref member)
    simp only [Heap.swap, alike.entry]
    split
    · simp only [Function.update_apply, same]
    · exact same

theorem siftUp (before : Ref -> Ref -> Bool) (index : Nat) (alike : Alike heap other) :
    Alike (Heap.siftUp before heap index) (Heap.siftUp before other index) := by
  fun_induction Heap.siftUp before heap index generalizing other with
  | case1 heap index inner rises inductionHypothesis =>
      rw [Heap.siftUp.eq_def before other, if_pos inner, alike.comes, if_pos rises]
      exact inductionHypothesis (alike.swap _ _)
  | case2 heap index inner rests =>
      rw [Heap.siftUp.eq_def before other, if_pos inner, alike.comes, if_neg rests]
      exact alike
  | case3 heap index root =>
      rw [Heap.siftUp.eq_def before other, if_neg root]
      exact alike

theorem siftDown (before : Ref -> Ref -> Bool) (index : Nat) (alike : Alike heap other) :
    Alike (Heap.siftDown before heap index) (Heap.siftDown before other index) := by
  fun_induction Heap.siftDown before heap index generalizing other with
  | case1 heap index rests =>
      rw [Heap.siftDown.eq_def before other, alike.smallest, if_pos rests]
      exact alike
  | case2 heap index falls inductionHypothesis =>
      rw [Heap.siftDown.eq_def before other, alike.smallest, if_neg falls]
      exact inductionHypothesis (alike.swap _ _)

theorem append (alike : Alike heap other) (ref : Ref) :
    Alike (heap.append ref) (other.append ref) := by
  refine ⟨by simp only [Heap.append, alike.slots], fun member present => ?_⟩
  simp only [Heap.append, alike.size, Function.update_apply] at present ⊢
  split
  · rfl
  · rename_i different
    rcases List.mem_append.mp present with old | new
    · exact alike.position member old
    · exact False.elim (different (List.mem_singleton.mp new))

theorem push (before : Ref -> Ref -> Bool) (alike : Alike heap other) (ref : Ref) :
    Alike (heap.push before ref) (other.push before ref) := by
  rw [Heap.push, Heap.push, alike.size]
  exact (alike.append ref).siftUp before _

theorem refill (alike : Alike heap other) (index : Nat) :
    Alike (heap.refill index) (other.refill index) := by
  simp only [Heap.refill, alike.entry, alike.size]
  split
  · rename_i removed last atIndex atEnd
    refine ⟨by simp only [alike.slots], fun ref member => ?_⟩
    simp only [Function.update_apply]
    split
    · rfl
    · split
      · rfl
      · rename_i different _
        rcases List.mem_or_eq_of_mem_set ((List.dropLast_sublist _).subset member) with old | rfl
        · exact alike.position ref old
        · exact False.elim (different rfl)
  · exact alike

theorem dropLast (alike : Alike heap other) : Alike heap.dropLast other.dropLast := by
  simp only [Heap.dropLast, alike.entry, alike.size]
  split
  · refine ⟨by simp only [alike.slots], fun ref member => ?_⟩
    simp only [Function.update_apply, alike.position ref ((List.dropLast_sublist _).subset member)]
  · exact alike

end Alike

/-! ## The operations -/

section Operations

variable [DecidableEq Ref] {heap : Heap Ref}

/-- The same heap with strangers remembering nothing. -/
def settle (heap : Heap Ref) : Heap Ref where
  slots := heap.slots
  position := fun ref => if ref ∈ heap.slots then heap.position ref else none

theorem alike_settle (heap : Heap Ref) : Alike heap heap.settle where
  slots := rfl
  position := fun _ member => if_pos member

theorem settle_indexed (placed : heap.Placed) : Indexed heap.settle := by
  apply Placed.indexed
  · intro index ref present
    have member : ref ∈ heap.slots := mem_slots_iff.mpr ⟨index, present⟩
    exact (if_pos member).trans (placed index ref present)
  · exact fun ref outside => if_neg outside

theorem pop_alike {other rest : Heap Ref} {root : Ref} {before : Ref -> Ref -> Bool}
    (alike : Alike heap other) (popped : heap.pop before = some (root, rest)) :
    Exists fun left => other.pop before = some (root, left) ∧ Alike rest left := by
  obtain ⟨first, atRoot, result⟩ := Option.map_eq_some_iff.mp popped
  obtain ⟨rfl, rfl⟩ := Prod.mk.inj result
  refine ⟨_, Option.map_eq_some_iff.mpr ⟨first, (alike.entry 1).trans atRoot, rfl⟩, ?_⟩
  rw [alike.size]
  split
  · exact alike.dropLast
  · exact (alike.refill 1).siftDown before 1

theorem remove_alike {other rest : Heap Ref} {ref : Ref} {before : Ref -> Ref -> Bool}
    (alike : Alike heap other) (removed : heap.remove before ref = some rest) :
    Exists fun left => other.remove before ref = some left ∧ Alike rest left := by
  unfold Heap.remove at removed ⊢
  split at removed
  · cases removed
  · rename_i index remembered
    split at removed
    · rename_i present
      have same := alike.position ref (mem_slots_iff.mpr ⟨index, present⟩)
      have filled := alike.refill index
      rw [same, remembered]
      dsimp only at removed ⊢
      rw [alike.entry, if_pos present, alike.size, filled.comes]
      by_cases final : index = heap.size
      · rw [if_pos final] at removed ⊢
        cases removed
        exact ⟨_, rfl, alike.dropLast⟩
      · rw [if_neg final] at removed ⊢
        split at removed
        · rename_i rises
          rw [if_pos rises]
          cases removed
          exact ⟨_, rfl, filled.siftUp before index⟩
        · rename_i falls
          rw [if_neg falls]
          cases removed
          exact ⟨_, rfl, filled.siftDown before index⟩
    · cases removed

/-- Only an entry can be removed. -/
theorem remove_member {rest : Heap Ref} {ref : Ref} {before : Ref -> Ref -> Bool}
    (removed : heap.remove before ref = some rest) : ref ∈ heap.slots := by
  unfold Heap.remove at removed
  split at removed
  · cases removed
  · split at removed
    · rename_i index _ present
      exact mem_slots_iff.mpr ⟨index, present⟩
    · cases removed

variable {K : Type v} [LinearOrder K] {key : Ref -> K} {before : Ref -> Ref -> Bool}

theorem settle_valid (ordered : Ordered key heap) (placed : heap.Placed) : Valid key heap.settle where
  ordered := ordered
  indexed := settle_indexed placed

variable (compares : forall one other, before one other = true <-> key one < key other)

include compares

theorem push_kept (ordered : Ordered key heap) (placed : heap.Placed) {ref : Ref}
    (absent : ref ∉ heap.slots) :
    Ordered key (heap.push before ref) ∧ (heap.push before ref).Placed := by
  have valid := (settle_valid ordered placed).push compares
    (show ref ∉ heap.settle.slots from absent)
  have alike := (alike_settle heap).push before ref
  exact ⟨alike.ordered valid.ordered, alike.placed valid.indexed.placed⟩

theorem pop_kept (ordered : Ordered key heap) (placed : heap.Placed) {root : Ref} {rest : Heap Ref}
    (popped : heap.pop before = some (root, rest)) :
    (Ordered key rest ∧ rest.Placed) ∧ heap.slots.Perm (root :: rest.slots) ∧
      forall ref, ref ∈ heap.slots -> key root ≤ key ref := by
  obtain ⟨left, again, alike⟩ := pop_alike (alike_settle heap) popped
  obtain ⟨valid, perm, atRoot⟩ := (settle_valid ordered placed).pop compares again
  refine ⟨⟨alike.ordered valid.ordered, alike.placed valid.indexed.placed⟩, ?_, ?_⟩
  · rw [← alike.slots]
    exact perm
  · exact fun ref member => (settle_valid ordered placed).least atRoot member

theorem remove_kept (ordered : Ordered key heap) (placed : heap.Placed) {ref : Ref}
    {rest : Heap Ref} (removed : heap.remove before ref = some rest) :
    (Ordered key rest ∧ rest.Placed) ∧ heap.slots.Perm (ref :: rest.slots) := by
  obtain ⟨left, again, alike⟩ := remove_alike (alike_settle heap) removed
  obtain ⟨valid, perm⟩ := (settle_valid ordered placed).remove compares again
  refine ⟨⟨alike.ordered valid.ordered, alike.placed valid.indexed.placed⟩, ?_⟩
  rw [← alike.slots]
  exact perm

omit [LinearOrder K] compares in
/-- An entry is found by the place it remembers. -/
theorem remove_isSome_iff (placed : heap.Placed) {ref : Ref} :
    (heap.remove before ref).isSome = true ↔ ref ∈ heap.slots := by
  constructor
  · intro found
    obtain ⟨rest, removed⟩ := Option.isSome_iff_exists.mp found
    exact remove_member removed
  · intro member
    obtain ⟨index, present⟩ := mem_slots_iff.mp member
    unfold Heap.remove
    rw [placed index ref present]
    dsimp only
    rw [if_pos present]
    split
    · rfl
    · split <;> rfl

end Operations

end Heap
end Foundation
end ServiceRuntime
