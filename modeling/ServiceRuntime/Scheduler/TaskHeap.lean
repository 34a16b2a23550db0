import ServiceRuntime.Foundation.HeapPlaces
import ServiceRuntime.Scheduler.Queue

namespace ServiceRuntime
namespace Scheduler

open Foundation

/-!
# The heap of tasks

What `heap_push`, `heap_pop` and `heap_remove` promise for any array in order
whose tasks know their places, whoever else carries a `heap_index`.
-/

/-- The array in order: no task is before its parent, every task knows its
index, no task and no sequence number occurs twice. -/
structure TaskHeap (tasks : Ref -> Task) (heap : Heap Ref) : Prop where
  ordered : forall index child parent, 2 ≤ index -> heap.entry index = some child ->
    heap.entry (index / 2) = some parent -> taskBefore tasks child parent = false
  indexed : forall index ref, heap.entry index = some ref -> heap.position ref = some index
  entries : heap.slots.Nodup
  sequences : forall one other, one ∈ heap.slots -> other ∈ heap.slots ->
    (tasks one).sequence = (tasks other).sequence -> one = other

/-- What `heap_remove` returns. -/
def heapRemoves (state : State) (ref : Ref) : Bool :=
  (state.heap.remove (taskBefore state.tasks) ref).isSome

theorem not_taskBefore_iff (tasks : Ref -> Task) (left right : Ref) :
    taskBefore tasks left right = false ↔ key tasks right ≤ key tasks left := by
  rw [← not_lt, ← taskBefore_iff, Bool.not_eq_true]

theorem TaskHeap.inOrder {tasks : Ref -> Task} {heap : Heap Ref} (queue : TaskHeap tasks heap) :
    Heap.Ordered (key tasks) heap := by
  intro index least parent child atParent atChild
  exact (not_taskBefore_iff tasks child parent).mp (queue.ordered index child parent least atChild atParent)

theorem TaskHeap.placed {tasks : Ref -> Task} {heap : Heap Ref} (queue : TaskHeap tasks heap) :
    heap.Placed :=
  queue.indexed

/-- Order and places make a heap of tasks; what is in it decides the rest. -/
theorem taskHeap_of_ordered {tasks : Ref -> Task} {heap : Heap Ref}
    (ordered : Heap.Ordered (key tasks) heap) (placed : heap.Placed)
    (sequences : forall one other, one ∈ heap.slots -> other ∈ heap.slots ->
      (tasks one).sequence = (tasks other).sequence -> one = other) : TaskHeap tasks heap where
  ordered := by
    intro index child parent least atChild atParent
    exact (not_taskBefore_iff tasks child parent).mpr
      (ordered index least parent child atParent atChild)
  indexed := placed
  entries := by
    have nodup := (Heap.settle_indexed placed).nodup
    exact nodup
  sequences := sequences

/-- A part of the tasks has different sequence numbers too. -/
theorem TaskHeap.part {tasks : Ref -> Task} {heap rest : Heap Ref} (queue : TaskHeap tasks heap)
    (kept : Heap.Ordered (key tasks) rest ∧ rest.Placed)
    (within : forall ref, ref ∈ rest.slots -> ref ∈ heap.slots) : TaskHeap tasks rest := by
  refine taskHeap_of_ordered kept.1 kept.2 ?_
  intro one other first second same
  exact queue.sequences one other (within one first) (within other second) same

theorem TaskHeap.valid {tasks : Ref -> Task} {heap : Heap Ref} (queue : TaskHeap tasks heap)
    (confined : heap.Confined) : heap.Valid (key tasks) where
  ordered := queue.inOrder
  indexed := queue.placed.indexed confined

/-- What the three operations promise. -/
structure HeapContract (state : State) : Prop where
  push : forall ref, ref ∉ state.heap.slots ->
    (forall other, other ∈ state.heap.slots ->
      (state.tasks other).sequence ≠ (state.tasks ref).sequence) ->
    TaskHeap state.tasks (heapPush state ref).heap ∧
      (heapPush state ref).heap.slots.Perm (ref :: state.heap.slots) ∧
      (state.heap.Confined -> (heapPush state ref).heap.Confined)
  empty : heapPop state = none ↔ state.heap.slots = []
  pop : forall root next, heapPop state = some (root, next) ->
    TaskHeap state.tasks next.heap ∧ state.heap.slots.Perm (root :: next.heap.slots) ∧
      (forall other, other ∈ next.heap.slots -> taskBefore state.tasks root other = true) ∧
      (state.heap.Confined -> next.heap.Confined)
  finds : forall ref, heapRemoves state ref = true ↔ ref ∈ state.heap.slots
  remove : forall ref, ref ∈ state.heap.slots ->
    TaskHeap state.tasks (heapRemove state ref).heap ∧
      state.heap.slots.Perm (ref :: (heapRemove state ref).heap.slots) ∧
      (state.heap.Confined -> (heapRemove state ref).heap.Confined)
  refuse : forall ref, ref ∉ state.heap.slots -> heapRemove state ref = state

theorem heapPush_contract {state : State} (queue : TaskHeap state.tasks state.heap) {ref : Ref}
    (absent : ref ∉ state.heap.slots)
    (fresh : forall other, other ∈ state.heap.slots ->
      (state.tasks other).sequence ≠ (state.tasks ref).sequence) :
    TaskHeap state.tasks (heapPush state ref).heap ∧
      (heapPush state ref).heap.slots.Perm (ref :: state.heap.slots) ∧
      (state.heap.Confined -> (heapPush state ref).heap.Confined) := by
  have compares := taskBefore_iff state.tasks
  have perm : (heapPush state ref).heap.slots.Perm (ref :: state.heap.slots) :=
    Heap.push_perm (taskBefore state.tasks) state.heap ref
  refine ⟨?_, perm, ?_⟩
  · have kept := Heap.push_kept compares queue.inOrder queue.placed absent
    refine taskHeap_of_ordered kept.1 kept.2 ?_
    intro one other first second same
    rcases List.mem_cons.mp (perm.subset first) with rfl | old
    · rcases List.mem_cons.mp (perm.subset second) with rfl | older
      · rfl
      · exact False.elim (fresh other older same.symm)
    · rcases List.mem_cons.mp (perm.subset second) with rfl | older
      · exact False.elim (fresh one old same)
      · exact queue.sequences one other old older same
  · intro confined
    exact ((queue.valid confined).push compares absent).indexed.confined

theorem heapPop_contract {state next : State} (queue : TaskHeap state.tasks state.heap) {root : Ref}
    (popped : heapPop state = some (root, next)) :
    TaskHeap state.tasks next.heap ∧ state.heap.slots.Perm (root :: next.heap.slots) ∧
      (forall other, other ∈ next.heap.slots -> taskBefore state.tasks root other = true) ∧
      (state.heap.Confined -> next.heap.Confined) := by
  have compares := taskBefore_iff state.tasks
  obtain ⟨⟨first, rest⟩, result, same⟩ := Option.map_eq_some_iff.mp popped
  obtain ⟨rfl, rfl⟩ := Prod.mk.inj same
  obtain ⟨kept, perm, least⟩ := Heap.pop_kept compares queue.inOrder queue.placed result
  have within (ref : Ref) (member : ref ∈ rest.slots) : ref ∈ state.heap.slots :=
    perm.symm.subset (List.mem_cons_of_mem first member)
  have root : first ∈ state.heap.slots := perm.symm.subset List.mem_cons_self
  have gone : first ∉ rest.slots :=
    (List.nodup_cons.mp ((perm.nodup_iff).mp queue.entries)).1
  refine ⟨queue.part kept within, perm, ?_, ?_⟩
  · intro other member
    refine (compares first other).mpr (lt_of_le_of_ne (least other (within other member)) ?_)
    intro equal
    -- equal keys would mean equal sequence numbers
    have numbers : (state.tasks first).sequence = (state.tasks other).sequence :=
      congrArg (fun key => (ofLex key).2) equal
    rw [queue.sequences first other root (within other member) numbers] at gone
    exact gone member
  · intro confined
    exact ((queue.valid confined).pop compares result).1.indexed.confined

theorem heapRemove_contract {state : State} (queue : TaskHeap state.tasks state.heap) {ref : Ref}
    (member : ref ∈ state.heap.slots) :
    TaskHeap state.tasks (heapRemove state ref).heap ∧
      state.heap.slots.Perm (ref :: (heapRemove state ref).heap.slots) ∧
      (state.heap.Confined -> (heapRemove state ref).heap.Confined) := by
  have compares := taskBefore_iff state.tasks
  have found : (state.heap.remove (taskBefore state.tasks) ref).isSome = true :=
    (Heap.remove_isSome_iff queue.placed).mpr member
  obtain ⟨rest, removed⟩ := Option.isSome_iff_exists.mp found
  have result : (heapRemove state ref).heap = rest := by
    simp only [heapRemove, removed, Option.getD_some]
  rw [result]
  obtain ⟨kept, perm⟩ := Heap.remove_kept compares queue.inOrder queue.placed removed
  refine ⟨queue.part kept ?_, perm, ?_⟩
  · exact fun other inside => perm.symm.subset (List.mem_cons_of_mem ref inside)
  · intro confined
    exact ((queue.valid confined).remove compares removed).1.indexed.confined

theorem heap_contract {state : State} (queue : TaskHeap state.tasks state.heap) :
    HeapContract state where
  push := fun _ absent fresh => heapPush_contract queue absent fresh
  empty := by
    unfold heapPop
    rw [Option.map_eq_none_iff]
    exact Heap.pop_eq_none
  pop := fun _ _ popped => heapPop_contract queue popped
  finds := fun _ => Heap.remove_isSome_iff queue.placed
  remove := fun _ member => heapRemove_contract queue member
  refuse := by
    intro ref absent
    have nothing : state.heap.remove (taskBefore state.tasks) ref = none := by
      cases removed : state.heap.remove (taskBefore state.tasks) ref with
      | none => rfl
      | some rest => exact False.elim (absent (Heap.remove_member removed))
    simp only [heapRemove, nothing, Option.getD_none]

/-- The operations keep every heap of tasks a heap, and the scheduler never has
another one; nobody outside it carries an index. -/
theorem task_heap :
    (forall state, TaskHeap state.tasks state.heap -> HeapContract state) ∧
    forall state, machine.Reachable state ->
      TaskHeap state.tasks state.heap ∧ state.heap.Confined := by
  refine ⟨fun state queue => heap_contract queue, ?_⟩
  intro state reachable
  have sound := reachable_sound reachable
  exact ⟨taskHeap_of_ordered sound.valid.ordered sound.valid.indexed.placed sound.distinct,
    sound.valid.indexed.confined⟩

/-- Tasks for these moments, registered one after another. -/
def registerAll (deadlines : List Rat) : List Action :=
  deadlines.map fun deadline => .register (.at deadline)
    ⟨some 0, ⟨fun _ => none, fun _ _ => none⟩, none, .function, ⟨none, .usable, none⟩,
      ⟨⟨none, .usable, none⟩, some 0, true, true⟩⟩

/-- A task is removed from the middle of the array, and the last one, which takes
its place, moves up. -/
theorem task_heap_middle :
    Exists fun state => machine.Reachable state ∧ state.heap.slots = [0, 1, 2, 3, 4, 5, 6] ∧
      (heapRemove state 3).heap.slots = [0, 6, 2, 1, 4, 5] ∧
      TaskHeap state.tasks (heapRemove state 3).heap ∧
      state.heap.slots.Perm (3 :: (heapRemove state 3).heap.slots) := by
  have ends : (machine.run .loaded (registerAll [1, 10, 2, 11, 12, 3, 4])).any (fun state =>
      decide (state.heap.slots = [0, 1, 2, 3, 4, 5, 6] ∧
        (heapRemove state 3).heap.slots = [0, 6, 2, 1, 4, 5])) = true := by
    decide +kernel
  rcases machine.exists_reachable rfl ends with ⟨state, reachable, slots, left⟩
  have queue := (task_heap.2 state reachable).1
  have member : 3 ∈ state.heap.slots := by
    rw [slots]
    decide
  rcases (task_heap.1 state queue).remove 3 member with ⟨stays, perm, _⟩
  exact ⟨state, reachable, slots, left, stays, perm⟩

end Scheduler
end ServiceRuntime
