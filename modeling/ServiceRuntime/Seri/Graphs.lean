import ServiceRuntime.Seri.Walk

namespace ServiceRuntime
namespace Seri

open Foundation

/-!
# Value graphs

When two value graphs are the same, and how a table is put together again: first
the values of its array part, then its pairs, each stored under a key that is
not there yet.
-/

/-- What the encoder reads of a table without `__pairs`. -/
def Content.ofTable (table : Table) : Content := .plain table.items table.pairs

/-- The tables of a graph, as the encoder reads them. -/
def Graph.heap (graph : Graph) : List Content := graph.tables.map Content.ofTable

/-- The tables that can be reached from the values. -/
inductive Graph.Reaches (graph : Graph) : Ref -> Prop
  | root {value : Value} {ref : Ref} (member : value ∈ graph.roots)
      (named : value.ref? = some ref) : graph.Reaches ref
  | pair {outer ref : Ref} {table : Table} {pair : Value × Value} (reached : graph.Reaches outer)
      (found : graph.tables[outer]? = some table) (member : pair ∈ table.pairs)
      (named : pair.1.ref? = some ref ∨ pair.2.ref? = some ref) : graph.Reaches ref

/-- A pair with its tables renamed. -/
def renamePair (naming : Ref -> Ref) (pair : Value × Value) : Value × Value :=
  (pair.1.rename naming, pair.2.rename naming)

/-- The same values up to the names of the tables: a table stands for one table
only, and holds the pairs of the table it stands for. -/
def Isomorphic (graph : Graph) (values : List Value) (tables : List (List (Value × Value))) :
    Prop :=
  Exists fun naming : Ref -> Ref =>
    (forall first second, graph.Reaches first -> graph.Reaches second ->
      naming first = naming second -> first = second) ∧
    values = graph.roots.map (Value.rename naming) ∧
    forall ref table, graph.Reaches ref -> graph.tables[ref]? = some table ->
      Exists fun pairs => tables[naming ref]? = some pairs ∧
        pairs.Perm (table.pairs.map (renamePair naming))

/-! ## Storing pairs -/

/-- A key that is not there is stored behind the others. -/
theorem rawset_fresh {pairs : List (Value × Value)} {key value : Value}
    (fresh : forall pair, pair ∈ pairs -> pair.1.rawEqual key = false) :
    rawset pairs key value = if value = .nil then pairs else pairs ++ [(key, value)] := by
  unfold rawset
  by_cases nothing : value = .nil
  · rw [if_pos nothing, if_pos nothing]
    apply List.filter_eq_self.mpr
    intro pair member
    rw [fresh pair member]
    rfl
  · have absent : pairs.any (fun pair => pair.1.rawEqual key) = false := by
      apply List.any_eq_false.mpr
      intro pair member
      rw [fresh pair member]
      exact Bool.false_ne_true
    rw [if_neg nothing, if_neg nothing, absent]
    rfl

/-- Different indices are different keys. -/
theorem ofNat_distinct {first second : Nat} (less : first < second) (positive : 0 < first)
    (small : second < 2 ^ 53) :
    (Value.number (.ofNat first)).rawEqual (.number (.ofNat second)) = false := by
  apply Bool.eq_false_iff.mpr
  intro equal
  have same := Value.number.inj (rawEqual_ofNat (by omega) small equal)
  have one := Double.index?_ofNat positive (by omega : first < 2 ^ 53)
  rw [same, Double.index?_ofNat (by omega) small] at one
  have := Option.some.inj one
  omega

theorem rename_rawEqual {naming : Ref -> Ref} {first second : Value}
    (apart : forall one two, first.ref? = some one -> second.ref? = some two ->
      naming one = naming two -> one = two)
    (different : first.rawEqual second = false) :
    (first.rename naming).rawEqual (second.rename naming) = false := by
  cases first with
  | table one =>
      cases second with
      | table two =>
          apply decide_eq_false
          intro same
          have equal := apart one two rfl rfl (Value.table.inj same)
          exact of_decide_eq_false different (congrArg Value.table equal)
      | nil | boolean bool | number bits | string bytes | lightuserdata pointer
      | cfunction pointer | closure | other typename => exact different
  | number bits =>
      cases second with
      | table two => rfl
      | nil | boolean bool | number bits | string bytes | lightuserdata pointer
      | cfunction pointer | closure | other typename => exact different
  | nil | boolean bool | string bytes | lightuserdata pointer | cfunction pointer | closure
  | other typename =>
      cases second with
      | table two => rfl
      | nil | boolean bool | number bits | string bytes | lightuserdata pointer
      | cfunction pointer | closure | other typename => exact different

theorem rename_isKey {naming : Ref -> Ref} {value : Value} (key : value.IsKey) :
    (value.rename naming).IsKey := by
  cases value with
  | table ref => exact trivial
  | nil | boolean bool | number bits | string bytes | lightuserdata pointer | cfunction pointer
  | closure | other typename => exact key

/-! ## The parts of a table -/

/-- A table as it is put together again. -/
def rebuilt (naming : Ref -> Ref) (content : Content) : List (Value × Value) :=
  (numbered 1 content.items ++ content.entries).map (renamePair naming)

/-- What holds of the parts of a table: the keys are keys and different from each
other, and no entry is empty. -/
structure Content.Lawful (content : Content) : Prop where
  unraised : content.raises = false
  keyed : forall pair, pair ∈ content.entries -> pair.1.IsKey ∧ pair.2 ≠ .nil
  distinct : (numbered 1 content.items ++ content.entries).Pairwise
    fun first second => first.1.rawEqual second.1 = false

theorem ofTable_entries (table : Table) : (Content.ofTable table).entries = table.entries := by
  change table.pairs.filter (fun pair => !inArray table.items.length pair.1) = table.entries
  rw [Table.items_length]
  rfl

/-- The parts of a table are its pairs. -/
theorem ofTable_perm {table : Table} (small : table.objlen < 2 ^ 52) :
    (numbered 1 (Content.ofTable table).items ++ (Content.ofTable table).entries).Perm
      table.pairs := by
  rw [ofTable_entries]
  exact table.pairs_perm small

theorem ofTable_lawful {table : Table} (small : table.objlen < 2 ^ 52) :
    (Content.ofTable table).Lawful where
  unraised := rfl
  keyed := fun pair member => table.keyed pair (List.mem_of_mem_filter member)
  distinct := by
    -- on the keys of a table the order of the two does not matter
    have both : table.pairs.Pairwise fun first second =>
        first.1.rawEqual second.1 = false ∧ second.1.rawEqual first.1 = false := by
      refine List.Pairwise.imp_of_mem ?_ table.distinct
      intro first second member _ apart
      refine ⟨apart, ?_⟩
      apply Bool.eq_false_iff.mpr
      intro equal
      have reversed := Value.rawEqual_symm (table.keyed first member).1 equal
      rw [reversed] at apart
      cases apart
    have moved := (ofTable_perm small).symm.pairwise both And.symm
    exact moved.imp fun apart => apart.1

theorem Graph.heap_getD {graph : Graph} {ref : Ref} {table : Table}
    (found : graph.tables[ref]? = some table) :
    graph.heap.getD ref (.plain [] []) = Content.ofTable table := by
  unfold Graph.heap
  rw [List.getD_eq_getElem?_getD, List.getElem?_map, found]
  rfl

/-- What the encoder reads is a table of the graph, or nothing. -/
theorem Graph.heap_cases (graph : Graph) (ref : Ref) :
    graph.heap.getD ref (.plain [] []) = .plain [] [] ∨ Exists fun table =>
      table ∈ graph.tables ∧ graph.heap.getD ref (.plain [] []) = Content.ofTable table := by
  cases found : graph.tables[ref]? with
  | none =>
      left
      unfold Graph.heap
      rw [List.getD_eq_getElem?_getD, List.getElem?_map, found]
      rfl
  | some table => exact Or.inr ⟨table, List.mem_of_getElem? found, heap_getD found⟩

end Seri
end ServiceRuntime
