import ServiceRuntime.Seri.Blocks
import ServiceRuntime.Seri.Values

namespace ServiceRuntime
namespace Seri

/-!
# The tables the encoder has met

Each table that is written gets the next number, and the address of its tag is
kept until the tag is marked.  The first `MAX_REFERENCE` of them are searched
one after the other in `r`; when there are more, all of them move to two Lua
tables.  `Hold` says what either representation stands for: the tables in the
order of their numbers, which count from one, and the addresses still kept.
-/

/-- `MAX_REFERENCE`. -/
def maxReference : Nat := 32

/-- `r`, the Lua tables at `ref_index` and above it, and `objectid`. -/
structure References where
  objectid : Nat
  linear : Nat -> Ref × Option Address
  ids : List (Ref × Nat)
  addresses : List (Nat × Address)

namespace References

def init : References where
  objectid := 0
  linear _ := (0, none)
  ids := []
  addresses := []

/-- The search of `lookup_ref`. -/
def numberOf (references : References) (ref : Ref) : Option Nat :=
  if references.objectid ≤ maxReference then
    ((List.range references.objectid).find?
      fun place => decide ((references.linear place).1 = ref)).map Nat.succ
  else references.ids.lookup ref

/-- The address `lookup_ref` finds with a number. -/
def addressOf (references : References) (id : Nat) : Option Address :=
  if references.objectid ≤ maxReference then (references.linear (id - 1)).2
  else references.addresses.lookup id

/-- `lookup_ref` takes the address of a tag it has marked away. -/
def forget (references : References) (id : Nat) : References :=
  if references.objectid ≤ maxReference then
    { references with
      linear := fun place =>
        if place = id - 1 then ((references.linear place).1, none) else references.linear place }
  else { references with addresses := references.addresses.filter fun row => decide (row.1 ≠ id) }

/-- The loop of `mark_table` that fills the two Lua tables. -/
def migrate (references : References) : References :=
  { references with
    ids := (List.range maxReference).map fun place => ((references.linear place).1, place + 1)
    addresses := (List.range maxReference).filterMap fun place =>
      (references.linear place).2.map fun address => (place + 1, address) }

/-- What `mark_table` does with a table and the address of its tag. -/
def add (references : References) (ref : Ref) (address : Address) : References :=
  let id := references.objectid
  let moved := if id = maxReference then references.migrate else references
  if id < maxReference then
    { moved with
      objectid := id + 1
      linear := fun place => if place = id then (ref, some address) else references.linear place }
  else
    { moved with
      objectid := id + 1
      ids := (ref, id + 1) :: moved.ids
      addresses := (id + 1, address) :: moved.addresses }

/-- What the references stand for. -/
structure Hold (references : References) (opened : List Ref) (placed : Nat -> Option Address) :
    Prop where
  count : references.objectid = opened.length
  distinct : opened.Nodup
  linear : opened.length ≤ maxReference -> forall place ref, opened[place]? = some ref ->
    references.linear place = (ref, placed (place + 1))
  ids : maxReference < opened.length -> forall ref,
    references.ids.lookup ref = (opened.idxOf? ref).map Nat.succ
  addresses : maxReference < opened.length -> forall place, place < opened.length ->
    references.addresses.lookup (place + 1) = placed (place + 1)

theorem init_hold (placed : Nat -> Option Address) : init.Hold [] placed where
  count := rfl
  distinct := List.nodup_nil
  linear := fun _ _ _ absent => nomatch absent
  ids := fun more => absurd more (Nat.not_lt_zero _)
  addresses := fun more => absurd more (Nat.not_lt_zero _)

variable {references : References} {opened : List Ref} {placed : Nat -> Option Address}

/-- The linear search finds a table at its place. -/
theorem Hold.find (hold : references.Hold opened placed) (few : opened.length ≤ maxReference)
    (ref : Ref) :
    ((List.range opened.length).find? fun place => decide ((references.linear place).1 = ref)) =
      opened.idxOf? ref := by
  have row (place : Nat) (inside : place < opened.length) :
      (references.linear place).1 = opened[place] := by
    rw [hold.linear few place opened[place] (List.getElem?_eq_getElem inside)]
  apply Option.ext
  intro place
  rw [List.find?_range_eq_some, List.idxOf?_eq_some_iff]
  constructor
  · rintro ⟨found, inside, first⟩
    have within := List.mem_range.mp inside
    refine ⟨within, ?_, ?_⟩
    · rw [← row place within]
      exact of_decide_eq_true found
    · intro earlier before same
      have missed := first earlier before
      rw [row earlier (Nat.lt_trans before within), same, decide_eq_true rfl] at missed
      cases missed
  · rintro ⟨within, same, first⟩
    refine ⟨?_, List.mem_range.mpr within, ?_⟩
    · rw [row place within, same]
      exact decide_eq_true rfl
    · intro earlier before
      rw [row earlier (Nat.lt_trans before within), Bool.not_eq_true']
      exact decide_eq_false (first earlier before)

theorem Hold.numberOf (hold : references.Hold opened placed) (ref : Ref) :
    references.numberOf ref = (opened.idxOf? ref).map Nat.succ := by
  unfold References.numberOf
  rw [hold.count]
  split
  · rename_i few
    rw [hold.find few]
  · rename_i many
    exact hold.ids (Nat.lt_of_not_le many) ref

theorem Hold.addressOf (hold : references.Hold opened placed) {place : Nat}
    (inside : place < opened.length) :
    references.addressOf (place + 1) = placed (place + 1) := by
  unfold References.addressOf
  rw [hold.count]
  split
  · rename_i few
    rw [Nat.add_sub_cancel, hold.linear few place _ (List.getElem?_eq_getElem inside)]
  · rename_i many
    exact hold.addresses (Nat.lt_of_not_le many) place inside

theorem lookup_filter_ne {rows : List (Nat × Address)} {id other : Nat} :
    (rows.filter fun row => decide (row.1 ≠ id)).lookup other =
      if other = id then none else rows.lookup other := by
  induction rows with
  | nil => rw [List.filter_nil, List.lookup_nil, ite_self]
  | cons row rows inductionHypothesis =>
      obtain ⟨key, address⟩ := row
      by_cases same : key = id
      · rw [List.filter_cons_of_neg (by simp only [same, ne_eq, not_true, decide_false,
          Bool.false_eq_true, not_false_eq_true]), inductionHypothesis]
        split
        · rfl
        · rename_i apart
          rw [List.lookup_cons, beq_false_of_ne (same ▸ apart : other ≠ key)]
      · have keeps : decide ((key, address).1 ≠ id) = true := decide_eq_true same
        rw [List.filter_cons, if_pos keeps, List.lookup_cons, List.lookup_cons,
          inductionHypothesis]
        by_cases hit : other = key
        · rw [hit, beq_self_eq_true]
          exact (if_neg same).symm
        · rw [beq_false_of_ne hit]

theorem Hold.forget (hold : references.Hold opened placed) {place : Nat} :
    (references.forget (place + 1)).Hold opened
      fun id => if id = place + 1 then none else placed id := by
  unfold References.forget
  rw [hold.count]
  split
  · rename_i few
    refine ⟨rfl, hold.distinct, ?_, ?_, ?_⟩
    · intro _ other ref present
      have row := hold.linear few other ref present
      change (if other = place + 1 - 1 then _ else _) = _
      rw [Nat.add_sub_cancel, row]
      by_cases same : other = place
      · rw [if_pos same, if_pos (congrArg Nat.succ same)]
      · rw [if_neg same, if_neg (fun equal => same (Nat.succ.inj equal))]
    · exact fun many => absurd few (Nat.not_le.mpr many)
    · exact fun many => absurd few (Nat.not_le.mpr many)
  · rename_i more
    have many := Nat.lt_of_not_le more
    refine ⟨rfl, hold.distinct, ?_, ?_, ?_⟩
    · exact fun few => absurd few more
    · exact fun _ => hold.ids many
    · intro _ other within
      change (references.addresses.filter _).lookup (other + 1) = _
      rw [lookup_filter_ne, hold.addresses many other within]

theorem lookup_map_numbered {rows : Nat -> Ref} {places : List Nat} {ref : Ref} :
    (places.map fun place => (rows place, place + 1)).lookup ref =
      (places.find? fun place => decide (rows place = ref)).map Nat.succ := by
  induction places with
  | nil => rfl
  | cons place places inductionHypothesis =>
      rw [List.map_cons, List.lookup_cons, List.find?_cons, inductionHypothesis]
      by_cases same : rows place = ref
      · rw [same, beq_self_eq_true, decide_eq_true rfl]
        rfl
      · rw [beq_false_of_ne (Ne.symm same), decide_eq_false same]

theorem lookup_filterMap_numbered {rows : Nat -> Option Address} {places : List Nat}
    {place : Nat} (member : place ∈ places) :
    (places.filterMap fun place => (rows place).map fun address => (place + 1, address)).lookup
      (place + 1) = rows place := by
  induction places with
  | nil => cases member
  | cons first places inductionHypothesis =>
      by_cases later : place ∈ places
      · rw [List.filterMap_cons]
        cases content : rows first with
        | none => exact inductionHypothesis later
        | some address =>
            change List.lookup (place + 1) ((first + 1, address) :: _) = _
            rw [List.lookup_cons]
            by_cases same : place = first
            · rw [same, beq_self_eq_true, content]
            · rw [beq_false_of_ne (fun equal => same (Nat.succ.inj equal))]
              exact inductionHypothesis later
      · obtain rfl : place = first := (List.mem_cons.mp member).resolve_right later
        rw [List.filterMap_cons]
        cases content : rows place with
        | some address => exact List.lookup_cons_self
        | none =>
            apply List.lookup_eq_none_iff.mpr
            intro row stored
            obtain ⟨other, present, shown⟩ := List.mem_filterMap.mp stored
            obtain ⟨address, _, rfl⟩ := Option.map_eq_some_iff.mp shown
            apply bne_iff_ne.mpr
            intro equal
            exact later (Nat.succ.inj equal ▸ present)

theorem idxOf?_append_singleton (opened : List Ref) (ref other : Ref) :
    (opened ++ [ref]).idxOf? other =
      (opened.idxOf? other).or (if ref = other then some opened.length else none) := by
  induction opened with
  | nil =>
      rw [List.nil_append, List.idxOf?_singleton, List.idxOf?_nil, Option.none_or]
      by_cases same : ref = other
      · rw [same, beq_self_eq_true, if_pos rfl, if_pos rfl]
        rfl
      · rw [beq_false_of_ne same, if_neg same]
        rfl
  | cons first opened inductionHypothesis =>
      rw [List.cons_append, List.idxOf?_cons, List.idxOf?_cons, inductionHypothesis]
      split
      · rfl
      · rw [Option.map_or]
        congr 1
        split <;> rfl

/-- The rows of the Lua tables after the first `MAX_REFERENCE` have moved. -/
theorem Hold.migrated (hold : references.Hold opened placed)
    (filled : opened.length = maxReference) :
    (forall ref, references.migrate.ids.lookup ref = (opened.idxOf? ref).map Nat.succ) ∧
      forall place, place < opened.length ->
        references.migrate.addresses.lookup (place + 1) = placed (place + 1) := by
  have few := Nat.le_of_eq filled
  constructor
  · intro ref
    unfold migrate
    rw [lookup_map_numbered, ← filled, hold.find few]
  · intro place inside
    unfold migrate
    rw [← filled, lookup_filterMap_numbered (List.mem_range.mpr inside),
      hold.linear few place _ (List.getElem?_eq_getElem inside)]

theorem Hold.add (hold : references.Hold opened placed) {ref : Ref} (fresh : ref ∉ opened)
    (address : Address) :
    (references.add ref address).Hold (opened ++ [ref])
      fun id => if id = opened.length + 1 then some address else placed id := by
  have distinct : (opened ++ [ref]).Nodup :=
    List.nodup_append.mpr ⟨hold.distinct, List.nodup_singleton ref, fun _ member _ last same =>
      fresh (List.mem_singleton.mp last ▸ same ▸ member)⟩
  have length : (opened ++ [ref]).length = opened.length + 1 := List.length_append
  unfold References.add
  rw [hold.count]
  dsimp only
  split
  · rename_i few
    refine ⟨length.symm, distinct, ?_, ?_, ?_⟩
    · intro _ place other present
      change (if place = opened.length then _ else _) = _
      by_cases last : place = opened.length
      · rw [last, List.getElem?_concat_length] at present
        obtain rfl := Option.some.inj present
        rw [if_pos last, last, if_pos rfl]
      · have inside := (List.getElem?_eq_some_iff.mp present).1
        rw [length] at inside
        rw [List.getElem?_append_left (by omega)] at present
        rw [if_neg last, hold.linear (Nat.le_of_lt few) place other present,
          if_neg (fun equal => last (Nat.succ.inj equal))]
    · intro many
      omega
    · intro many
      omega
  · rename_i more
    have rows : (forall other, (if opened.length = maxReference then references.migrate
          else references).ids.lookup other = (opened.idxOf? other).map Nat.succ) ∧
        forall place, place < opened.length ->
          (if opened.length = maxReference then references.migrate
            else references).addresses.lookup (place + 1) = placed (place + 1) := by
      split
      · exact hold.migrated ‹_›
      · have many : maxReference < opened.length := by omega
        exact ⟨hold.ids many, hold.addresses many⟩
    refine ⟨length.symm, distinct, ?_, ?_, ?_⟩
    · intro few
      omega
    · intro _ other
      change List.lookup other ((ref, opened.length + 1) :: _) = _
      rw [List.lookup_cons, rows.1, idxOf?_append_singleton]
      by_cases same : ref = other
      · have absent : opened.idxOf? other = none := List.idxOf?_eq_none_iff.mpr (same ▸ fresh)
        rw [same, beq_self_eq_true, absent, if_pos rfl]
        rfl
      · rw [beq_false_of_ne (Ne.symm same), if_neg same, Option.or_none]
    · intro _ place inside
      change List.lookup (place + 1) ((opened.length + 1, address) :: _) = _
      rw [List.lookup_cons]
      by_cases last : place = opened.length
      · rw [last, beq_self_eq_true, if_pos rfl]
      · rw [beq_false_of_ne (fun equal => last (Nat.succ.inj equal)),
          if_neg (fun equal => last (Nat.succ.inj equal)), rows.2 place (by omega)]

end References

end Seri
end ServiceRuntime
