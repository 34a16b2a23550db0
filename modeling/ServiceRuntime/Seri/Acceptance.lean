import ServiceRuntime.Seri.Delivery
import ServiceRuntime.Seri.Survey

namespace ServiceRuntime
namespace Seri

open Foundation

/-!
# What the decoder accepts

Whatever the bytes are and whatever memory is refused, the decoder only builds
values Lua could have built: no key is `nil`, NaN or there twice, no value is
`nil`, and every table that is named was made.  What a run returns is therefore
a graph like any other, and one that can be packed again.
-/

/-! ## Storing keeps a table in order -/

theorem rawset_subset {pairs : List (Value × Value)} {key value : Value} {pair : Value × Value}
    (member : pair ∈ rawset pairs key value) :
    pair ∈ pairs ∨ pair.2 = value ∧ value ≠ .nil ∧
      (pair.1 = key ∨ Exists fun old => (pair.1, old) ∈ pairs) := by
  unfold rawset at member
  split at member
  · exact Or.inl (List.mem_of_mem_filter member)
  rename_i filled
  split at member
  · rcases List.mem_map.mp member with ⟨old, present, same⟩
    split at same
    · rw [← same]
      exact Or.inr ⟨rfl, filled, Or.inr ⟨old.2, present⟩⟩
    · exact Or.inl (same ▸ present)
  · rcases List.mem_append.mp member with present | last
    · exact Or.inl present
    · rw [List.mem_singleton.mp last]
      exact Or.inr ⟨rfl, filled, Or.inl rfl⟩

/-- No two keys of the pairs are the same. -/
def Distinct (pairs : List (Value × Value)) : Prop :=
  pairs.Pairwise fun first second => first.1.rawEqual second.1 = false

theorem rawset_distinct {pairs : List (Value × Value)} {key value : Value}
    (distinct : Distinct pairs) : Distinct (rawset pairs key value) := by
  unfold rawset
  split
  · exact distinct.sublist List.filter_sublist
  split
  · apply List.pairwise_map.mpr
    apply distinct.imp
    intro first second apart
    have kept (pair : Value × Value) :
        (if pair.1.rawEqual key then (pair.1, value) else pair).1 = pair.1 := by
      split <;> rfl
    rw [kept, kept]
    exact apart
  · rename_i absent
    have fresh := List.any_eq_false.mp (Bool.eq_false_iff.mpr absent)
    apply List.pairwise_append.mpr
    refine ⟨distinct, List.pairwise_singleton _ _, ?_⟩
    intro pair member last only
    rw [List.mem_singleton.mp only]
    exact Bool.eq_false_iff.mpr (fresh pair member)

/-! ## The invariant of the decoder -/

/-- The value can be packed, and if it is a table, that table was made. -/
structure Value.Made (count : Nat) (value : Value) : Prop where
  supported : value.Supported
  within : forall ref, value.ref? = some ref -> ref < count

/-- A table holds what it may hold. -/
structure Orderly (count : Nat) (pairs : List (Value × Value)) : Prop where
  keyed : forall pair, pair ∈ pairs -> pair.1.IsKey ∧ pair.2 ≠ .nil
  distinct : Distinct pairs
  made : forall pair, pair ∈ pairs -> pair.1.Made count ∧ pair.2.Made count

/-- All tables hold what they may hold, and so does the slot at `ref_index`. -/
structure Reader.Lawful (reader : Reader) : Prop where
  tables : forall pairs, pairs ∈ reader.tables -> Orderly reader.tables.length pairs
  refs : forall marked, marked ∈ reader.refs.getD [] -> marked.2 < reader.tables.length

theorem Value.Made.later {count more : Nat} {value : Value} (made : value.Made count)
    (within : count ≤ more) : value.Made more :=
  ⟨made.supported, fun ref named => Nat.lt_of_lt_of_le (made.within ref named) within⟩

theorem Orderly.later {count more : Nat} {pairs : List (Value × Value)}
    (orderly : Orderly count pairs) (within : count ≤ more) : Orderly more pairs :=
  ⟨orderly.keyed, orderly.distinct, fun pair member =>
    ⟨(orderly.made pair member).1.later within, (orderly.made pair member).2.later within⟩⟩

theorem Orderly.rawset {count : Nat} {pairs : List (Value × Value)} {key value : Value}
    (orderly : Orderly count pairs) (isKey : key.IsKey) (keyMade : key.Made count)
    (valueMade : value.Made count) : Orderly count (rawset pairs key value) where
  keyed := by
    intro pair member
    rcases rawset_subset member with present | ⟨same, filled, named | ⟨old, present⟩⟩
    · exact orderly.keyed pair present
    · rw [same, named]
      exact ⟨isKey, filled⟩
    · rw [same]
      exact ⟨(orderly.keyed _ present).1, filled⟩
  distinct := rawset_distinct orderly.distinct
  made := by
    intro pair member
    rcases rawset_subset member with present | ⟨same, _, named | ⟨old, present⟩⟩
    · exact orderly.made pair present
    · rw [same, named]
      exact ⟨keyMade, valueMade⟩
    · rw [same]
      exact ⟨(orderly.made _ present).1, valueMade⟩

/-- With so many tables made, the program keeps the tables in order, makes more
of them, and returns what fits them; where it raises they are in order too. -/
def Builds {α : Type} (count : Nat) (fits : α -> Nat -> Prop) (program : Decoder α) : Prop :=
  forall reader, reader.Lawful -> count ≤ reader.tables.length ->
    Ends (fun value after => after.Lawful ∧ reader.tables.length ≤ after.tables.length ∧
      fits value after.tables.length) (fun _ after => after.Lawful) (program reader)

/-- A value fits when it is made. -/
def made (value : Value) (count : Nat) : Prop := value.Made count

section Rules

variable {α β : Type} {count : Nat} {fits : α -> Nat -> Prop} {suits : β -> Nat -> Prop}

theorem Builds.pure {value : α} (fit : forall more, count ≤ more -> fits value more) :
    Builds count fits (pure value : Decoder α) :=
  fun _ lawful within => ⟨lawful, Nat.le_refl _, fit _ within⟩

theorem Builds.raise {error : UnpackError} : Builds count fits (throw error : Decoder α) :=
  fun _ lawful _ => lawful

theorem Builds.bind {first : Decoder α} {next : α -> Decoder β}
    (starts : Builds count fits first)
    (follows : forall value more, count ≤ more -> fits value more ->
      Builds more suits (next value)) : Builds count suits (first >>= next) := by
  intro reader lawful within
  apply Ends.bind
  apply (starts reader lawful within).imp
  · intro value between ⟨stillLawful, early, fit⟩
    apply (follows value _ (Nat.le_trans within early) fit between stillLawful (Nat.le_refl _)).imp
    · intro _ after ⟨lawfulAfter, late, suit⟩
      exact ⟨lawfulAfter, Nat.le_trans early late, suit⟩
    · exact fun _ _ broken => broken
  · exact fun _ _ broken => broken

theorem Builds.split {condition : Prop} [Decidable condition] {first second : Decoder α}
    (yes : condition -> Builds count fits first) (no : ¬condition -> Builds count fits second) :
    Builds count fits (if condition then first else second) := by
  by_cases holds : condition
  · rw [if_pos holds]
    exact yes holds
  · rw [if_neg holds]
    exact no holds

/-- A reader with the same tables is as much in order. -/
theorem Reader.Lawful.frame {reader other : Reader} (lawful : reader.Lawful)
    (tables : other.tables = reader.tables) (refs : other.refs = reader.refs) : other.Lawful where
  tables := by
    rw [tables]
    exact lawful.tables
  refs := by
    rw [tables, refs]
    exact lawful.refs

/-- A step that returns with the same tables. -/
theorem Reader.Lawful.passes {reader other : Reader} {value : α} (lawful : reader.Lawful)
    (within : count ≤ reader.tables.length)
    (tables : other.tables = reader.tables) (refs : other.refs = reader.refs)
    (fit : forall more, count ≤ more -> fits value more) :
    other.Lawful ∧ reader.tables.length ≤ other.tables.length ∧ fits value other.tables.length :=
  ⟨lawful.frame tables refs, Nat.le_of_eq (congrArg List.length tables.symm),
    fit _ (tables ▸ within)⟩

end Rules

/-! ## Reading -/

section Programs

variable {α : Type} {count : Nat} {fits : α -> Nat -> Prop} {memory : Nat -> Bool}

/-- What is no table is made as soon as it can be packed. -/
theorem Value.Made.plain {value : Value} (supported : value.Supported)
    (plain : value.ref? = none) : value.Made count where
  supported
  within := by
    intro ref named
    rw [plain] at named
    cases named

/-- What lies on the stack was made. -/
def Stacked (stack : List Value) (count : Nat) : Prop :=
  forall value, value ∈ stack -> value.Made count

theorem Stacked.later {stack : List Value} {more : Nat} (stacked : Stacked stack count)
    (grown : count ≤ more) : Stacked stack more :=
  fun value member => (stacked value member).later grown

theorem Stacked.push {stack pushed : List Value} (stacked : Stacked stack count)
    (onTop : Stacked pushed count) : Stacked (stack ++ pushed) count :=
  fun value member => (List.mem_append.mp member).elim (stacked value) (onTop value)

theorem Stacked.one {value : Value} (valueMade : value.Made count) : Stacked [value] count :=
  fun _ member => List.mem_singleton.mp member ▸ valueMade

section Recursion

variable {unpackOne : List Value -> Decoder Value} (one : forall stack count,
  Stacked stack count -> Builds count made (unpackOne stack))

include one

end Recursion

end Programs

/-! ## The graph of a run -/

/-- The graph is what was unpacked: its values and the pairs of its tables. -/
def Shows (graph : Graph) (values : List Value) (reader : Reader) : Prop :=
  graph.roots = values ∧ graph.tables.map Table.pairs = reader.tables

/-- What is unpacked can be packed. -/
theorem Shows.supported {graph : Graph} {values : List Value} {reader : Reader}
    (shown : Shows graph values reader) (lawful : reader.Lawful)
    (stacked : Stacked values reader.tables.length) : graph.Supported := by
  rcases shown with ⟨roots, tables⟩
  refine ⟨fun root member => (stacked root (roots ▸ member)).supported, ?_⟩
  intro table member pair inside
  have listed : table.pairs ∈ reader.tables := tables ▸ List.mem_map_of_mem member
  have both := (lawful.tables _ listed).made pair inside
  exact ⟨both.1.supported, both.2.supported⟩

end Seri
end ServiceRuntime
