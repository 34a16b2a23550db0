import Mathlib.Data.Set.Card
import ServiceRuntime.Seri.Encoding
import ServiceRuntime.Seri.Exploration

namespace ServiceRuntime
namespace Seri

open Foundation

/-!
# When a pack comes through

`Visited` says what there is to be packed, without the order in which it is
done.  A pack comes through exactly when all of that can be written and Lua
refuses nothing to as many tables as there are; otherwise the error names
something that is really there.  A walk that came through has opened every
visited table, and none twice.
-/

/-- All that is packed of a table, one value after another. -/
def Content.parts (content : Content) : List Value :=
  content.items ++ content.entries.flatMap fun pair => [pair.1, pair.2]

/-- What `pack_one` may come to: the values, and what is packed of the tables
among them. -/
inductive Visited (heap : List Content) (roots : List Value) : Value -> Prop
  | root {value : Value} (member : value ∈ roots) : Visited heap roots value
  | part {ref : Ref} {value : Value} (visited : Visited heap roots (.table ref))
      (member : value ∈ (heap.getD ref (.plain [] [])).parts) : Visited heap roots value

/-- The tables that are packed. -/
def visitedTables (heap : List Content) (roots : List Value) : Set Ref :=
  fun ref => Visited heap roots (.table ref)

/-- Lua refuses it to one of the tables, and nothing to those before. -/
def Refused (grants : Nat -> Option Refusal) (heap : List Content) (roots : List Value)
    (refusal : Refusal) : Prop :=
  Exists fun number => number < (visitedTables heap roots).ncard ∧
    grants number = some refusal ∧ forall earlier, earlier < number -> grants earlier = none

/-- What an error says of the values is true. -/
def Blamed (grants : Nat -> Option Refusal) (heap : List Content) (roots : List Value) :
    PackError -> Prop
  | .lightFunctionOnly => Visited heap roots .closure
  | .unsupported typename => Visited heap roots (.other typename)
  | .raised => Exists fun ref => Visited heap roots (.table ref) ∧
      (heap.getD ref (.plain [] [])).raises = true
  | .stack => Refused grants heap roots .stack
  | .memory => Refused grants heap roots .memory
  | .assertion | .diverges => False

/-- Whatever is visited is one of the values or a part of some table. -/
theorem Visited.mem {heap : List Content} {roots : List Value} {value : Value}
    (visited : Visited heap roots value) : value ∈ roots ++ heap.flatMap Content.parts := by
  cases visited with
  | root member => exact List.mem_append_left _ member
  | @part ref _ _ member =>
      apply List.mem_append_right
      rw [List.getD_eq_getElem?_getD] at member
      cases found : heap[ref]? with
      | none =>
          rw [found] at member
          cases member
      | some content =>
          rw [found] at member
          exact List.mem_flatMap.mpr ⟨content, List.mem_of_getElem? found, member⟩

theorem visitedTables_finite (heap : List Content) (roots : List Value) :
    (visitedTables heap roots).Finite := by
  apply Set.Finite.subset ((roots ++ heap.flatMap Content.parts).filterMap Value.ref?).finite_toSet
  intro ref visited
  exact List.mem_filterMap.mpr ⟨_, Visited.mem visited, rfl⟩

/-! ## The invariant of the walk -/

section Survey

variable (grants : Nat -> Option Refusal) (heap : List Content) (roots : List Value)

/-- The opened tables are visited, all different, and nothing was refused them. -/
structure Walk.Listed (walk : Walk) : Prop where
  nodup : walk.opened.Nodup
  visited : forall ref, ref ∈ walk.opened -> Visited heap roots (.table ref)
  granted : forall number, number < walk.opened.length -> grants number = none

/-- A value that was walked over: it can be written, and is opened if it is a
table. -/
structure Vetted (walk : Walk) (value : Value) : Prop where
  supported : value.Supported
  met : Met walk value

/-- A table that was walked over. -/
structure Content.Vetted (content : Content) (walk : Walk) : Prop where
  unraised : content.raises = false
  parts : forall part, part ∈ content.parts -> Seri.Vetted walk part

/-- What has become of the walk over some values. -/
structure Surveyed (values : List Value) (before after : Walk) : Prop where
  grows : before.opened <+: after.opened
  listed : after.Listed grants heap roots
  vetted : forall value, value ∈ values -> Vetted after value
  opened : forall ref, ref ∈ after.opened -> ref ∉ before.opened ->
    (heap.getD ref (.plain [] [])).Vetted after

/-- Inside of open tables, the program walks over the values, or raises an error
that is true. -/
def Surveys {α : Type} (refs : List Ref) (values : List Value) (program : Walker α) : Prop :=
  forall walk, (forall ref, ref ∈ refs -> ref ∈ walk.opened) -> walk.Listed grants heap roots ->
    Ends (fun _ after => Surveyed grants heap roots values walk after)
      (fun error _ => error = .diverges ∨ Blamed grants heap roots error) (program walk)

end Survey

theorem Vetted.later {earlier later : Walk} {value : Value} (vetted : Vetted earlier value)
    (grows : earlier.opened <+: later.opened) : Vetted later value :=
  ⟨vetted.supported, fun ref named => grows.subset (vetted.met ref named)⟩

theorem Content.Vetted.later {content : Content} {earlier later : Walk}
    (vetted : content.Vetted earlier) (grows : earlier.opened <+: later.opened) :
    content.Vetted later :=
  ⟨vetted.unraised, fun part member => (vetted.parts part member).later grows⟩

section Rules

variable {α β : Type} {grants : Nat -> Option Refusal} {heap : List Content} {roots : List Value}
  {refs : List Ref} {values more : List Value}

/-- There are at least as many tables as are opened. -/
theorem Walk.Listed.length_le {walk : Walk} (listed : walk.Listed grants heap roots) :
    walk.opened.length ≤ (visitedTables heap roots).ncard := by
  calc walk.opened.length
      = (walk.opened.toFinset : Set Ref).ncard := by
        rw [Set.ncard_coe_finset, List.toFinset_card_of_nodup listed.nodup]
    _ ≤ (visitedTables heap roots).ncard := by
        apply Set.ncard_le_ncard _ (visitedTables_finite heap roots)
        intro ref member
        exact listed.visited ref (List.mem_toFinset.mp member)

/-- Nothing is opened, and the values were walked over before. -/
theorem Surveyed.same {walk after : Walk} (listed : walk.Listed grants heap roots)
    (same : after.opened = walk.opened) (vetted : forall value, value ∈ values ->
      Vetted walk value) : Surveyed grants heap roots values walk after where
  grows := same ▸ List.prefix_refl _
  listed := ⟨same ▸ listed.nodup, same ▸ listed.visited, same ▸ listed.granted⟩
  vetted := fun value member => (vetted value member).later (same ▸ List.prefix_refl _)
  opened := fun _ member absent => absurd (same ▸ member) absent

theorem Surveys.pure (value : α) :
    Surveys grants heap roots refs [] (pure value : Walker α) :=
  fun _ _ listed => Surveyed.same listed rfl fun _ absent => absurd absent List.not_mem_nil

theorem Surveys.raise {error : PackError} (blamed : Blamed grants heap roots error) :
    Surveys grants heap roots refs values (throw error : Walker α) :=
  fun _ _ _ => Or.inr blamed

theorem Surveys.bind {first : Walker α} {next : α -> Walker β}
    (starts : Surveys grants heap roots refs values first)
    (follows : forall value, Surveys grants heap roots refs more (next value)) :
    Surveys grants heap roots refs (values ++ more) (first >>= next) := by
  intro walk known listed
  apply Ends.bind
  apply (starts walk known listed).imp
  · intro value between early
    have still : forall ref, ref ∈ refs -> ref ∈ between.opened :=
      fun ref member => early.grows.subset (known ref member)
    apply (follows value between still early.listed).imp
    · intro _ after late
      refine ⟨early.grows.trans late.grows, late.listed, ?_, ?_⟩
      · intro value member
        rcases List.mem_append.mp member with before | behind
        · exact (early.vetted value before).later late.grows
        · exact late.vetted value behind
      · intro ref member fresh
        by_cases met : ref ∈ between.opened
        · exact (early.opened ref met fresh).later late.grows
        · exact late.opened ref member met
    · exact fun _ _ broken => broken
  · exact fun _ _ broken => broken

/-- The next table is one more. -/
theorem Walk.Listed.refused {walk : Walk} {ref : Ref} {refusal : Refusal}
    (listed : walk.Listed grants heap roots) (fresh : ref ∉ walk.opened)
    (visited : Visited heap roots (.table ref))
    (refused : grants walk.opened.length = some refusal) :
    Refused grants heap roots refusal := by
  refine ⟨walk.opened.length, ?_, refused, listed.granted⟩
  calc walk.opened.length
      < (insert ref walk.opened.toFinset : Finset Ref).card := by
        rw [Finset.card_insert_of_notMem (fun member => fresh (List.mem_toFinset.mp member)),
          List.toFinset_card_of_nodup listed.nodup]
        exact Nat.lt_succ_self _
    _ = ((insert ref walk.opened.toFinset : Finset Ref) : Set Ref).ncard :=
        (Set.ncard_coe_finset _).symm
    _ ≤ (visitedTables heap roots).ncard := by
        apply Set.ncard_le_ncard _ (visitedTables_finite heap roots)
        intro other member
        rcases Finset.mem_insert.mp member with rfl | member
        · exact visited
        · exact listed.visited other (List.mem_toFinset.mp member)

theorem Walk.Listed.opens {walk : Walk} {ref : Ref} (listed : walk.Listed grants heap roots)
    (fresh : ref ∉ walk.opened) (visited : Visited heap roots (.table ref))
    (granted : grants walk.opened.length = none) :
    Walk.Listed grants heap roots ⟨walk.tokens, walk.opened ++ [ref]⟩ where
  nodup := by
    apply List.nodup_append.mpr
    refine ⟨listed.nodup, List.nodup_singleton ref, ?_⟩
    intro one member other last same
    rw [List.mem_singleton.mp last] at same
    exact fresh (same ▸ member)
  visited := by
    intro other member
    rcases List.mem_append.mp member with early | last
    · exact listed.visited other early
    · exact List.mem_singleton.mp last ▸ visited
  granted := by
    intro number inside
    rw [List.length_append, List.length_singleton] at inside
    rcases Nat.lt_or_eq_of_le (Nat.le_of_lt_succ inside) with early | last
    · exact listed.granted number early
    · exact last ▸ granted

section Recursion

variable {one : List Frame -> Value -> Walker Unit}
  (surveys : forall frames value, Visited heap roots value ->
    Surveys grants heap roots (frames.map Frame.ref) [value] (one frames value))

include surveys

end Recursion

end Rules

/-- A walk that came through has walked over all there is. -/
theorem Surveyed.complete {grants : Nat -> Option Refusal} {heap : List Content}
    {roots : List Value} {walk : Walk}
    (surveyed : Surveyed grants heap roots roots ⟨[], []⟩ walk) {value : Value}
    (visited : Visited heap roots value) : Vetted walk value := by
  induction visited with
  | root member => exact surveyed.vetted _ member
  | part visited member inductionHypothesis =>
      have opened := inductionHypothesis.met _ rfl
      exact (surveyed.opened _ opened List.not_mem_nil).parts _ member

/-- It has opened the visited tables and no others. -/
theorem Surveyed.count {grants : Nat -> Option Refusal} {heap : List Content}
    {roots : List Value} {walk : Walk}
    (surveyed : Surveyed grants heap roots roots ⟨[], []⟩ walk) :
    (visitedTables heap roots).ncard = walk.opened.length := by
  have same : visitedTables heap roots = (walk.opened.toFinset : Set Ref) := by
    ext ref
    constructor
    · intro visited
      exact List.mem_toFinset.mpr ((surveyed.complete visited).met ref rfl)
    · intro member
      exact surveyed.listed.visited ref (List.mem_toFinset.mp member)
  rw [same, Set.ncard_coe_finset, List.toFinset_card_of_nodup surveyed.listed.nodup]

end Seri
end ServiceRuntime
