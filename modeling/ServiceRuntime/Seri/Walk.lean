import ServiceRuntime.Seri.Packer

namespace ServiceRuntime
namespace Seri

open Foundation

/-!
# The walk over the values

What the encoder writes, without saying how: a depth-first walk that gives every
value one token, or for a table it has not met the tokens of its array part and
of its pairs between two brackets.  The tables met so far are numbered in the
order in which they are opened.

A frame is an open table around the current value.  It tells whether the way in
leads through a key of the table, and whether another table was opened as a key
of it before; a reference to an ancestor is clear when neither the ancestor nor
a table around it is left through a key, and the ancestor has no such key.
-/

structure Frame where
  ref : Ref
  onKey : Bool
  dirty : Bool
  deriving DecidableEq, Repr

inductive Token where
  | scalar (value : Value)
  | ancestor (level : Nat) (ref : Ref) (clear : Bool)
  | shared (id : Nat)
  | opens (id size : Nat)
  | closes
  deriving DecidableEq, Repr

/-- The tokens so far, and the tables opened. -/
structure Walk where
  tokens : List Token
  opened : List Ref

abbrev Walker := EStateM PackError Walk

namespace Content

/-- The values of the array part. -/
def items : Content -> List Value
  | plain items _ => items
  | metapairs _ _ _ _ => []

/-- The pairs behind the array part. -/
def entries : Content -> List (Value × Value)
  | plain items pairs => pairs.filter fun pair => !inArray items.length pair.1
  | metapairs _ _ yields _ => yields.takeWhile fun pair => decide (pair.1 ≠ .nil)

/-- Whether a metamethod raises after the last pair. -/
def raises : Content -> Bool
  | plain _ _ => false
  | metapairs _ _ yields raises => raises && yields.all fun pair => decide (pair.1 ≠ .nil)

end Content

/-- The place of a table among the open ones, as far as the encoder looks. -/
def levelOf (frames : List Frame) (ref : Ref) : Option Nat :=
  if frames.length = 0 ∨ maxDepth ≤ frames.length then none
  else (frames.map Frame.ref).idxOf? ref

/-- Whether a reference to the ancestor at a level is clear. -/
def clearAt (frames : List Frame) (level : Nat) : Bool :=
  ((frames.take (level + 1)).all fun frame => !frame.onKey) &&
    (frames[level]?).all fun frame => !frame.dirty

def emit (token : Token) : Walker Unit := fun walk =>
  .ok () { walk with tokens := walk.tokens ++ [token] }

/-- A reference to a table that was met. -/
def meet (frames : List Frame) (ref : Ref) : Walker Bool := fun walk =>
  match levelOf frames ref with
  | some level =>
      (do
        emit (.ancestor level ref (clearAt frames level))
        pure true) walk
  | none =>
      match walk.opened.idxOf? ref with
      | some place =>
          (do
            emit (.shared (place + 1))
            pure true) walk
      | none => .ok false walk

/-- A table gets its number, unless Lua refuses it something. -/
def enlist (grants : Nat -> Option Refusal) (ref : Ref) : Walker Unit := fun walk =>
  if grants walk.opened.length = some .stack then .error .stack walk
  else if grants walk.opened.length = some .memory then .error .memory walk
  else .ok () { walk with opened := walk.opened ++ [ref] }

/-- The tag of the table that got the last number. -/
def emitOpens (size : Nat) : Walker Unit := fun walk =>
  emit (.opens walk.opened.length size) walk

/-- Whether a key is a table that was not met. -/
def unmet (key : Value) : Walker Bool := fun walk =>
  .ok (decide (Exists fun ref => key.ref? = some ref ∧ ref ∉ walk.opened)) walk

section Recursion

/-! `one` is the walk over one value, called recursively. -/

variable (one : List Frame -> Value -> Walker Unit)

def walkItems (frames : List Frame) : List Value -> Walker Unit
  | [] => pure ()
  | item :: items => do
      one frames item
      walkItems frames items

/-- A pair of an open table, and whether the table has a table as a key then. -/
def walkPair (frames : List Frame) (ref : Ref) (dirty : Bool) (pair : Value × Value) :
    Walker Bool := do
  let fresh ← unmet pair.1
  one (frames ++ [⟨ref, true, dirty⟩]) pair.1
  one (frames ++ [⟨ref, false, dirty || fresh⟩]) pair.2
  pure (dirty || fresh)

def walkPairs (frames : List Frame) (ref : Ref) (raises : Bool) :
    Bool -> List (Value × Value) -> Walker Unit
  | _, [] => if raises then throw .raised else emit .closes
  | dirty, pair :: pairs => do
      let dirty ← walkPair one frames ref dirty pair
      walkPairs frames ref raises dirty pairs

def walkContent (frames : List Frame) (ref : Ref) (content : Content) : Walker Unit := do
  emitOpens content.items.length
  walkItems one (frames ++ [⟨ref, false, false⟩]) content.items
  walkPairs one frames ref content.raises false content.entries

variable (grants : Nat -> Option Refusal) (heap : List Content)

def walkTable (frames : List Frame) (ref : Ref) : Walker Unit := do
  enlist grants ref
  walkContent one frames ref (heap.getD ref (.plain [] []))

def walkValue (frames : List Frame) (value : Value) : Walker Unit :=
  match value with
  | .closure => throw .lightFunctionOnly
  | .other typename => throw (.unsupported typename)
  | .table ref => do
      if ← meet frames ref then pure ()
      else walkTable one grants heap frames ref
  | .nil | .number _ | .boolean _ | .string _ | .lightuserdata _ | .cfunction _ =>
      emit (.scalar value)

end Recursion

def walkOne (grants : Nat -> Option Refusal) (heap : List Content) :
    Nat -> List Frame -> Value -> Walker Unit
  | 0, _, _ => throw .diverges
  | rounds + 1, frames, value => walkValue (walkOne grants heap rounds) grants heap frames value

def walkRoots (one : List Frame -> Value -> Walker Unit) : List Value -> Walker Unit
  | [] => pure ()
  | value :: values => do
      one [] value
      walkRoots one values

/-- The walk over all values: one level more than there are tables is enough. -/
def outline (grants : Nat -> Option Refusal) (heap : List Content) (values : List Value) :
    EStateM.Result PackError Walk Unit :=
  walkRoots (walkOne grants heap (heap.length + 1)) values ⟨[], []⟩

/-! ## The walk comes to an end -/

/-- The tables that are still to be met. -/
def unopened (size : Nat) (opened : List Ref) : Nat :=
  ((List.range size).filter fun ref => decide (ref ∉ opened)).length

/-- From a state with so many tables to be met, the walk meets more of them and
does not break off. -/
def Ending {α : Type} (size limit : Nat) (program : Walker α) : Prop :=
  forall walk, unopened size walk.opened ≤ limit ->
    Ends (fun _ after => unopened size after.opened ≤ unopened size walk.opened)
      (fun error _ => error.Proper) (program walk)

section Ending

variable {α β : Type} {size limit : Nat}

theorem Ending.pure (value : α) : Ending size limit (pure value : Walker α) :=
  fun _ _ => Nat.le_refl _

theorem Ending.bind {first : Walker α} {next : α -> Walker β} (starts : Ending size limit first)
    (follows : forall value, Ending size limit (next value)) :
    Ending size limit (first >>= next) := by
  intro walk within
  apply Ends.bind
  apply (starts walk within).imp
  · intro value between fewer
    apply (follows value between (Nat.le_trans fewer within)).imp
    · intro _ after later
      exact Nat.le_trans later fewer
    · intro error _ proper
      exact proper
  · intro error _ proper
    exact proper

theorem Ending.raise {error : PackError} (proper : error.Proper) :
    Ending size limit (throw error : Walker α) :=
  fun _ _ => proper

theorem emit_ending (token : Token) : Ending size limit (emit token) :=
  fun _ _ => Nat.le_refl _

theorem unmet_ending (key : Value) : Ending size limit (unmet key) :=
  fun _ _ => Nat.le_refl _

theorem unopened_append (size : Nat) (opened : List Ref) (ref : Ref) :
    unopened size (opened ++ [ref]) ≤ unopened size opened := by
  unfold unopened
  apply List.Sublist.length_le
  apply List.monotone_filter_right
  intro other absent
  have missing := of_decide_eq_true absent
  exact decide_eq_true fun member => missing (List.mem_append_left _ member)

/-- A table of the heap that is opened is no longer to be met. -/
theorem unopened_lt {size : Nat} {opened : List Ref} {ref : Ref} (inside : ref < size)
    (fresh : ref ∉ opened) : unopened size (opened ++ [ref]) < unopened size opened := by
  have split : ((List.range size).filter fun other => decide (other ∉ opened ++ [ref])) =
      ((List.range size).filter fun other => decide (other ∉ opened)).erase ref := by
    have nodup : ((List.range size).filter fun other => decide (other ∉ opened)).Nodup :=
      List.nodup_range.filter _
    rw [nodup.erase_eq_filter, List.filter_filter]
    apply List.filter_congr
    intro other _
    rw [Bool.eq_iff_iff]
    simp only [List.mem_append, List.mem_singleton, not_or, decide_eq_true_eq, Bool.and_eq_true,
      bne_iff_ne, ne_eq, And.comm]
  have member : ref ∈ (List.range size).filter fun other => decide (other ∉ opened) :=
    List.mem_filter.mpr ⟨List.mem_range.mpr inside, decide_eq_true fresh⟩
  unfold unopened
  rw [split, List.length_erase_of_mem member]
  exact Nat.sub_lt (List.length_pos_of_mem member) Nat.one_pos

section Recursion

variable {one : List Frame -> Value -> Walker Unit}
  (ending : forall frames value, Ending size limit (one frames value))

include ending

theorem walkItems_ending (frames : List Frame) (items : List Value) :
    Ending size limit (walkItems one frames items) := by
  induction items with
  | nil => exact Ending.pure ()
  | cons item items inductionHypothesis =>
      exact (ending frames item).bind fun _ => inductionHypothesis

theorem walkPair_ending (frames : List Frame) (ref : Ref) (dirty : Bool) (pair : Value × Value) :
    Ending size limit (walkPair one frames ref dirty pair) := by
  apply (unmet_ending pair.1).bind
  intro fresh
  apply (ending _ _).bind
  intro _
  exact (ending _ _).bind fun _ => Ending.pure _

theorem walkPairs_ending (frames : List Frame) (ref : Ref) (raises dirty : Bool)
    (pairs : List (Value × Value)) :
    Ending size limit (walkPairs one frames ref raises dirty pairs) := by
  induction pairs generalizing dirty with
  | nil =>
      unfold walkPairs
      split
      · exact Ending.raise ⟨PackError.noConfusion, PackError.noConfusion⟩
      · exact emit_ending .closes
  | cons pair pairs inductionHypothesis =>
      exact (walkPair_ending ending frames ref dirty pair).bind fun dirty =>
        inductionHypothesis dirty

theorem walkContent_ending (frames : List Frame) (ref : Ref) (content : Content) :
    Ending size limit (walkContent one frames ref content) := by
  have opens : Ending size limit (emitOpens content.items.length) := fun _ _ => Nat.le_refl _
  apply opens.bind
  intro _
  apply (walkItems_ending ending _ _).bind
  intro _
  exact walkPairs_ending ending _ _ _ _ _

end Recursion

variable {grants : Nat -> Option Refusal} {heap : List Content}

/-- A table of the heap leaves one table less to be met; any other is empty. -/
theorem walkTable_ending {one : List Frame -> Value -> Walker Unit} {walk : Walk}
    {frames : List Frame} {ref : Ref} (fresh : ref ∉ walk.opened)
    (within : unopened heap.length walk.opened ≤ limit)
    (ending : 0 < limit -> forall frames value,
      Ending heap.length (limit - 1) (one frames value)) :
    Ends (fun _ after => unopened heap.length after.opened ≤ unopened heap.length walk.opened)
      (fun error _ => error.Proper) (walkTable one grants heap frames ref walk) := by
  have grows := unopened_append heap.length walk.opened ref
  unfold walkTable
  apply Ends.bind
  unfold enlist
  split
  · exact ⟨PackError.noConfusion, PackError.noConfusion⟩
  split
  · exact ⟨PackError.noConfusion, PackError.noConfusion⟩
  · by_cases inside : ref < heap.length
    · have fewer := unopened_lt inside fresh
      apply (walkContent_ending (ending (by omega)) frames ref _ ⟨walk.tokens, walk.opened ++ [ref]⟩ (by
        change unopened heap.length (walk.opened ++ [ref]) ≤ limit - 1
        omega)).imp
      · intro _ after later
        exact Nat.le_trans later grows
      · intro error _ proper
        exact proper
    · have empty : heap.getD ref (.plain [] []) = .plain [] [] := by
        rw [List.getD_eq_getElem?_getD, List.getElem?_eq_none (Nat.le_of_not_lt inside)]
        rfl
      rw [empty]
      exact grows

/-- A table is met as an open one, or by its number, or it is not among the
opened ones. -/
theorem meet_cases (frames : List Frame) (ref : Ref) (walk : Walk) :
    (Exists fun level => levelOf frames ref = some level ∧ meet frames ref walk = .ok true
      { walk with tokens := walk.tokens ++ [.ancestor level ref (clearAt frames level)] }) ∨
      (Exists fun place => levelOf frames ref = none ∧ walk.opened.idxOf? ref = some place ∧
        meet frames ref walk = .ok true { walk with tokens := walk.tokens ++ [.shared (place + 1)] }) ∨
      levelOf frames ref = none ∧ ref ∉ walk.opened ∧ meet frames ref walk = .ok false walk := by
  unfold meet
  cases located : levelOf frames ref with
  | some level => exact Or.inl ⟨level, rfl, rfl⟩
  | none =>
      dsimp only
      cases numbered : walk.opened.idxOf? ref with
      | some place => exact Or.inr (Or.inl ⟨place, rfl, rfl, rfl⟩)
      | none => exact Or.inr (Or.inr ⟨rfl, List.idxOf?_eq_none_iff.mp numbered, rfl⟩)

theorem walkOne_ending {rounds : Nat} (frames : List Frame) (value : Value)
    (enough : limit < rounds) :
    Ending heap.length limit (walkOne grants heap rounds frames value) := by
  induction rounds generalizing frames value limit with
  | zero => exact absurd enough (Nat.not_lt_zero _)
  | succ rounds inductionHypothesis =>
      intro walk within
      change Ends _ _ (walkValue (walkOne grants heap rounds) grants heap frames value walk)
      cases value with
      | closure => exact ⟨PackError.noConfusion, PackError.noConfusion⟩
      | other typename => exact ⟨PackError.noConfusion, PackError.noConfusion⟩
      | table ref =>
          rcases meet_cases frames ref walk with
            ⟨level, _, met⟩ | ⟨place, _, _, met⟩ | ⟨_, fresh, missed⟩
          · change Ends _ _ ((meet frames ref >>= _) walk)
            rw [bind_of_ok met]
            exact Nat.le_refl _
          · change Ends _ _ ((meet frames ref >>= _) walk)
            rw [bind_of_ok met]
            exact Nat.le_refl _
          · change Ends _ _ ((meet frames ref >>= _) walk)
            rw [bind_of_ok missed]
            apply walkTable_ending fresh within
            intro positive frames value
            exact inductionHypothesis frames value (by omega)
      | nil | number bits | boolean bool | string bytes | lightuserdata pointer
      | cfunction pointer => exact Nat.le_refl _

theorem unopened_nil (size : Nat) : unopened size [] ≤ size := by
  unfold unopened
  calc ((List.range size).filter fun ref => decide (ref ∉ [])).length
      ≤ (List.range size).length := List.length_filter_le _ _
    _ = size := List.length_range

/-- The walk over all values never breaks off. -/
theorem outline_ends (grants : Nat -> Option Refusal) (heap : List Content)
    (values : List Value) :
    Ends (fun _ _ => True) (fun error _ => error.Proper) (outline grants heap values) := by
  have roots : Ending heap.length heap.length
      (walkRoots (walkOne grants heap (heap.length + 1)) values) := by
    induction values with
    | nil => exact Ending.pure ()
    | cons value values inductionHypothesis =>
        exact (walkOne_ending [] value (Nat.lt_succ_self _)).bind fun _ => inductionHypothesis
  apply (roots ⟨[], []⟩ (unopened_nil _)).imp
  · intro _ _ _
    trivial
  · intro error _ proper
    exact proper

end Ending

end Seri
end ServiceRuntime
