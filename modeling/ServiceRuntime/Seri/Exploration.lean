import ServiceRuntime.Seri.Graphs
import ServiceRuntime.Seri.Tokens

namespace ServiceRuntime
namespace Seri

open Foundation

/-!
# What the walk reaches

A walk over values that can be written comes through: it opens the tables of the
values, and of the tables it opens.  It only ever grows, by at least one byte for
every value.
-/

/-- The walk is nothing but longer. -/
structure Walk.Precedes (earlier later : Walk) : Prop where
  tokens : earlier.tokens <+: later.tokens
  opened : earlier.opened <+: later.opened

theorem Walk.Precedes.refl (walk : Walk) : walk.Precedes walk :=
  ⟨List.prefix_refl _, List.prefix_refl _⟩

theorem Walk.Precedes.trans {first second third : Walk} (begins : first.Precedes second)
    (ends : second.Precedes third) : first.Precedes third :=
  ⟨begins.tokens.trans ends.tokens, begins.opened.trans ends.opened⟩

theorem Walk.Precedes.mem {earlier later : Walk} (precedes : earlier.Precedes later) {ref : Ref}
    (member : ref ∈ earlier.opened) : ref ∈ later.opened :=
  precedes.opened.subset member

/-! ## The walk grows -/

/-- The program adds to the walk, and at least so many bytes. -/
def Grows {α : Type} (least : Nat) (program : Walker α) : Prop :=
  forall walk, Ends (fun _ after => walk.Precedes after ∧
    totalSize walk.tokens + least ≤ totalSize after.tokens) (fun _ _ => True) (program walk)

theorem totalSize_append (tokens more : List Token) :
    totalSize (tokens ++ more) = totalSize tokens + totalSize more := by
  unfold totalSize
  rw [List.map_append, List.sum_append]

theorem Walk.Precedes.totalSize_le {earlier later : Walk} (precedes : earlier.Precedes later) :
    totalSize earlier.tokens ≤ totalSize later.tokens := by
  obtain ⟨rest, whole⟩ := precedes.tokens
  rw [← whole, totalSize_append]
  exact Nat.le_add_right _ _

section Grows

variable {α β : Type} {least more : Nat}

theorem Grows.pure (value : α) : Grows 0 (pure value : Walker α) :=
  fun walk => ⟨.refl walk, Nat.le_refl _⟩

theorem Grows.raise (error : PackError) : Grows least (throw error : Walker α) :=
  fun _ => trivial

theorem Grows.bind {first : Walker α} {next : α -> Walker β} (starts : Grows least first)
    (follows : forall value, Grows more (next value)) : Grows (least + more) (first >>= next) := by
  intro walk
  apply Ends.bind
  apply (starts walk).imp
  · intro value between ⟨early, begun⟩
    apply (follows value between).imp
    · intro _ after ⟨late, rest⟩
      exact ⟨early.trans late, by omega⟩
    · intro _ _ _
      trivial
  · intro _ _ _
    trivial

theorem Grows.weaken {program : Walker α} (grows : Grows least program) (fewer : more ≤ least) :
    Grows more program := by
  intro walk
  apply (grows walk).imp
  · intro _ after ⟨precedes, begun⟩
    exact ⟨precedes, by omega⟩
  · intro _ _ _
    trivial

/-- A program that has come through has only added to the walk. -/
theorem Grows.of_ok {program : Walker α} {walk after : Walk} {value : α} (grows : Grows least program)
    (outcome : program walk = .ok value after) :
    walk.Precedes after ∧ totalSize walk.tokens + least ≤ totalSize after.tokens := by
  have ends := grows walk
  rw [outcome] at ends
  exact ends

theorem emit_grows {token : Token} (filled : least ≤ token.size) : Grows least (emit token) := by
  intro walk
  refine ⟨⟨List.prefix_append _ _, List.prefix_refl _⟩, ?_⟩
  rw [totalSize_append]
  change totalSize walk.tokens + least ≤ totalSize walk.tokens + (token.size + 0)
  omega

theorem unmet_grows (key : Value) : Grows 0 (unmet key) :=
  fun walk => ⟨.refl walk, Nat.le_refl _⟩

theorem enlist_grows (grants : Nat -> Option Refusal) (ref : Ref) : Grows 0 (enlist grants ref) := by
  intro walk
  unfold enlist
  split
  · trivial
  split
  · trivial
  · exact ⟨⟨List.prefix_refl _, List.prefix_append _ _⟩, Nat.le_refl _⟩

theorem emitOpens_grows (size : Nat) : Grows 1 (emitOpens size) :=
  fun walk => emit_grows (Nat.succ_le_succ (Nat.zero_le _)) walk

variable {one : List Frame -> Value -> Walker Unit}
  (grows : forall frames value, Grows 1 (one frames value))

include grows

theorem walkItems_grows (frames : List Frame) (items : List Value) :
    Grows items.length (walkItems one frames items) := by
  induction items with
  | nil => exact .pure ()
  | cons item items inductionHypothesis =>
      have both := (grows frames item).bind fun _ => inductionHypothesis
      exact both.weaken (Nat.le_of_eq (Nat.add_comm _ _))

theorem walkPair_grows (frames : List Frame) (ref : Ref) (dirty : Bool) (pair : Value × Value) :
    Grows 2 (walkPair one frames ref dirty pair) :=
  (unmet_grows pair.1).bind fun _ => (grows _ _).bind fun _ => (grows _ _).bind fun _ => .pure _

theorem walkPairs_grows (frames : List Frame) (ref : Ref) (raises dirty : Bool)
    (pairs : List (Value × Value)) : Grows 1 (walkPairs one frames ref raises dirty pairs) := by
  induction pairs generalizing dirty with
  | nil =>
      unfold walkPairs
      split
      · exact .raise _
      · exact emit_grows (Nat.le_refl 1)
  | cons pair pairs inductionHypothesis =>
      have both := (walkPair_grows grows frames ref dirty pair).bind inductionHypothesis
      exact both.weaken (Nat.le_add_left 1 2)

theorem walkContent_grows (frames : List Frame) (ref : Ref) (content : Content) :
    Grows (1 + (content.items.length + 1)) (walkContent one frames ref content) :=
  (emitOpens_grows _).bind fun _ => (walkItems_grows grows _ _).bind fun _ =>
    walkPairs_grows grows _ _ _ _ _

omit grows in
theorem shared_size (id : Nat) : 1 ≤ (Token.shared id).size := by
  rw [Token.size, Token.bytes_shared, List.length_append]
  exact Nat.le_add_right 1 _

omit grows in
theorem scalar_size {value : Value} (plain : value.ref? = none) (supported : value.Supported) :
    1 ≤ (Token.scalar value).size := by
  change 1 ≤ (scalarBytes value).length
  cases value with
  | nil | boolean bool => exact Nat.le_refl 1
  | number | lightuserdata | cfunction =>
      rw [scalarBytes, List.length_cons]
      exact Nat.le_add_left 1 _
  | string bytes =>
      rw [scalarBytes, stringBytes]
      split
      · rw [List.length_cons]
        exact Nat.le_add_left 1 _
      · split <;>
        · rw [List.cons_append, List.length_cons]
          exact Nat.le_add_left 1 _
  | table ref => cases plain
  | closure => exact False.elim supported
  | other typename => exact False.elim supported

theorem walkValue_grows (grants : Nat -> Option Refusal) (heap : List Content) (frames : List Frame)
    (value : Value) : Grows 1 (walkValue one grants heap frames value) := by
  cases value with
  | closure | other => exact .raise _
  | table ref =>
      intro walk
      change Ends _ _ ((meet frames ref >>= _) walk)
      rcases meet_cases frames ref walk with ⟨level, _, met⟩ | ⟨place, _, _, met⟩ | ⟨_, _, missed⟩
      · rw [bind_of_ok met]
        exact emit_grows (Nat.le_refl 1) walk
      · rw [bind_of_ok met]
        exact emit_grows (shared_size _) walk
      · rw [bind_of_ok missed]
        exact ((enlist_grows grants ref).bind fun _ => walkContent_grows grows _ _ _).weaken
          (by omega) walk
  | nil | boolean | number | string | lightuserdata | cfunction =>
      exact emit_grows (scalar_size rfl trivial)

end Grows

theorem walkOne_grows (grants : Nat -> Option Refusal) (heap : List Content) (rounds : Nat)
    (frames : List Frame) (value : Value) : Grows 1 (walkOne grants heap rounds frames value) := by
  induction rounds generalizing frames value with
  | zero => exact .raise _
  | succ rounds inductionHypothesis => exact walkValue_grows inductionHypothesis grants heap frames value

theorem walkRoots_grows (grants : Nat -> Option Refusal) (heap : List Content) (rounds : Nat)
    (values : List Value) : Grows 0 (walkRoots (walkOne grants heap rounds) values) := by
  induction values with
  | nil => exact .pure ()
  | cons value values inductionHypothesis =>
      have both := (walkOne_grows grants heap rounds [] value).bind fun _ => inductionHypothesis
      exact both.weaken (Nat.zero_le _)

/-! ## What is met -/

/-- If the value is a table, it is opened. -/
def Met (walk : Walk) (value : Value) : Prop :=
  forall ref, value.ref? = some ref -> ref ∈ walk.opened

theorem Met.later {earlier later : Walk} {value : Value} (met : Met earlier value)
    (precedes : earlier.Precedes later) : Met later value :=
  fun ref named => precedes.mem (met ref named)

/-- All that a table holds is met, and its array part is no longer than the
stream. -/
structure Content.Explored (content : Content) (walk : Walk) : Prop where
  long : content.items.length ≤ totalSize walk.tokens
  items : forall item, item ∈ content.items -> Met walk item
  entries : forall pair, pair ∈ content.entries -> Met walk pair.1 ∧ Met walk pair.2

theorem Content.Explored.later {content : Content} {earlier later : Walk}
    (explored : content.Explored earlier) (precedes : earlier.Precedes later) :
    content.Explored later where
  long := explored.long.trans precedes.totalSize_le
  items := fun item member => (explored.items item member).later precedes
  entries := fun pair member =>
    ⟨(explored.entries pair member).1.later precedes, (explored.entries pair member).2.later precedes⟩

/-- Only values that can be written, and no metamethod that raises. -/
structure Content.Supported (content : Content) : Prop where
  unraised : content.raises = false
  items : forall item, item ∈ content.items -> item.Supported
  entries : forall pair, pair ∈ content.entries -> pair.1.Supported ∧ pair.2.Supported

/-- What becomes of the walk: it grows, the values are met, and so is all that
the newly opened tables hold. -/
structure Reaches (heap : List Content) (values : List Value) (before after : Walk) : Prop where
  grows : before.Precedes after
  met : forall value, value ∈ values -> Met after value
  explored : forall ref, ref ∈ after.opened -> ref ∉ before.opened ->
    (heap.getD ref (.plain [] [])).Explored after

/-- Inside of open tables, the program comes through and meets the values. -/
def Explores {α : Type} (heap : List Content) (refs : List Ref) (values : List Value)
    (program : Walker α) : Prop :=
  forall walk, (forall ref, ref ∈ refs -> ref ∈ walk.opened) ->
    Ends (fun _ after => Reaches heap values walk after) (fun error _ => error = .diverges)
      (program walk)

section Rules

variable {α β : Type} {heap : List Content} {refs : List Ref} {values more : List Value}

theorem Explores.pure (value : α) : Explores heap refs [] (pure value : Walker α) :=
  fun walk _ => ⟨Walk.Precedes.refl walk, fun _ absent => absurd absent List.not_mem_nil,
    fun _ member absent => absurd member absent⟩

theorem Explores.bind {first : Walker α} {next : α -> Walker β}
    (starts : Explores heap refs values first)
    (follows : forall value, Explores heap refs more (next value)) :
    Explores heap refs (values ++ more) (first >>= next) := by
  intro walk known
  apply Ends.bind
  apply (starts walk known).imp
  · intro value between early
    apply (follows value between fun ref member => early.grows.mem (known ref member)).imp
    · intro _ after late
      refine ⟨early.grows.trans late.grows, ?_, ?_⟩
      · intro value member
        rcases List.mem_append.mp member with inFirst | inSecond
        · exact (early.met value inFirst).later late.grows
        · exact late.met value inSecond
      · intro ref member fresh
        by_cases met : ref ∈ between.opened
        · exact (early.explored ref met fresh).later late.grows
        · exact late.explored ref member met
    · intro _ _ broken
      exact broken
  · intro _ _ broken
    exact broken

/-- One token is added, and the values were met before. -/
theorem Reaches.token {walk : Walk} (token : Token)
    (met : forall value, value ∈ values -> Met walk value) :
    Reaches heap values walk { walk with tokens := walk.tokens ++ [token] } :=
  ⟨⟨List.prefix_append _ _, List.prefix_refl _⟩, met, fun _ member absent => absurd member absent⟩

theorem emit_explores (token : Token) : Explores heap refs [] (emit token) :=
  fun _ _ => Reaches.token token fun _ absent => absurd absent List.not_mem_nil

theorem unmet_explores (key : Value) : Explores heap refs [] (unmet key) :=
  fun walk _ => ⟨Walk.Precedes.refl walk, fun _ absent => absurd absent List.not_mem_nil,
    fun _ member absent => absurd member absent⟩

/-- The table at a level is one of the open ones. -/
theorem levelOf_mem {frames : List Frame} {ref : Ref} {level : Nat}
    (located : levelOf frames ref = some level) : ref ∈ frames.map Frame.ref := by
  unfold levelOf at located
  split at located
  · cases located
  · obtain ⟨inside, same, _⟩ := List.idxOf?_eq_some_iff.mp located
    exact same ▸ List.getElem_mem inside

theorem idxOf?_mem {refs : List Ref} {ref : Ref} {place : Nat}
    (numbered : refs.idxOf? ref = some place) : ref ∈ refs := by
  obtain ⟨inside, same, _⟩ := List.idxOf?_eq_some_iff.mp numbered
  exact same ▸ List.getElem_mem inside

theorem Met.of_mem {walk : Walk} {ref : Ref} (member : ref ∈ walk.opened) :
    forall value, value ∈ [Value.table ref] -> Met walk value := by
  intro value listed other named
  rw [List.mem_singleton.mp listed] at named
  rw [← Option.some.inj named]
  exact member

end Rules

section Recursion

variable {heap : List Content} {one : List Frame -> Value -> Walker Unit}
  (explores : forall frames value, value.Supported ->
    Explores heap (frames.map Frame.ref) [value] (one frames value))

include explores

theorem walkItems_explores (frames : List Frame) {items : List Value}
    (supported : forall item, item ∈ items -> item.Supported) :
    Explores heap (frames.map Frame.ref) items (walkItems one frames items) := by
  induction items with
  | nil => exact Explores.pure ()
  | cons item items inductionHypothesis =>
      obtain ⟨first, rest⟩ := List.forall_mem_cons.mp supported
      exact (explores frames item first).bind fun _ => inductionHypothesis rest

theorem walkPair_explores (frames : List Frame) (ref : Ref) (dirty : Bool) {pair : Value × Value}
    (supported : pair.1.Supported ∧ pair.2.Supported) :
    Explores heap (frames.map Frame.ref ++ [ref]) [pair.1, pair.2]
      (walkPair one frames ref dirty pair) := by
  have refs (onKey flag : Bool) : (frames ++ [Frame.mk ref onKey flag]).map Frame.ref =
      frames.map Frame.ref ++ [ref] := List.map_append
  unfold walkPair
  apply (unmet_explores pair.1).bind
  intro fresh
  have first := explores (frames ++ [⟨ref, true, dirty⟩]) pair.1 supported.1
  rw [refs] at first
  apply first.bind
  intro _
  have second := explores (frames ++ [⟨ref, false, dirty || fresh⟩]) pair.2 supported.2
  rw [refs] at second
  exact second.bind fun _ => Explores.pure _

theorem walkPairs_explores (frames : List Frame) (ref : Ref) (dirty : Bool)
    {pairs : List (Value × Value)}
    (supported : forall pair, pair ∈ pairs -> pair.1.Supported ∧ pair.2.Supported) :
    Explores heap (frames.map Frame.ref ++ [ref])
      (pairs.flatMap fun pair => [pair.1, pair.2])
      (walkPairs one frames ref false dirty pairs) := by
  induction pairs generalizing dirty with
  | nil => exact emit_explores .closes
  | cons pair pairs inductionHypothesis =>
      obtain ⟨first, rest⟩ := List.forall_mem_cons.mp supported
      exact (walkPair_explores explores frames ref dirty first).bind fun dirty =>
        inductionHypothesis dirty rest

theorem walkContent_explores (frames : List Frame) (ref : Ref) {content : Content}
    (supported : content.Supported) :
    Explores heap (frames.map Frame.ref ++ [ref])
      (content.items ++ content.entries.flatMap fun pair => [pair.1, pair.2])
      (walkContent one frames ref content) := by
  have opens : Explores heap (frames.map Frame.ref ++ [ref]) []
      (emitOpens content.items.length) := fun walk known => emit_explores _ walk known
  have items := walkItems_explores explores (frames ++ [⟨ref, false, false⟩]) supported.items
  rw [List.map_append] at items
  unfold walkContent
  rw [supported.unraised]
  exact opens.bind fun _ => items.bind fun _ =>
    walkPairs_explores explores frames ref false supported.entries

/-- A table that was not met is opened, and all that it holds is met. -/
theorem walkTable_explores (grows : forall frames value, Grows 1 (one frames value))
    {frames : List Frame} {ref : Ref} {walk : Walk}
    (known : forall other, other ∈ frames.map Frame.ref -> other ∈ walk.opened)
    (supported : (heap.getD ref (.plain [] [])).Supported) :
    Ends (fun _ after => Reaches heap [.table ref] walk after) (fun error _ => error = .diverges)
      (walkTable one (fun _ => none) heap frames ref walk) := by
  have opens : walk.Precedes ⟨walk.tokens, walk.opened ++ [ref]⟩ :=
    ⟨List.prefix_refl _, List.prefix_append _ _⟩
  have enters : forall other, other ∈ frames.map Frame.ref ++ [ref] ->
      other ∈ walk.opened ++ [ref] := by
    intro other member
    rcases List.mem_append.mp member with early | last
    · exact List.mem_append_left _ (known other early)
    · exact List.mem_append_right _ last
  change Ends _ _ (walkContent one frames ref (heap.getD ref (.plain [] []))
    ⟨walk.tokens, walk.opened ++ [ref]⟩)
  have ends := walkContent_explores explores frames ref supported
    ⟨walk.tokens, walk.opened ++ [ref]⟩ enters
  cases outcome : walkContent one frames ref (heap.getD ref (.plain [] []))
      ⟨walk.tokens, walk.opened ++ [ref]⟩ with
  | error error after =>
      rw [outcome] at ends
      exact ends
  | ok _ after =>
      rw [outcome] at ends
      have reaches := ends
      have size := ((walkContent_grows grows frames ref _).of_ok outcome).2
      have present : ref ∈ after.opened :=
        reaches.grows.mem (List.mem_append_right _ (List.mem_singleton_self ref))
      refine ⟨opens.trans reaches.grows, ?_, ?_⟩
      · intro value member other named
        rw [List.mem_singleton.mp member] at named
        rw [← Option.some.inj named]
        exact present
      · intro other member fresh
        by_cases same : other = ref
        · rw [same]
          constructor
          · omega
          · exact fun item inside => reaches.met item (List.mem_append_left _ inside)
          · intro pair inside
            have listed (value : Value) (part : value = pair.1 ∨ value = pair.2) :
                Met after value := by
              apply reaches.met
              apply List.mem_append_right
              apply List.mem_flatMap.mpr
              refine ⟨pair, inside, ?_⟩
              rw [List.mem_cons, List.mem_singleton]
              exact part
            exact ⟨listed _ (Or.inl rfl), listed _ (Or.inr rfl)⟩
        · apply reaches.explored other member
          intro early
          rcases List.mem_append.mp early with before | last
          · exact fresh before
          · exact same (List.mem_singleton.mp last)

end Recursion

/-- The walk over a value that can be written. -/
theorem walkOne_explores {heap : List Content}
    (supported : forall ref, (heap.getD ref (.plain [] [])).Supported) (rounds : Nat)
    (frames : List Frame) (value : Value) (writable : value.Supported) :
    Explores heap (frames.map Frame.ref) [value]
      (walkOne (fun _ => none) heap rounds frames value) := by
  induction rounds generalizing frames value with
  | zero => exact fun _ _ => rfl
  | succ rounds inductionHypothesis =>
      intro walk known
      change Ends _ _ (walkValue (walkOne (fun _ => none) heap rounds) (fun _ => none) heap frames
        value walk)
      cases value with
      | closure => exact False.elim writable
      | other typename => exact False.elim writable
      | table ref =>
          change Ends _ _ ((meet frames ref >>= _) walk)
          rcases meet_cases frames ref walk with
            ⟨level, located, met⟩ | ⟨place, _, numbered, met⟩ | ⟨_, _, missed⟩
          · rw [bind_of_ok met]
            exact Reaches.token _ (Met.of_mem (known ref (levelOf_mem located)))
          · rw [bind_of_ok met]
            exact Reaches.token _ (Met.of_mem (idxOf?_mem numbered))
          · rw [bind_of_ok missed]
            exact walkTable_explores inductionHypothesis (walkOne_grows _ heap rounds) known
              (supported ref)
      | nil | number bits | boolean bool | string bytes | lightuserdata pointer
      | cfunction pointer =>
          apply Reaches.token
          intro value member ref named
          rw [List.mem_singleton.mp member] at named
          cases named

theorem walkRoots_explores {heap : List Content} {values : List Value}
    (supported : forall ref, (heap.getD ref (.plain [] [])).Supported) (rounds : Nat)
    (writable : forall value, value ∈ values -> value.Supported) :
    Explores heap [] values (walkRoots (walkOne (fun _ => none) heap rounds) values) := by
  induction values with
  | nil => exact Explores.pure ()
  | cons value values inductionHypothesis =>
      obtain ⟨first, rest⟩ := List.forall_mem_cons.mp writable
      have one := walkOne_explores supported rounds [] value first
      exact one.bind fun _ => inductionHypothesis rest

/-- A walk over values that can be written comes through. -/
theorem outline_explored {heap : List Content} {values : List Value}
    (supported : forall ref, (heap.getD ref (.plain [] [])).Supported)
    (writable : forall value, value ∈ values -> value.Supported) :
    Exists fun walk => outline (fun _ => none) heap values = .ok () walk ∧
      (forall value, value ∈ values -> Met walk value) ∧
      forall ref, ref ∈ walk.opened -> (heap.getD ref (.plain [] [])).Explored walk := by
  have roots : Explores heap [] values
      (walkRoots (walkOne (fun _ => none) heap (heap.length + 1)) values) :=
    walkRoots_explores supported _ writable
  have ends := outline_ends (fun _ => none) heap values
  have reached := roots ⟨[], []⟩ fun _ absent => absurd absent List.not_mem_nil
  unfold outline at ends ⊢
  cases outcome : walkRoots (walkOne (fun _ => none) heap (heap.length + 1)) values ⟨[], []⟩ with
  | ok _ walk =>
      rw [outcome] at reached
      exact ⟨walk, rfl, reached.met, fun ref member => reached.explored ref member
        List.not_mem_nil⟩
  | error error walk =>
      rw [outcome] at reached ends
      exact absurd reached ends.2

end Seri
end ServiceRuntime
