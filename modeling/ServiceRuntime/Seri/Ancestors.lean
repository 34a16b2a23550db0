import ServiceRuntime.Seri.Exploration
import ServiceRuntime.Seri.Reading

namespace ServiceRuntime
namespace Seri

open Foundation

/-!
# The ancestors of the decoder

The encoder counts every open table, the decoder leaves out those it reads a key
of: it goes up before it reads a key, and down again for the value.  A table
that is read as a key therefore takes the place of the table it is a key of, in
`ancestor`, and stays there.

So the decoder finds an open table at its level exactly if the reference is
clear; otherwise it finds another value, or nothing.
-/

/-- The number of open tables for the decoder. -/
def depthOf (frames : List Frame) : Nat := (frames.filter fun frame => !frame.onKey).length

/-- The table that is made for a table: the one at the place of its number. -/
def Walk.name (whole : Walk) (ref : Ref) : Ref := whole.opened.idxOf ref

theorem Walk.name_inj {whole : Walk} {first second : Ref} (opened : first ∈ whole.opened)
    (same : whole.name first = whole.name second) : first = second :=
  (List.idxOf_inj opened).mp same

/-! ## Levels -/

theorem depthOf_le (frames : List Frame) : depthOf frames ≤ frames.length :=
  List.length_filter_le _ _

theorem depthOf_append (frames : List Frame) (frame : Frame) :
    depthOf (frames ++ [frame]) = depthOf frames + (if frame.onKey then 0 else 1) := by
  unfold depthOf
  rw [List.filter_append, List.length_append]
  cases onKey : frame.onKey with
  | true => simp [onKey]
  | false => simp [onKey]

/-- Nobody is left through a key when as many tables are open for the decoder. -/
theorem depthOf_eq_length {frames : List Frame} :
    depthOf frames = frames.length ↔ frames.all (fun frame => !frame.onKey) = true := by
  unfold depthOf
  rw [List.length_filter_eq_length_iff, List.all_eq_true]

/-- A clear level is one for the decoder too. -/
theorem lt_depthOf_of_clear {frames : List Frame} {level : Nat} (inside : level < frames.length)
    (clear : clearAt frames level = true) : level < depthOf frames := by
  have first : (frames.take (level + 1)).all (fun frame => !frame.onKey) = true :=
    (Bool.and_eq_true_iff.mp clear).1
  have count : depthOf (frames.take (level + 1)) = level + 1 := by
    rw [depthOf_eq_length.mpr first, List.length_take]
    omega
  have part : depthOf (frames.take (level + 1)) ≤ depthOf frames :=
    List.Sublist.length_le ((List.take_sublist _ _).filter _)
  omega

theorem clearAt_append {frames : List Frame} {frame : Frame} {level : Nat}
    (inside : level < frames.length) : clearAt (frames ++ [frame]) level = clearAt frames level := by
  unfold clearAt
  rw [List.take_append_of_le_length inside, List.getElem?_append_left inside]

theorem clearAt_last (frames : List Frame) (frame : Frame) :
    clearAt (frames ++ [frame]) frames.length =
      (frames.all (fun frame => !frame.onKey) && !frame.onKey && !frame.dirty) := by
  unfold clearAt
  have all : (frames ++ [frame]).take (frames.length + 1) = frames ++ [frame] :=
    List.take_of_length_le (Nat.le_of_eq List.length_append)
  rw [all, List.getElem?_concat_length, List.all_append]
  simp only [List.all_cons, List.all_nil, Bool.and_true, Option.all_some]

/-- An open table is found at its level. -/
theorem levelOf_eq_some {frames : List Frame} {frame : Frame} {level : Nat}
    (distinct : (frames.map Frame.ref).Nodup) (few : frames.length < maxDepth)
    (standing : frames[level]? = some frame) : levelOf frames frame.ref = some level := by
  have inside := (List.getElem?_eq_some_iff.mp standing).1
  unfold levelOf
  rw [if_neg (by omega)]
  have named : (frames.map Frame.ref)[level]? = some frame.ref := by
    rw [List.getElem?_map, standing]
    rfl
  obtain ⟨within, same⟩ := List.getElem?_eq_some_iff.mp named
  rw [List.idxOf?_eq_some_iff]
  refine ⟨within, same, ?_⟩
  intro earlier less
  rw [← same]
  intro equal
  have := (List.Nodup.getElem_inj_iff distinct).mp equal
  omega

/-! ## Where the decoder finds them -/

/-- The ancestors of the decoder, while values inside the open tables are read. -/
structure Around (whole : Walk) (frames : List Frame) (stack : List Value) (reader : Reader) :
    Prop where
  depth : reader.depth = depthOf frames
  distinct : (frames.map Frame.ref).Nodup
  opened : forall frame, frame ∈ frames -> frame.ref ∈ whole.opened
  found : frames.length < maxDepth -> forall (level : Nat) (frame : Frame),
    frames[level]? = some frame -> clearAt frames level = true ->
      stack[reader.ancestor level]? = some (.table (whole.name frame.ref))
  lost : frames.length < maxDepth -> forall (level : Nat) (frame : Frame),
    frames[level]? = some frame -> clearAt frames level = false -> level < reader.depth ->
      stack[reader.ancestor level]? ≠ some (.table (whole.name frame.ref))

theorem Around.empty (whole : Walk) (stack : List Value) {reader : Reader} (depth : reader.depth = 0) :
    Around whole [] stack reader where
  depth := depth
  distinct := List.nodup_nil
  opened := fun _ absent => absurd absent List.not_mem_nil
  found := fun _ _ _ absent => nomatch absent
  lost := fun _ _ _ absent => nomatch absent

/-- A level is added only when the way in does not lead through a key. -/
theorem onKey_eq_false {onKey : Bool} {outer inner : Nat}
    (depth : inner = outer + (if onKey then 0 else 1)) (deeper : outer < inner) : onKey = false := by
  cases onKey with
  | false => rfl
  | true =>
      rw [if_pos rfl] at depth
      omega

/-- Below, the tables that are lost stay lost, whatever is pushed in the meantime. -/
theorem Around.lost_below {whole : Walk} {frames : List Frame} {stack more : List Value}
    {base : Reader} {level : Nat} {outer : Frame} (around : Around whole frames stack base)
    (few : frames.length < maxDepth) (standing : frames[level]? = some outer)
    (unclear : clearAt frames level = false) (lower : level < base.depth)
    (pushed : forall value, value ∈ more -> value ≠ .table (whole.name outer.ref)) :
    (stack ++ more)[base.ancestor level]? ≠ some (.table (whole.name outer.ref)) := by
  by_cases old : base.ancestor level < stack.length
  · rw [List.getElem?_append_left old]
    exact around.lost few level outer standing unclear lower
  · rw [List.getElem?_append_right (Nat.le_of_not_lt old)]
    intro located
    exact pushed _ (List.mem_of_getElem? located) rfl

/-- One more table is open. -/
theorem Around.inside {whole : Walk} {frames : List Frame} {stack more : List Value}
    {base reader : Reader} {frame : Frame} (around : Around whole frames stack base)
    (opened : frame.ref ∈ whole.opened) (fresh : frame.ref ∉ frames.map Frame.ref)
    (depth : reader.depth = base.depth + (if frame.onKey then 0 else 1))
    (kept : forall level, level < base.depth -> reader.ancestor level = base.ancestor level)
    (pushed : frames.length + 1 < maxDepth -> forall value, value ∈ more ->
      forall (level : Nat) (outer : Frame), frames[level]? = some outer ->
        clearAt frames level = false -> value ≠ .table (whole.name outer.ref))
    (clean : frame.onKey = false -> frame.dirty = false -> base.depth < maxDepth ->
      (stack ++ more)[reader.ancestor base.depth]? = some (.table (whole.name frame.ref)))
    (dirty : frames.length + 1 < maxDepth -> frame.onKey = false -> frame.dirty = true ->
      forall value, (stack ++ more)[reader.ancestor base.depth]? = some value ->
        value ∈ more ∧ value ≠ .table (whole.name frame.ref)) :
    Around whole (frames ++ [frame]) (stack ++ more) reader := by
  have length : (frames ++ [frame]).length = frames.length + 1 := List.length_append
  have shallow := depthOf_le frames
  rw [← around.depth] at shallow
  refine ⟨?_, ?_, ?_, ?_, ?_⟩
  · rw [depth, depthOf_append, around.depth]
  · rw [List.map_append]
    exact List.nodup_append.mpr ⟨around.distinct, List.nodup_singleton _, by
      rintro one member other last rfl
      exact fresh (List.mem_singleton.mp last ▸ member)⟩
  · intro other member
    rcases List.mem_append.mp member with before | last
    · exact around.opened other before
    · rw [List.mem_singleton.mp last]
      exact opened
  · intro few level outer standing clear
    rw [length] at few
    by_cases inside : level < frames.length
    · rw [List.getElem?_append_left inside] at standing
      rw [clearAt_append inside] at clear
      have below := lt_depthOf_of_clear inside clear
      rw [← around.depth] at below
      have located := around.found (by omega) level outer standing clear
      rw [kept level below, List.getElem?_append_left (List.getElem?_eq_some_iff.mp located).1]
      exact located
    · have bound := (List.getElem?_eq_some_iff.mp standing).1
      obtain rfl : level = frames.length := by omega
      rw [List.getElem?_concat_length] at standing
      cases standing
      simp only [clearAt_last, Bool.and_eq_true, Bool.not_eq_true'] at clear
      have wholeDepth := depthOf_eq_length.mpr clear.1.1
      rw [← around.depth] at wholeDepth
      rw [← wholeDepth]
      exact clean clear.1.2 clear.2 (by omega)
  · intro few level outer standing unclear below
    rw [length] at few
    by_cases inside : level < frames.length
    · rw [List.getElem?_append_left inside] at standing
      rw [clearAt_append inside] at unclear
      have apart : frame.ref ≠ outer.ref := by
        intro same
        exact fresh (same ▸ List.mem_map_of_mem (List.mem_of_getElem? standing))
      by_cases lower : level < base.depth
      · rw [kept level lower]
        exact around.lost_below (by omega) standing unclear lower fun value member =>
          pushed few value member level outer standing unclear
      · -- the level of the new table for the decoder
        obtain rfl : level = base.depth := by
          rw [depth] at below
          split at below <;> omega
        have notOnKey := onKey_eq_false depth below
        cases isDirty : frame.dirty with
        | false =>
            rw [clean notOnKey isDirty (by omega)]
            intro same
            exact apart (whole.name_inj opened (Value.table.inj (Option.some.inj same)))
        | true =>
            intro located
            exact pushed few _ (dirty few notOnKey isDirty _ located).1 _ outer standing unclear rfl
    · have bound := (List.getElem?_eq_some_iff.mp standing).1
      obtain rfl : level = frames.length := by omega
      rw [List.getElem?_concat_length] at standing
      cases standing
      have notOnKey := onKey_eq_false depth (Nat.lt_of_le_of_lt shallow below)
      have full : base.depth = frames.length := by
        rw [depth, notOnKey] at below
        simp only [Bool.false_eq_true, if_false] at below
        omega
      have isDirty : frame.dirty = true := by
        have straight := depthOf_eq_length.mp (around.depth.symm.trans full)
        rw [clearAt_last, straight, notOnKey] at unclear
        simpa using unclear
      intro located
      rw [← full] at located
      exact (dirty few notOnKey isDirty _ located).2 rfl

end Seri
end ServiceRuntime
