import ServiceRuntime.Log.Emit

namespace ServiceRuntime
namespace Log

open Foundation

/-!
# Priorities of journal lines

The journal reads a record line by line, and every line is to begin with the
priority of its level.  A record that fits has this form.  One that is cut may
lose the priority that stands behind its last newline: the mark is written over
it, and the journal reads a line that begins with points.
-/

/-- Every line with something in it begins with the priority. -/
def Prioritized (priority record : List UInt8) : Prop :=
  forall before after, record = before ++ after ->
    (before = [] ∨ before.getLast? = some newline) ->
    (Exists fun first => after.head? = some first ∧ first ≠ newline) -> priority <+: after

/-- The priority follows every newline that is not the last byte. -/
def Marked (priority text : List UInt8) : Prop :=
  forall before after, text = before ++ newline :: after -> after ≠ [] -> priority <+: after

theorem continued_marked {priority : List UInt8} (plain : newline ∉ priority) (message : List UInt8) :
    Marked priority (continued priority message) := by
  induction message with
  | nil =>
      intro before after same
      cases before <;> cases same
  | cons byte rest inductionHypothesis =>
      intro before after same filled
      rw [continued] at same
      split_ifs at same with goesOn
      · cases before with
        | nil => exact (List.cons.inj same).2 ▸ List.prefix_append _ _
        | cons first before =>
            -- A later newline lies behind the priority, which has none.
            rcases List.append_eq_append_iff.mp (List.cons.inj same).2 with
              ⟨middle, rfl, later⟩ | ⟨middle, early, later⟩
            · exact inductionHypothesis middle after later filled
            · cases middle with
              | nil => exact inductionHypothesis [] after later.symm filled
              | cons letter middle =>
                  obtain rfl := (List.cons.inj later).1
                  exact absurd (early ▸ List.mem_append_right _ List.mem_cons_self) plain
      · cases before with
        | nil =>
            rcases List.cons.inj same with ⟨ends, tail⟩
            have empty : rest = [] := by
              by_contra more
              exact goesOn ⟨ends, more⟩
            rw [empty] at tail
            exact absurd tail.symm filled
        | cons first before => exact inductionHypothesis before after (List.cons.inj same).2 filled

/-- A head without newlines changes nothing. -/
theorem Marked.behind {priority head text : List UInt8} (marked : Marked priority text)
    (plain : newline ∉ head) : Marked priority (head ++ text) := by
  intro before after same filled
  rcases List.append_eq_append_iff.mp same with ⟨middle, rfl, later⟩ | ⟨middle, early, later⟩
  · exact marked middle after later filled
  · cases middle with
    | nil => exact marked [] after later.symm filled
    | cons letter middle =>
        obtain rfl := (List.cons.inj later).1
        exact absurd (early ▸ List.mem_append_right _ List.mem_cons_self) plain

/-- A record that ends with its newline. -/
theorem Marked.prioritized {priority text : List UInt8} (marked : Marked priority text)
    (begins : priority <+: text) : Prioritized priority (text ++ [newline]) := by
  rintro before after same starts ⟨first, head, other⟩
  rcases starts with rfl | ends
  · rw [List.nil_append] at same
    exact same ▸ begins.trans (List.prefix_append _ _)
  · rcases List.getLast?_eq_some_iff.mp ends with ⟨earlier, rfl⟩
    -- What follows the newline is longer than the last one, so its end is.
    obtain ⟨middle, rfl⟩ : Exists fun middle => after = middle ++ [newline] := by
      rcases List.eq_nil_or_concat after with rfl | ⟨middle, last, rfl⟩
      · cases head
      · rw [List.concat_eq_append, ← List.append_assoc] at same
        have final := (List.append_inj' same rfl).2
        exact ⟨middle, by rw [List.concat_eq_append, ← final]⟩
    have filled : middle ≠ [] := by
      rintro rfl
      exact other (Option.some.inj head).symm
    rw [← List.append_assoc] at same
    have text_eq := (List.append_inj' same rfl).1
    rw [List.append_assoc] at text_eq
    exact (marked earlier middle text_eq filled).trans (List.prefix_append _ _)

/-! ## Records that are cut -/

section

variable {priority text mark : List UInt8} {limit : Nat}

/-- A newline that leaves room for the whole priority before the cut keeps it. -/
theorem Marked.cut (marked : Marked priority text) (markPlain : newline ∉ mark)
    (long : limit < text.length)
    (room : newline ∉ (text.take limit).drop (limit - priority.length)) :
    Marked priority (text.take limit ++ mark) := by
  intro before after same _
  rcases List.append_eq_append_iff.mp same with ⟨middle, -, later⟩ | ⟨middle, early, later⟩
  · exact absurd (later ▸ List.mem_append_right _ List.mem_cons_self) markPlain
  · cases middle with
    | nil => exact absurd (later ▸ List.mem_cons_self : newline ∈ [] ++ mark) markPlain
    | cons letter middle =>
        obtain ⟨rfl, rfl⟩ := List.cons.inj later
        have rest : text = before ++ newline :: (middle ++ text.drop limit) := by
          calc text = text.take limit ++ text.drop limit := (List.take_append_drop limit text).symm
            _ = before ++ newline :: (middle ++ text.drop limit) := by
              rw [early, List.append_assoc, List.cons_append]
        have more : middle ++ text.drop limit ≠ [] := by
          intro empty
          have spent := (List.append_eq_nil_iff.mp empty).2
          exact absurd (List.drop_eq_nil_iff.mp spent) (not_le.mpr long)
        have follows := marked before _ rest more
        have whole : priority.length ≤ middle.length := by
          by_contra short
          apply room
          have length := congrArg List.length early
          rw [List.length_take, List.length_append, List.length_cons, Nat.min_eq_left long.le] at length
          rw [early, List.drop_append_of_le_length (by omega)]
          exact List.mem_append_right _ List.mem_cons_self
        exact (List.prefix_of_prefix_length_le follows (List.prefix_append _ _) whole).trans
          (List.prefix_append _ _)

/-- A newline right before the cut begins a line with a broken priority. -/
theorem Marked.broken (marked : Marked priority text) (plain : newline ∉ priority)
    {point : UInt8} {points : List UInt8} (apart : point ∉ priority) (other : point ≠ newline)
    (long : limit < text.length) (positive : 0 < priority.length) (fits : priority.length ≤ limit)
    (late : newline ∈ (text.take limit).drop (limit - priority.length)) :
    ¬ Prioritized priority (text.take limit ++ (point :: points) ++ [newline]) := by
  rcases List.append_of_mem late with ⟨middle, tail, located⟩
  have whole : text.take limit =
      (text.take limit).take (limit - priority.length) ++ middle ++ newline :: tail := by
    rw [List.append_assoc, ← located, List.take_append_drop]
  have short : tail.length < priority.length := by
    have length := congrArg List.length located
    rw [List.length_drop, List.length_take, Nat.min_eq_left long.le, List.length_append,
      List.length_cons] at length
    omega
  intro prioritized
  generalize (text.take limit).take (limit - priority.length) ++ middle = before at whole
  have rest : text = before ++ newline :: (tail ++ text.drop limit) := by
    calc text = text.take limit ++ text.drop limit := (List.take_append_drop limit text).symm
      _ = before ++ newline :: (tail ++ text.drop limit) := by
        rw [whole, List.append_assoc, List.cons_append]
  have follows : priority <+: tail ++ text.drop limit := by
    apply marked before _ rest
    intro empty
    exact absurd (List.drop_eq_nil_iff.mp (List.append_eq_nil_iff.mp empty).2) (not_le.mpr long)
  have line : priority <+: tail ++ (point :: points ++ [newline]) := by
    apply prioritized (before ++ [newline])
    · rw [whole]
      simp only [List.append_assoc, List.cons_append, List.nil_append]
    · exact Or.inr List.getLast?_concat
    · cases tail with
      | nil => exact ⟨point, rfl, other⟩
      | cons first tail =>
          refine ⟨first, rfl, ?_⟩
          rintro rfl
          rcases follows with ⟨more, same⟩
          cases priority with
          | nil => cases positive
          | cons letter letters =>
              exact plain ((List.cons.inj same).1 ▸ List.mem_cons_self)
  rcases line with ⟨more, same⟩
  rcases List.append_eq_append_iff.mp same with ⟨between, whole', -⟩ | ⟨between, whole', ending⟩
  · rw [whole', List.length_append] at short
    omega
  · cases between with
    | nil =>
        rw [List.append_nil] at whole'
        exact absurd (whole' ▸ short) (lt_irrefl _)
    | cons letter between =>
        have here : point = letter := (List.cons.inj ending).1
        exact apart (here ▸ whole' ▸ List.mem_append_right _ List.mem_cons_self)

end

/-! ## The records of `emit` -/

theorem newline_not_priority (level : Level) : newline ∉ level.priority := by
  cases level <;> decide

theorem point_not_priority (level : Level) : byteOf '.' ∉ level.priority := by
  cases level <;> decide

theorem newline_not_intText (number : Int) : newline ∉ intText number := by
  intro member
  rcases List.mem_append.mp member with sign | digit
  · split_ifs at sign
    · exact absurd (List.mem_singleton.mp sign) (by decide)
    · cases sign
  · have isDigit := isDigit_of_mem_decimal digit
    revert isDigit
    decide

theorem Location.newline_not_text {location : Location} (plain : newline ∉ location.file) :
    newline ∉ location.text := by
  intro member
  rcases List.mem_append.mp member with head | last
  · rcases List.mem_append.mp head with file | line
    · exact plain file
    · rcases List.mem_cons.mp line with colon | number
      · exact absurd colon (by decide)
      · exact newline_not_intText _ number
  · exact absurd last (by decide)

/-- The record for the journal before its end is cut; a location keeps the room
`snprintf` gives it. -/
def unabridged (level : Level) (location : Option Location) (message : List UInt8) : List UInt8 :=
  (place (header level .journal) location).bytes ++ continued level.priority message

theorem place_journal (level : Level) {location : Option Location}
    (plain : forall given, location = some given -> newline ∉ given.file) :
    Exists fun rest => (place (header level .journal) location).bytes = level.priority ++ rest ∧
      newline ∉ level.priority ++ rest := by
  cases location with
  | none =>
      refine ⟨[], ?_, ?_⟩
      · rw [List.append_nil]
        exact header_journal level
      · rw [List.append_nil]
        exact newline_not_priority level
  | some location =>
      refine ⟨location.text.take (lineMax - 2 - (header level .journal).pos), ?_, ?_⟩
      · rw [place_bytes, header_journal]
      · intro member
        rcases List.mem_append.mp member with early | late
        · exact newline_not_priority level early
        · exact Location.newline_not_text (plain location rfl) (List.mem_of_mem_take late)

theorem unabridged_marked (level : Level) {location : Option Location}
    (plain : forall given, location = some given -> newline ∉ given.file) (message : List UInt8) :
    level.priority <+: unabridged level location message ∧
      Marked level.priority (unabridged level location message) := by
  rcases place_journal level plain with ⟨rest, head, headPlain⟩
  unfold unabridged
  rw [head]
  refine ⟨?_, (continued_marked (newline_not_priority level) message).behind headPlain⟩
  rw [List.append_assoc]
  exact List.prefix_append _ _

/-- What the journal gets, by whether the record fits. -/
theorem emit_journal (level : Level) (location : Option Location) (message : List UInt8) :
    Exists fun emitted => emit level .journal location (some message) = some emitted ∧
      emitted.record.bytes =
        if (unabridged level location message).length ≤ 4095 then
          unabridged level location message ++ [newline]
        else (unabridged level location message).take 4092 ++ truncatedMark ++ [newline] := by
  have bound := place_pos level .journal location
  rcases emit_bounded_of level .journal location message (bound.2.trans (by decide)) bound.1
    (place_asked level .journal location) with ⟨emitted, emits, bounded⟩
  exact ⟨emitted, emits, bounded.bytes⟩

/-- Every line of a journal record with something in it begins with the priority
of its level, exactly when the record fits or none of the three bytes before the
mark is a newline. -/
theorem priority_kept_iff {level : Level} {location : Option Location}
    (plain : forall given, location = some given -> newline ∉ given.file) (message : List UInt8) :
    Exists fun emitted => emit level .journal location (some message) = some emitted ∧
      (Prioritized level.priority emitted.record.bytes <->
        (unabridged level location message).length ≤ 4095 ∨
          newline ∉ ((unabridged level location message).take 4092).drop 4089) := by
  rcases emit_journal level location message with ⟨emitted, emits, bytes⟩
  rcases unabridged_marked level plain message with ⟨begins, marked⟩
  have length := priority_length level
  refine ⟨emitted, emits, ?_⟩
  rw [bytes]
  split_ifs with fits
  · exact ⟨fun _ => Or.inl fits, fun _ => marked.prioritized begins⟩
  · have long : 4092 < (unabridged level location message).length := by omega
    have limit : 4092 - level.priority.length = 4089 := by rw [length]
    constructor
    · intro prioritized
      refine Or.inr fun late => ?_
      rw [← limit] at late
      exact marked.broken (newline_not_priority level) (point_not_priority level) (by decide) long
        (by rw [length]; decide) (by rw [length]; decide) late prioritized
    · rintro (short | room)
      · exact absurd short fits
      · rw [← limit] at room
        apply (marked.cut (by decide) long room).prioritized
        have inside : level.priority <+: (unabridged level location message).take 4092 := by
          apply List.prefix_of_prefix_length_le begins (List.take_prefix _ _)
          rw [length, List.length_take]
          omega
        exact inside.trans (List.prefix_append _ _)

theorem priority_kept_iff_short :
    Exists fun emitted => emit .warn .journal none (some [97, newline, 98]) = some emitted ∧
      Prioritized Level.warn.priority emitted.record.bytes := by
  have plain : forall given, (none : Option Location) = some given -> newline ∉ given.file := by
    rintro given ⟨⟩
  rcases @priority_kept_iff .warn none plain [97, newline, 98] with ⟨emitted, emits, kept⟩
  exact ⟨emitted, emits, kept.mpr (Or.inl (by decide))⟩

theorem continued_plain {priority head : List UInt8} (plain : newline ∉ head) (rest : List UInt8) :
    continued priority (head ++ rest) = head ++ continued priority rest := by
  induction head with
  | nil => rfl
  | cons byte head inductionHypothesis =>
      have other : ¬ (byte = newline ∧ head ++ rest ≠ []) := by
        rintro ⟨rfl, -⟩
        exact plain List.mem_cons_self
      rw [List.cons_append, continued, if_neg other,
        inductionHypothesis fun member => plain (List.mem_cons_of_mem _ member)]
      rfl

/-- The newline is the last byte before the mark. -/
def badMessage : List UInt8 :=
  List.replicate 4088 (byteOf 'x') ++ newline :: List.replicate 10 (byteOf 'y')

theorem priority_lost :
    Exists fun emitted => emit .error .journal none (some badMessage) = some emitted ∧
      ¬ Prioritized Level.error.priority emitted.record.bytes := by
  have plain : forall given, (none : Option Location) = some given -> newline ∉ given.file := by
    rintro given ⟨⟩
  have head : newline ∉ List.replicate 4088 (byteOf 'x') := fun member =>
    absurd (List.eq_of_mem_replicate member) (by decide)
  have written : unabridged .error none badMessage =
      (Level.error.priority ++ List.replicate 4088 (byteOf 'x')) ++
        (newline :: (Level.error.priority ++ List.replicate 10 (byteOf 'y'))) := by
    have tail : continued Level.error.priority (newline :: List.replicate 10 (byteOf 'y')) =
        newline :: (Level.error.priority ++ List.replicate 10 (byteOf 'y')) := by decide
    have start : (place (header .error .journal) none).bytes = Level.error.priority :=
      header_journal .error
    unfold unabridged badMessage
    rw [start, continued_plain head, tail, List.append_assoc]
  have front : (Level.error.priority ++ List.replicate 4088 (byteOf 'x')).length = 4091 := by
    rw [List.length_append, priority_length, List.length_replicate]
  rcases emit_journal .error none badMessage with ⟨emitted, emits, bytes⟩
  rcases unabridged_marked .error plain badMessage with ⟨-, marked⟩
  have length : (unabridged .error none badMessage).length = 4105 := by
    rw [written, List.length_append, front, List.length_cons, List.length_append, priority_length,
      List.length_replicate]
  refine ⟨emitted, emits, ?_⟩
  rw [bytes, if_neg (by omega)]
  apply marked.broken (newline_not_priority .error) (point_not_priority .error) (by decide)
    (by omega) (by decide) (by decide)
  rw [priority_length, written]
  generalize Level.error.priority ++ List.replicate 4088 (byteOf 'x') = before at front
  rw [List.take_append, front, List.drop_append, List.length_take, front]
  exact List.mem_append_right _ List.mem_cons_self

end Log
end ServiceRuntime
