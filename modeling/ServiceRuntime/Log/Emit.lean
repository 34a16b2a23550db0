import Mathlib.Data.Nat.Log
import ServiceRuntime.Foundation.Text

namespace ServiceRuntime
namespace Log

open Foundation

/-!
# Log records

`emit` puts a record together in a buffer of `LOG_LINE_MAX` bytes: the header of
the format, the location of the caller, and the message, line by line, where
the journal gets its priority again after every newline.  What does not fit is
cut off and marked.

The buffer is the list of the bytes before `pos`.  The positions at which
`append` computes its room are noted, because the subtraction is one of
unsigned words.
-/

/-- `LOG_LINE_MAX`. -/
def lineMax : Nat := 4096

/-- `LOG_TRUNCATED`. -/
def truncatedMark : List UInt8 :=
  [byteOf '.', byteOf '.', byteOf '.']

def newline : UInt8 := 10

/-- The levels a record can have; `off` never passes `log_enabled`. -/
inductive Level where
  | debug
  | info
  | warn
  | error
  deriving DecidableEq, Repr

/-- `level_labels`. -/
def Level.label : Level -> List UInt8
  | debug => ['D', 'E', 'B', 'U', 'G'].map byteOf
  | info => ['I', 'N', 'F', 'O', ' '].map byteOf
  | warn => ['W', 'A', 'R', 'N', ' '].map byteOf
  | error => ['E', 'R', 'R', 'O', 'R'].map byteOf

/-- `journal_prefixes`: the priorities of syslog. -/
def Level.priority : Level -> List UInt8
  | debug => ['<', '7', '>'].map byteOf
  | info => ['<', '6', '>'].map byteOf
  | warn => ['<', '4', '>'].map byteOf
  | error => ['<', '3', '>'].map byteOf

/-- What `strftime` puts into its 32 bytes, and the milliseconds. -/
structure Stamp where
  text : List UInt8
  millis : Nat
  short : text.length < 32
  small : millis < 1000

/-- The format, with the clock the text format reads. -/
inductive Format where
  | text (stamp : Stamp)
  | journal

def Format.isJournal : Format -> Bool
  | text _ => false
  | journal => true

/-- `"%s:%d: "` is what a location prints as. -/
structure Location where
  file : List UInt8
  line : Int

/-- `%d`. -/
def intText (number : Int) : List UInt8 :=
  (if number < 0 then [byteOf '-'] else []) ++
    decimal (Nat.log 10 number.natAbs + 1) number.natAbs

def Location.text (location : Location) : List UInt8 :=
  location.file ++ (byteOf ':' :: intText location.line) ++ [byteOf ':', byteOf ' ']

/-- Subtraction of `size_t`. -/
def sizeSub (left right : Nat) : Nat :=
  (left + 2 ^ 64 - right % 2 ^ 64) % 2 ^ 64

/-- The buffer up to `pos`, and where room was asked for. -/
structure Record where
  bytes : List UInt8
  asked : List Nat

def Record.pos (record : Record) : Nat :=
  record.bytes.length

def append (record : Record) (text : List UInt8) : Record :=
  let room := sizeSub (lineMax - 1) record.pos
  { bytes := record.bytes ++ text.take (if room < text.length then room else text.length)
    asked := record.asked ++ [record.pos] }

/-- The beginning of the record: the priority, or `"%s.%03ld %s "`. -/
def header (level : Level) : Format -> Record
  | .journal => append ⟨[], []⟩ level.priority
  | .text stamp =>
      ⟨stamp.text ++ (byteOf '.' :: decimal 3 stamp.millis) ++ (byteOf ' ' :: level.label) ++
        [byteOf ' '], []⟩

/-- `snprintf` behind the header cuts what does not fit, and `pos` stays behind it.
It returns an `int`, so `count` is the length as long as that is at most
`INT_MAX`. -/
def place (record : Record) : Option Location -> Record
  | none => record
  | some location =>
      let size := sizeSub (lineMax - 1) record.pos
      let count := location.text.length
      { record with
        bytes := record.bytes ++
          location.text.take (if count < size then count else sizeSub (lineMax - 2) record.pos) }

def memchr (byte : UInt8) : List UInt8 -> Option Nat
  | [] => none
  | first :: rest => if first = byte then some 0 else (memchr byte rest).map (· + 1)

/-- The length of the chunk that begins a message. -/
def chunkLength (message : List UInt8) : Nat :=
  match memchr newline message with
  | some index => index + 1
  | none => message.length

theorem chunkLength_pos {message : List UInt8} (present : message ≠ []) : 0 < chunkLength message := by
  unfold chunkLength
  cases memchr newline message with
  | some index => exact Nat.succ_pos index
  | none => exact List.length_pos_of_ne_nil present

/-- The loop over the message; true when something was cut. -/
def body (isJournal : Bool) (priority message : List UInt8) (record : Record) : Record × Bool :=
  if _present : message = [] then (record, false)
  else
    let chunk := chunkLength message
    let rest := message.drop chunk
    let written := append record (message.take chunk)
    if written.pos - record.pos < chunk then (written, true)
    else if (memchr newline message).isSome && !rest.isEmpty && isJournal then
      let continued := append written priority
      if continued.pos - written.pos < priority.length then (continued, true)
      else body isJournal priority rest continued
    else body isJournal priority rest written
termination_by message.length
decreasing_by
  all_goals
    have positive := chunkLength_pos _present
    have nonempty := List.length_pos_of_ne_nil _present
    rw [List.length_drop]
    omega

structure Emitted where
  record : Record
  truncated : Bool

/-- What `emit` writes.  There is no message when `vsnprintf` fails, as it also
does for one longer than `INT_MAX`; no Lua string comes near that. -/
def emit (level : Level) (format : Format) (location : Option Location) :
    Option (List UInt8) -> Option Emitted
  | none => none
  | some formatted =>
      let message := formatted.take (lineMax - 1)
      let priority := if format.isJournal then level.priority else []
      let (record, cut) := body format.isJournal priority message (place (header level format) location)
      let truncated := decide (lineMax ≤ formatted.length) || cut
      let marked :=
        if truncated then
          append { record with bytes := record.bytes.take (lineMax - 1 - truncatedMark.length) }
            truncatedMark
        else record
      some ⟨{ marked with bytes := marked.bytes ++ [newline] }, truncated⟩

/-! ## The record without a bound -/

/-- The message with the priority after every newline that more bytes follow. -/
def continued (priority : List UInt8) : List UInt8 -> List UInt8
  | [] => []
  | byte :: rest =>
      if byte = newline ∧ rest ≠ [] then byte :: (priority ++ continued priority rest)
      else byte :: continued priority rest

/-! ## Appending -/

theorem sizeSub_eq {left right : Nat} (inside : right ≤ left) (small : left < 2 ^ 64) :
    sizeSub left right = left - right := by
  unfold sizeSub
  rw [Nat.mod_eq_of_lt (Nat.lt_of_le_of_lt inside small)]
  omega

/-- What is appended is cut at the last byte but one. -/
theorem append_bytes {record : Record} (inside : record.pos ≤ lineMax - 1) (text : List UInt8) :
    (append record text).bytes = (record.bytes ++ text).take (lineMax - 1) := by
  have room := sizeSub_eq inside (show lineMax - 1 < 2 ^ 64 by decide)
  have kept : record.bytes.take (lineMax - 1) = record.bytes := List.take_of_length_le inside
  unfold append
  dsimp only
  rw [room, List.take_append, kept]
  congr 1
  split
  · rfl
  · rename_i fits
    rw [List.take_of_length_le (le_refl _)]
    exact (List.take_of_length_le (not_lt.mp fits)).symm

theorem append_pos {record : Record} (inside : record.pos ≤ lineMax - 1) (text : List UInt8) :
    (append record text).pos ≤ lineMax - 1 := by
  unfold Record.pos
  rw [append_bytes inside, List.length_take]
  exact Nat.min_le_left _ _

/-- The test of `emit` finds out whether something was cut. -/
theorem append_short_iff {record : Record} (inside : record.pos ≤ lineMax - 1) (text : List UInt8) :
    (append record text).pos - record.pos < text.length <->
      lineMax - 1 < (record.bytes ++ text).length := by
  have length : (append record text).pos = min (lineMax - 1) (record.pos + text.length) := by
    unfold Record.pos
    rw [append_bytes inside, List.length_take, List.length_append]
  rw [length, List.length_append]
  unfold Record.pos at inside ⊢
  omega

theorem append_fits {record : Record} {text : List UInt8} (inside : record.pos ≤ lineMax - 1)
    (fits : ¬ (append record text).pos - record.pos < text.length) :
    (append record text).bytes = record.bytes ++ text := by
  rw [append_short_iff inside] at fits
  rw [append_bytes inside, List.take_of_length_le (not_lt.mp fits)]

/-! ## The loop -/

theorem memchr_some_take (message : List UInt8) : chunkLength message ≤ message.length := by
  unfold chunkLength
  induction message with
  | nil => exact le_refl _
  | cons byte rest inductionHypothesis =>
      unfold memchr
      split_ifs
      · exact Nat.succ_le_succ (Nat.zero_le _)
      · cases found : memchr newline rest with
        | none => exact le_refl _
        | some index =>
            rw [found] at inductionHypothesis
            exact Nat.succ_le_succ inductionHypothesis

/-- The message as the format wants it. -/
def prefixed (isJournal : Bool) (priority message : List UInt8) : List UInt8 :=
  if isJournal then continued priority message else message

theorem chunkLength_cons {byte : UInt8} (other : byte ≠ newline) (rest : List UInt8) :
    chunkLength (byte :: rest) = chunkLength rest + 1 := by
  unfold chunkLength
  rw [memchr, if_neg other]
  cases memchr newline rest with
  | none => rfl
  | some index => rfl

/-- One round of the loop: a chunk, and the priority where the message goes on. -/
theorem prefixed_chunk (isJournal : Bool) (priority message : List UInt8) :
    prefixed isJournal priority message = message.take (chunkLength message) ++
      ((if (memchr newline message).isSome && !(message.drop (chunkLength message)).isEmpty && isJournal
        then priority else []) ++
        prefixed isJournal priority (message.drop (chunkLength message))) := by
  cases isJournal with
  | false =>
      simp only [prefixed, Bool.and_false, Bool.false_eq_true, if_false, List.nil_append,
        List.take_append_drop]
  | true =>
      unfold prefixed
      simp only [if_true, Bool.and_true]
      induction message with
      | nil => rfl
      | cons byte rest inductionHypothesis =>
          by_cases ends : byte = newline
          · have found : memchr newline (byte :: rest) = some 0 := if_pos ends
            have chunk : chunkLength (byte :: rest) = 1 := by
              unfold chunkLength
              rw [found]
            rw [chunk, found, continued]
            cases rest with
            | nil => simp [continued]
            | cons next others => simp [ends]
          · have found : memchr newline (byte :: rest) = (memchr newline rest).map (· + 1) :=
              if_neg ends
            rw [chunkLength_cons ends, found, continued, if_neg fun both => ends both.1,
              inductionHypothesis, List.take_succ_cons, List.drop_succ_cons, Option.isSome_map,
              List.cons_append]

/-- The loop fills the buffer with what the record should be, up to its end. -/
structure Filled (record : Record) (target : List UInt8) (result : Record × Bool) : Prop where
  bytes : result.1.bytes = target.take (lineMax - 1)
  cut : result.2 = true <-> lineMax - 1 < target.length
  asked : forall pos, pos ∈ result.1.asked -> pos ∈ record.asked ∨ pos ≤ lineMax - 1

theorem Filled.of_short {record : Record} {text : List UInt8} (inside : record.pos ≤ lineMax - 1)
    (short : (append record text).pos - record.pos < text.length) (more : List UInt8) :
    Filled record (record.bytes ++ (text ++ more)) (append record text, true) := by
  have long := (append_short_iff inside text).mp short
  rw [← List.append_assoc]
  constructor
  · rw [append_bytes inside, List.take_append_of_le_length (Nat.le_of_lt long)]
  · rw [List.length_append]
    exact ⟨fun _ => Nat.lt_add_right _ long, fun _ => rfl⟩
  · intro pos member
    rcases List.mem_append.mp member with before | here
    · exact Or.inl before
    · exact Or.inr (List.mem_singleton.mp here ▸ inside)

theorem Filled.of_append {record : Record} {text tail : List UInt8} {result : Record × Bool}
    (inside : record.pos ≤ lineMax - 1)
    (fits : ¬ (append record text).pos - record.pos < text.length)
    (filled : Filled (append record text) ((append record text).bytes ++ tail) result) :
    Filled record (record.bytes ++ (text ++ tail)) result := by
  have whole := append_fits inside fits
  rw [whole, List.append_assoc] at filled
  refine ⟨filled.bytes, filled.cut, ?_⟩
  intro pos member
  rcases filled.asked pos member with before | low
  · rcases List.mem_append.mp before with earlier | here
    · exact Or.inl earlier
    · exact Or.inr (List.mem_singleton.mp here ▸ inside)
  · exact Or.inr low

theorem body_filled (isJournal : Bool) (priority message : List UInt8) (record : Record)
    (inside : record.pos ≤ lineMax - 1) :
    Filled record (record.bytes ++ prefixed isJournal priority message)
      (body isJournal priority message record) := by
  have chunkTaken : forall text : List UInt8, (text.take (chunkLength text)).length = chunkLength text :=
    fun text => List.length_take_of_le (memchr_some_take text)
  fun_induction body isJournal priority message record with
  | case1 record =>
      have nothing : prefixed isJournal priority [] = [] := by
        unfold prefixed continued
        exact ite_self _
      rw [nothing, List.append_nil]
      refine ⟨(List.take_of_length_le inside).symm, ?_, fun _ => Or.inl⟩
      exact ⟨fun impossible => absurd impossible Bool.false_ne_true,
        fun long => absurd long (not_lt.mpr inside)⟩
  | case2 message record present chunk written short =>
      rw [prefixed_chunk]
      apply Filled.of_short inside
      rw [chunkTaken]
      exact short
  | case3 message record present chunk rest written fits goesOn continued short =>
      rw [prefixed_chunk, if_pos goesOn]
      apply Filled.of_append inside
      · rw [chunkTaken]
        exact fits
      · exact Filled.of_short (append_pos inside _) short _
  | case4 message record present chunk rest written fits goesOn continued fits' inductionHypothesis =>
      rw [prefixed_chunk, if_pos goesOn]
      apply Filled.of_append inside
      · rw [chunkTaken]
        exact fits
      · exact Filled.of_append (append_pos inside _) fits'
          (inductionHypothesis (append_pos (append_pos inside _) _))
  | case5 message record present chunk rest written fits stays inductionHypothesis =>
      rw [prefixed_chunk, if_neg stays, List.nil_append]
      apply Filled.of_append inside
      · rw [chunkTaken]
        exact fits
      · exact inductionHypothesis (append_pos inside _)

/-! ## The whole record -/

/-- Cutting the message cuts the record at the same place or later. -/
theorem continued_take (priority message : List UInt8) (count : Nat) :
    continued priority (message.take count) <+: continued priority message ∧
      (message.take count).length ≤ (continued priority (message.take count)).length := by
  induction message generalizing count with
  | nil =>
      rw [List.take_nil]
      exact ⟨List.prefix_refl _, Nat.zero_le _⟩
  | cons byte rest inductionHypothesis =>
      cases count with
      | zero => exact ⟨List.nil_prefix, Nat.zero_le _⟩
      | succ count =>
          rcases inductionHypothesis count with ⟨shorter, longer⟩
          rw [List.take_succ_cons, continued, continued]
          by_cases ends : byte = newline ∧ rest.take count ≠ []
          · have goesOn : byte = newline ∧ rest ≠ [] :=
              ⟨ends.1, fun empty => ends.2 (by rw [empty, List.take_nil])⟩
            rw [if_pos ends, if_pos goesOn]
            refine ⟨?_, ?_⟩
            · exact (List.prefix_cons_inj byte).mpr ((List.prefix_append_right_inj _).mpr shorter)
            · simp only [List.length_cons, List.length_append]
              omega
          · rw [if_neg ends]
            refine ⟨?_, Nat.succ_le_succ longer⟩
            split_ifs with goesOn
            · have empty : rest.take count = [] := by
                by_contra filled
                exact ends ⟨goesOn.1, filled⟩
              rw [empty]
              exact (List.prefix_cons_inj byte).mpr List.nil_prefix
            · exact (List.prefix_cons_inj byte).mpr shorter

theorem prefixed_take (isJournal : Bool) (priority message : List UInt8) (count : Nat) :
    prefixed isJournal priority (message.take count) <+: prefixed isJournal priority message ∧
      (message.take count).length ≤ (prefixed isJournal priority (message.take count)).length := by
  cases isJournal with
  | false => exact ⟨List.take_prefix count message, le_refl _⟩
  | true => exact continued_take priority message count

/-- A record as it was meant if it fits, and otherwise cut and marked. -/
structure Bounded (target : List UInt8) (emitted : Emitted) : Prop where
  bytes : emitted.record.bytes =
    if target.length ≤ lineMax - 1 then target ++ [newline]
    else target.take (lineMax - 1 - truncatedMark.length) ++ truncatedMark ++ [newline]
  truncated : emitted.truncated = true <-> lineMax - 1 < target.length
  asked : forall pos, pos ∈ emitted.record.asked -> pos ≤ lineMax - 1

/-- The end of `emit`, with a record that the loop has filled. -/
theorem bounded_of_filled {record : Record} {target : List UInt8} {result : Record × Bool}
    {truncated : Bool} (asked : forall pos, pos ∈ record.asked -> pos ≤ lineMax - 1)
    (filled : forall pos, pos ∈ result.1.asked -> pos ∈ record.asked ∨ pos ≤ lineMax - 1)
    (cut : truncated = true <-> lineMax - 1 < target.length)
    (bytes : result.1.bytes = target.take (lineMax - 1)) :
    Bounded target
      ⟨{ (if truncated then
          append { result.1 with
            bytes := result.1.bytes.take (lineMax - 1 - truncatedMark.length) } truncatedMark
          else result.1) with
          bytes := (if truncated then
            append { result.1 with
              bytes := result.1.bytes.take (lineMax - 1 - truncatedMark.length) } truncatedMark
            else result.1).bytes ++ [newline] }, truncated⟩ := by
  have low : forall pos, pos ∈ result.1.asked -> pos ≤ lineMax - 1 := by
    intro pos member
    rcases filled pos member with before | below
    · exact asked pos before
    · exact below
  cases truncated with
  | false =>
      have fits : target.length ≤ lineMax - 1 :=
        not_lt.mp fun long => absurd (cut.mpr long) Bool.false_ne_true
      refine ⟨?_, cut, low⟩
      rw [if_pos fits]
      exact congrArg (· ++ [newline]) (bytes.trans (List.take_of_length_le fits))
  | true =>
      have long := cut.mp rfl
      have marker : truncatedMark.length = 3 := rfl
      have kept : result.1.bytes.take (lineMax - 1 - truncatedMark.length) =
          target.take (lineMax - 1 - truncatedMark.length) := by
        rw [bytes, List.take_take, Nat.min_eq_left (Nat.sub_le _ _)]
      have length : (target.take (lineMax - 1 - truncatedMark.length)).length =
          lineMax - 1 - truncatedMark.length := by
        rw [List.length_take, Nat.min_eq_left]
        exact (Nat.sub_le _ _).trans (Nat.le_of_lt long)
      have inside : Record.pos { result.1 with
          bytes := result.1.bytes.take (lineMax - 1 - truncatedMark.length) } ≤ lineMax - 1 := by
        unfold Record.pos
        dsimp only
        rw [kept, length]
        exact Nat.sub_le _ _
      refine ⟨?_, cut, ?_⟩
      · rw [if_neg (not_le.mpr long)]
        simp only [if_true]
        rw [append_bytes inside]
        dsimp only
        rw [kept, List.take_of_length_le]
        rw [List.length_append, length, marker]
        decide
      · intro pos member
        rcases List.mem_append.mp member with before | here
        · exact low pos before
        · exact List.mem_singleton.mp here ▸ inside

theorem emit_bounded_of (level : Level) (format : Format) (location : Option Location)
    (formatted : List UInt8) (inside : (place (header level format) location).pos ≤ lineMax - 1)
    (started : 0 < (place (header level format) location).pos)
    (asked : forall pos, pos ∈ (place (header level format) location).asked -> pos ≤ lineMax - 1) :
    Exists fun emitted => emit level format location (some formatted) = some emitted ∧
      Bounded ((place (header level format) location).bytes ++
        prefixed format.isJournal level.priority formatted) emitted := by
  have priorities : forall message : List UInt8,
      prefixed format.isJournal (if format.isJournal then level.priority else []) message =
        prefixed format.isJournal level.priority message := by
    intro message
    cases format.isJournal <;> rfl
  have filled := body_filled format.isJournal (if format.isJournal then level.priority else [])
    (formatted.take (lineMax - 1)) (place (header level format) location) inside
  rw [priorities] at filled
  rcases prefixed_take format.isJournal level.priority formatted (lineMax - 1) with ⟨shorter, longer⟩
  have same : (place (header level format) location).bytes ++
        prefixed format.isJournal level.priority (formatted.take (lineMax - 1)) <+:
      (place (header level format) location).bytes ++
        prefixed format.isJournal level.priority formatted :=
    (List.prefix_append_right_inj _).mpr shorter
  by_cases large : lineMax ≤ formatted.length
  · -- A message that overflows its own buffer overflows the record.
    have full : (formatted.take (lineMax - 1)).length = lineMax - 1 :=
      List.length_take_of_le (Nat.sub_le_of_le_add (Nat.le_succ_of_le large))
    have long : lineMax - 1 < ((place (header level format) location).bytes ++
        prefixed format.isJournal level.priority (formatted.take (lineMax - 1))).length := by
      rw [List.length_append]
      unfold Record.pos at started
      omega
    refine ⟨_, rfl, bounded_of_filled asked filled.asked ?_ ?_⟩
    · rw [decide_eq_true large, Bool.true_or]
      exact ⟨fun _ => Nat.lt_of_lt_of_le long same.length_le, fun _ => rfl⟩
    · rcases same with ⟨more, whole⟩
      rw [filled.bytes, ← whole, List.take_append_of_le_length (Nat.le_of_lt long)]
  · have uncut : formatted.take (lineMax - 1) = formatted := List.take_of_length_le (by omega)
    rw [uncut] at filled
    refine ⟨_, rfl, bounded_of_filled asked ?_ ?_ ?_⟩
    · rw [uncut]
      exact filled.asked
    · rw [decide_eq_false large, Bool.false_or, uncut]
      exact filled.cut
    · rw [uncut]
      exact filled.bytes

/-! ## The head of a record -/

theorem priority_length (level : Level) : level.priority.length = 3 := by
  cases level <;> rfl

theorem header_journal (level : Level) : (header level .journal).bytes = level.priority := by
  have room : Record.pos ⟨[], []⟩ ≤ lineMax - 1 := Nat.zero_le _
  unfold header
  rw [append_bytes room, List.nil_append, List.take_of_length_le]
  rw [priority_length]
  decide

theorem header_pos (level : Level) (format : Format) :
    0 < (header level format).pos ∧ (header level format).pos ≤ 42 := by
  cases format with
  | journal =>
      unfold Record.pos
      rw [header_journal, priority_length]
      decide
  | text stamp =>
      have labels : level.label.length = 5 := by cases level <;> rfl
      have short := stamp.short
      unfold Record.pos header
      simp only [List.length_append, List.length_cons, List.length_nil, decimal_length, labels]
      omega

theorem header_asked (level : Level) (format : Format) :
    forall pos, pos ∈ (header level format).asked -> pos ≤ lineMax - 1 := by
  intro pos member
  cases format with
  | journal =>
      rw [List.mem_singleton.mp member]
      exact Nat.zero_le _
  | text stamp => cases member

/-- Room is left for the location's terminator. -/
theorem place_bytes (level : Level) (format : Format) (location : Location) :
    (place (header level format) (some location)).bytes = (header level format).bytes ++
      location.text.take (lineMax - 2 - (header level format).pos) := by
  have bound := (header_pos level format).2
  have inside : (header level format).pos ≤ lineMax - 2 := bound.trans (by decide)
  unfold place
  dsimp only
  rw [sizeSub_eq (inside.trans (by decide)) (by decide), sizeSub_eq inside (by decide)]
  congr 1
  split_ifs with fits
  · rw [List.take_of_length_le (le_refl _), List.take_of_length_le]
    unfold lineMax at fits ⊢
    omega
  · rfl

theorem place_pos (level : Level) (format : Format) (location : Option Location) :
    0 < (place (header level format) location).pos ∧
      (place (header level format) location).pos ≤ lineMax - 2 := by
  have bound := header_pos level format
  cases location with
  | none => exact ⟨bound.1, bound.2.trans (by decide)⟩
  | some location =>
      unfold Record.pos at bound ⊢
      rw [place_bytes, List.length_append, List.length_take]
      unfold Record.pos lineMax
      omega

theorem place_asked (level : Level) (format : Format) (location : Option Location) :
    forall pos, pos ∈ (place (header level format) location).asked -> pos ≤ lineMax - 1 := by
  cases location with
  | none => exact header_asked level format
  | some location => exact header_asked level format

/-- The header and the location as they are meant. -/
def headText (level : Level) (format : Format) (location : Option Location) : List UInt8 :=
  (header level format).bytes ++ (location.map Location.text).getD []

theorem place_short {level : Level} {format : Format} {location : Option Location}
    (short : (headText level format location).length < 4092) :
    (place (header level format) location).bytes = headText level format location := by
  cases location with
  | none => exact (List.append_nil _).symm
  | some location =>
      rw [place_bytes, List.take_of_length_le]
      · rfl
      · unfold headText at short
        rw [List.length_append] at short
        simp only [Option.map_some, Option.getD_some] at short
        unfold lineMax Record.pos
        omega

/-- The record without a bound: header, location and message. -/
def whole (level : Level) (format : Format) (location : Option Location) (message : List UInt8) :
    List UInt8 :=
  headText level format location ++ prefixed format.isJournal level.priority message

/-- A record is what it was meant to be if that fits, and otherwise its first
4092 bytes and the mark; no computation of a size wraps around. -/
theorem emit_bounded {level : Level} {format : Format} {location : Option Location}
    (short : (headText level format location).length < 4092) (message : List UInt8) :
    Exists fun emitted => emit level format location (some message) = some emitted ∧
      emitted.record.bytes =
        (if (whole level format location message).length ≤ 4095 then
          whole level format location message ++ [newline]
        else (whole level format location message).take 4092 ++ truncatedMark ++ [newline]) ∧
      emitted.record.bytes.length ≤ 4096 ∧ emitted.record.bytes.getLast? = some newline ∧
      (emitted.truncated = true <-> 4095 < (whole level format location message).length) ∧
      (forall pos, pos ∈ emitted.record.asked -> pos ≤ 4095) := by
  have bound := place_pos level format location
  rcases emit_bounded_of level format location message (bound.2.trans (by decide)) bound.1
    (place_asked level format location) with ⟨emitted, emits, bounded⟩
  rw [place_short short] at bounded
  have bytes : emitted.record.bytes =
      if (whole level format location message).length ≤ 4095 then
        whole level format location message ++ [newline]
      else (whole level format location message).take 4092 ++ truncatedMark ++ [newline] :=
    bounded.bytes
  refine ⟨emitted, emits, bytes, ?_, ?_, bounded.truncated, bounded.asked⟩
  · rw [bytes]
    have marker : truncatedMark.length = 3 := rfl
    split_ifs with fits
    · rw [List.length_append, List.length_singleton]
      omega
    · rw [List.length_append, List.length_append, List.length_take, List.length_singleton, marker]
      omega
  · rw [bytes]
    split_ifs <;> exact List.getLast?_concat

/-- A message of the length of the buffer, in the journal. -/
theorem emit_bounded_long :
    Exists fun emitted => emit .error .journal none (some (List.replicate 5000 120)) = some emitted ∧
      emitted.record.bytes.length ≤ 4096 := by
  have short : (headText .error .journal none).length < 4092 := by decide
  rcases emit_bounded short (List.replicate 5000 120) with ⟨emitted, emits, -, bounded, -⟩
  exact ⟨emitted, emits, bounded⟩

end Log
end ServiceRuntime
