import ServiceRuntime.Foundation.Gregorian
import ServiceRuntime.Foundation.Text

namespace ServiceRuntime
namespace Scheduler

open Foundation

/-!
# The timestamps of `scheduler:at`

`parse_at_string` splits a text with two patterns, consumes its tail piece by
piece and computes the epoch from the calendar, or asks the local time library
when there is no zone.  Over it stands what a timestamp is: a moment on the
proleptic Gregorian calendar and a zone, written down in the one way the
documentation gives.
-/

/-! ## The calendar of the source -/

def isLeapYear (year : Int) : Bool :=
  decide (year % 4 = 0) && (decide (year % 100 ≠ 0) || decide (year % 400 = 0))

/-- `days[month]`, for a month of the year. -/
def daysInMonth (year month : Int) : Int :=
  let days : List Int :=
    [31, if isLeapYear year then 29 else 28, 31, 30, 31, 30, 31, 31, 30, 31, 30, 31]
  days.getD (month - 1).toNat 0

/-- Gregorian date to days since 1970-01-01.  `parse_at_string` has years from 1
to 9999; the doubles of the source are these integers up to year 2.4e13, where
the days reach `2^53`. -/
def daysFromCivil (year month day : Int) : Int :=
  let year := year - if month ≤ 2 then 1 else 0
  let era := year / 400
  let yearOfEra := year - era * 400
  let monthPrime := month + if 2 < month then -3 else 9
  let dayOfYear := (153 * monthPrime + 2) / 5 + day - 1
  let dayOfEra := yearOfEra * 365 + yearOfEra / 4 - yearOfEra / 100 + dayOfYear
  era * 146097 + dayOfEra - 719468

theorem daysInMonth_eq {year month : Int} (inYear : 1 ≤ month ∧ month ≤ 12) :
    daysInMonth year month = monthLength year month := by
  rcases inYear with ⟨january, december⟩
  interval_cases month <;> rfl

/-- The days before a month: 31 a month, less what the shorter ones lack. -/
theorem monthsLength_eq (year : Int) {months : Nat} (inYear : months ≤ 11) :
    monthsLength year months = (153 * ((months : Int) + if months ≤ 1 then 10 else -2) + 2) / 5 +
      if months ≤ 1 then -306 else yearLength year - 306 := by
  have length := yearLength_cases year
  have february := monthLength_february year
  unfold yearLength at length ⊢
  interval_cases months <;> simp [monthsLength, monthLength] <;> split_ifs <;> omega

/-- The source's formula is the day number of the calendar. -/
theorem daysFromCivil_eq (date : CivilDate) (inYear : 1 ≤ date.month ∧ date.month ≤ 12) :
    daysFromCivil date.year date.month date.day = date.dayNumber := by
  rcases date with ⟨year, month, day⟩
  rcases inYear with ⟨january, december⟩
  dsimp only at january december ⊢
  obtain ⟨months, rfl⟩ : Exists fun months : Nat => month = months + 1 :=
    ⟨(month - 1).toNat, by omega⟩
  have before : ((months : Int) + 1 - 1).toNat = months := by omega
  have length := yearLength_cases year
  unfold CivilDate.dayNumber daysFromCivil
  dsimp only
  rw [yearStart_eq, daysBeforeYear, before, monthsLength_eq year (by omega)]
  by_cases early : months ≤ 1
  · rw [if_pos (by omega), if_neg (by omega), if_pos early, if_pos early]
    omega
  · rw [if_neg (by omega), if_pos (by omega), if_neg early, if_neg early]
    omega

/-! ## Local time -/

/-- The fields of the tables `os.time` takes and `os.date("*t")` makes. -/
structure LocalFields where
  year : Int
  month : Int
  day : Int
  hour : Int
  min : Int
  sec : Int
  deriving DecidableEq, Repr

/-- `os.time`, which may return nil, and `os.date("*t", _)`, which may raise. -/
structure LocalTime where
  time : LocalFields -> Option Int
  date : Int -> Option LocalFields

/-! ## The parser -/

abbrev LuaText := List UInt8

def isByte (letter : Char) (byte : UInt8) : Bool :=
  byte == byteOf letter

/-- The set `[T ]`. -/
def isSeparator (byte : UInt8) : Bool :=
  byte == byteOf 'T' || byte == byteOf ' '

/-- The set `[+-]`. -/
def isSign (byte : UInt8) : Bool :=
  byte == byteOf '+' || byte == byteOf '-'

def digits (count : Nat) : List (UInt8 -> Bool) :=
  List.replicate count isDigit

/-- `(%d%d%d%d%-%d%d%-%d%d[T ]%d%d:%d%d:%d%d)(.*)` -/
def timestampPattern : List (Item UInt8) :=
  Item.captured (digits 4 ++ ([isByte '-'] ++ (digits 2 ++ ([isByte '-'] ++ (digits 2 ++
    ([isSeparator] ++ (digits 2 ++ ([isByte ':'] ++ (digits 2 ++ ([isByte ':'] ++
      digits 2)))))))))) ++ Item.remainder

/-- `(%d%d%d%d)%-(%d%d)%-(%d%d)[T ](%d%d):(%d%d):(%d%d)` -/
def fieldsPattern : List (Item UInt8) :=
  Item.captured (digits 4) ++ (Item.plain [isByte '-'] ++ (Item.captured (digits 2) ++
    (Item.plain [isByte '-'] ++ (Item.captured (digits 2) ++ (Item.plain [isSeparator] ++
      (Item.captured (digits 2) ++ (Item.plain [isByte ':'] ++ (Item.captured (digits 2) ++
        (Item.plain [isByte ':'] ++ (Item.captured (digits 2) ++ []))))))))))

/-- `%.(%d+)(.*)` -/
def fractionPattern : List (Item UInt8) :=
  Item.plain [isByte '.'] ++
    (.opening :: .one isDigit :: .star isDigit :: .closing :: Item.remainder)

/-- `([+-])(%d%d):(%d%d)` -/
def zonePattern : List (Item UInt8) :=
  Item.captured [isSign] ++ (Item.captured (digits 2) ++ (Item.plain [isByte ':'] ++
    (Item.captured (digits 2) ++ [])))

/-- `tonumber` of a string of decimal digits. -/
def tonumber (text : LuaText) : Int :=
  ofDecimal text

def invalidTimestamp : String :=
  "scheduler: invalid timestamp"

/-- The test after the two matches. -/
def LocalFields.invalid (fields : LocalFields) : Bool :=
  decide (fields.year < 1) || decide (fields.month < 1) || decide (12 < fields.month) ||
    decide (fields.day < 1) || decide (daysInMonth fields.year fields.month < fields.day) ||
    decide (23 < fields.hour) || decide (59 < fields.min) || decide (59 < fields.sec)

/-- The date and the time of day, and the tail of the text. -/
def parseFields (value : LuaText) : Except String (LocalFields × LuaText) :=
  match Item.captures timestampPattern value with
  | some [main, tail] =>
      match Item.captures fieldsPattern main with
      | some [year, month, day, hour, minute, second] =>
          let fields : LocalFields := ⟨tonumber year, tonumber month, tonumber day, tonumber hour,
            tonumber minute, tonumber second⟩
          if fields.invalid then .error invalidTimestamp else .ok (fields, tail)
      | _ => .error "attempt to compare nil with number"
  | _ => .error invalidTimestamp

/-- The milliseconds, and what is left of the tail. -/
def parseFraction (tail : LuaText) : Except String (Int × LuaText) :=
  if tail.take 1 = [byteOf '.'] then
    match Item.captures fractionPattern tail with
    | some [found, rest] =>
        if 3 < found.length then
          .error "scheduler: timestamp fractional seconds must contain 1..3 digits"
        else .ok (tonumber ((found ++ [byteOf '0', byteOf '0']).take 3), rest)
    | _ => .error "scheduler: timestamp fractional seconds must contain 1..3 digits"
  else .ok (0, tail)

/-- `offset_seconds`, if there is an explicit zone. -/
def parseZone (tail : LuaText) : Except String (Option Int) :=
  if tail = [] then .ok none
  else if tail = [byteOf 'Z'] ∨ tail = [byteOf 'z'] then .ok (some 0)
  else
    match Item.captures zonePattern tail with
    | some [sign, hour, minute] =>
        if 23 < tonumber hour ∨ 59 < tonumber minute then
          .error "scheduler: invalid timestamp timezone"
        else
          let seconds := tonumber hour * 3600 + tonumber minute * 60
          .ok (some (if sign = [byteOf '-'] then -seconds else seconds))
    | _ => .error "scheduler: invalid timestamp timezone"

/-- The epoch of a time without a zone, which must exist. -/
def localEpoch (os : LocalTime) (fields : LocalFields) : Except String Int :=
  match os.time fields with
  | none => .error "scheduler: timestamp is outside the local time range"
  | some epoch =>
      if os.date epoch = some fields then .ok epoch
      else .error "scheduler: invalid or nonexistent local timestamp"

def parseAtString (os : LocalTime) (value : LuaText) : Except String Int :=
  match parseFields value with
  | .error error => .error error
  | .ok (fields, tail) =>
      match parseFraction tail with
      | .error error => .error error
      | .ok (millis, rest) =>
          match parseZone rest with
          | .error error => .error error
          | .ok (some offset) =>
              .ok ((daysFromCivil fields.year fields.month fields.day * 86400 +
                fields.hour * 3600 + fields.min * 60 + fields.sec - offset) * 1000 + millis)
          | .ok none =>
              match localEpoch os fields with
              | .error error => .error error
              | .ok epoch => .ok (epoch * 1000 + millis)

/-! ## What a timestamp is -/

/-- The six numbers as they stand in a text. -/
def written (year month day hour minute second : Nat) (separator : UInt8) : LuaText :=
  decimal 4 year ++ ([byteOf '-'] ++ (decimal 2 month ++ ([byteOf '-'] ++
    (decimal 2 day ++ ([separator] ++ (decimal 2 hour ++ ([byteOf ':'] ++
      (decimal 2 minute ++ ([byteOf ':'] ++ decimal 2 second)))))))))

/-- A date that exists and a time of day. -/
structure DateTime where
  year : Nat
  month : Nat
  day : Nat
  hour : Nat
  minute : Nat
  second : Nat
  separator : UInt8
  year_range : 1 ≤ year ∧ year ≤ 9999
  exists_date : CivilDate.Valid ⟨year, month, day⟩
  hour_le : hour ≤ 23
  minute_le : minute ≤ 59
  second_le : second ≤ 59
  separates : isSeparator separator = true

namespace DateTime

def text (time : DateTime) : LuaText :=
  written time.year time.month time.day time.hour time.minute time.second time.separator

def fields (time : DateTime) : LocalFields :=
  ⟨time.year, time.month, time.day, time.hour, time.minute, time.second⟩

/-- Seconds from the epoch, at the meridian. -/
def seconds (time : DateTime) : Int :=
  CivilDate.dayNumber ⟨time.year, time.month, time.day⟩ * 86400 + time.hour * 3600 +
    time.minute * 60 + time.second

end DateTime

/-- The first digit counts tenths, then hundredths and thousandths. -/
def fractionMillis (digits : LuaText) : Int :=
  (List.zipWith (fun digit weight => ((digit.toNat - 48 : Nat) : Int) * weight) digits
    [100, 10, 1]).sum

/-- At most three digits; without any there is no point. -/
structure Fraction where
  digits : LuaText
  all_digits : forall digit, digit ∈ digits -> isDigit digit = true
  length_le : digits.length ≤ 3

namespace Fraction

def text (fraction : Fraction) : LuaText :=
  if fraction.digits = [] then [] else byteOf '.' :: fraction.digits

def millis (fraction : Fraction) : Int :=
  fractionMillis fraction.digits

end Fraction

inductive Zone where
  | utc (letter : UInt8) (named : letter = byteOf 'Z' ∨ letter = byteOf 'z')
  | offset (sign : UInt8) (hour minute : Nat) (signed : isSign sign = true) (hour_le : hour ≤ 23)
      (minute_le : minute ≤ 59)

namespace Zone

def text : Zone -> LuaText
  | utc letter _ => [letter]
  | offset sign hour minute _ _ _ =>
      [sign] ++ (decimal 2 hour ++ ([byteOf ':'] ++ decimal 2 minute))

/-- How far local time is ahead. -/
def seconds : Zone -> Int
  | utc _ _ => 0
  | offset sign hour minute _ _ _ =>
      if sign = byteOf '-' then -(hour * 3600 + minute * 60) else hour * 3600 + minute * 60

end Zone

structure Moment where
  time : DateTime
  fraction : Fraction

namespace Moment

def text (moment : Moment) : LuaText :=
  moment.time.text ++ moment.fraction.text

/-- Milliseconds from the epoch to the moment in a zone. -/
def instant (moment : Moment) (zone : Zone) : Int :=
  (moment.time.seconds - zone.seconds) * 1000 + moment.fraction.millis

/-- What the local time library makes of a moment without a zone. -/
def localInstant (os : LocalTime) (moment : Moment) : Except String Int :=
  (localEpoch os moment.time.fields).map fun epoch => epoch * 1000 + moment.fraction.millis

end Moment

/-! ## The two matches -/

theorem accepted_digits (count number : Nat) : Accepted (digits count) (decimal count number) :=
  accepted_replicate.mpr ⟨decimal_length count number, fun _ member => isDigit_of_mem_decimal member⟩

theorem accepted_byte (letter : Char) : Accepted [isByte letter] [byteOf letter] :=
  accepted_one.mpr ⟨_, rfl, beq_self_eq_true _⟩

/-- Accepted digits are a number of that width. -/
theorem accepted_digits_iff {count : Nat} {text : LuaText} :
    Accepted (digits count) text <-> text = decimal count (ofDecimal text) ∧ text.length = count := by
  unfold digits
  rw [accepted_replicate]
  constructor
  · rintro ⟨rfl, all⟩
    exact ⟨(decimal_ofDecimal all).symm, rfl⟩
  · rintro ⟨written, length⟩
    refine ⟨length, ?_⟩
    rw [written]
    exact fun _ member => isDigit_of_mem_decimal member

theorem ofDecimal_accepted {count : Nat} {text : LuaText} (accepted : Accepted (digits count) text) :
    ofDecimal text < 10 ^ count := by
  rcases accepted_replicate.mp accepted with ⟨rfl, all⟩
  exact ofDecimal_lt all

theorem accepted_byte_iff {letter : Char} {text : LuaText} :
    Accepted [isByte letter] text <-> text = [byteOf letter] := by
  rw [accepted_one]
  constructor
  · rintro ⟨byte, rfl, same⟩
    rw [eq_of_beq same]
  · rintro rfl
    exact ⟨_, rfl, beq_self_eq_true _⟩

theorem tonumber_decimal {count number : Nat} (fits : number < 10 ^ count) :
    tonumber (decimal count number) = number :=
  congrArg Nat.cast (ofDecimal_decimal fits)

theorem timestampPattern_written {year month day hour minute second : Nat} {separator : UInt8}
    (separates : isSeparator separator = true) (tail : LuaText) :
    Item.captures timestampPattern (written year month day hour minute second separator ++ tail) =
      some [written year month day hour minute second separator, tail] := by
  unfold Item.captures timestampPattern
  rw [captures_captured, captures_remainder]
  · rfl
  · exact (accepted_digits 4 _).append ((accepted_byte _).append ((accepted_digits 2 _).append
      ((accepted_byte _).append ((accepted_digits 2 _).append
        (Accepted.append (accepted_one.mpr ⟨_, rfl, separates⟩) ((accepted_digits 2 _).append
          ((accepted_byte _).append ((accepted_digits 2 _).append ((accepted_byte _).append
            (accepted_digits 2 _))))))))))

theorem fieldsPattern_written {year month day hour minute second : Nat} {separator : UInt8}
    (separates : isSeparator separator = true) :
    Item.captures fieldsPattern (written year month day hour minute second separator) =
      some [decimal 4 year, decimal 2 month, decimal 2 day, decimal 2 hour, decimal 2 minute,
        decimal 2 second] := by
  unfold Item.captures fieldsPattern written
  rw [captures_captured (accepted_digits 4 _), captures_plain (accepted_byte _),
    captures_captured (accepted_digits 2 _), captures_plain (accepted_byte _),
    captures_captured (accepted_digits 2 _), captures_plain (accepted_one.mpr ⟨_, rfl, separates⟩),
    captures_captured (accepted_digits 2 _), captures_plain (accepted_byte _),
    captures_captured (accepted_digits 2 _), captures_plain (accepted_byte _)]
  have last := @captures_captured _ (digits 2) [] [decimal 4 year, decimal 2 month, decimal 2 day,
    decimal 2 hour, decimal 2 minute] (decimal 2 hour ++ []) (decimal 2 second) [] (accepted_digits 2 _)
  rw [List.append_nil (decimal 2 second)] at last
  exact last

/-- The first match finds six numbers. -/
theorem timestampPattern_eq_some {value : LuaText} {found : List LuaText}
    (matched : Item.captures timestampPattern value = some found) :
    Exists fun year => Exists fun month => Exists fun day => Exists fun hour => Exists fun minute =>
      Exists fun second => Exists fun separator => Exists fun tail =>
        isSeparator separator = true ∧ year < 10 ^ 4 ∧ month < 10 ^ 2 ∧ day < 10 ^ 2 ∧
        hour < 10 ^ 2 ∧ minute < 10 ^ 2 ∧ second < 10 ^ 2 ∧
        value = written year month day hour minute second separator ++ tail ∧
        found = [written year month day hour minute second separator, tail] := by
  unfold Item.captures timestampPattern at matched
  rcases captures_captured_eq_some matched with ⟨main, tail, rfl, accepted, remainder⟩
  rw [captures_remainder] at remainder
  obtain rfl := Option.some.inj remainder
  rcases accepted.split with ⟨year, _, rfl, isYear, accepted⟩
  rcases accepted.split with ⟨_, _, rfl, isDash, accepted⟩
  rcases accepted.split with ⟨month, _, rfl, isMonth, accepted⟩
  rcases accepted.split with ⟨_, _, rfl, isDash', accepted⟩
  rcases accepted.split with ⟨day, _, rfl, isDay, accepted⟩
  rcases accepted.split with ⟨_, _, rfl, separated, accepted⟩
  rcases accepted.split with ⟨hour, _, rfl, isHour, accepted⟩
  rcases accepted.split with ⟨_, _, rfl, isColon, accepted⟩
  rcases accepted.split with ⟨minute, _, rfl, isMinute, accepted⟩
  rcases accepted.split with ⟨_, second, rfl, isColon', isSecond⟩
  rcases accepted_one.mp separated with ⟨separator, rfl, separates⟩
  obtain rfl := accepted_byte_iff.mp isDash
  obtain rfl := accepted_byte_iff.mp isDash'
  obtain rfl := accepted_byte_iff.mp isColon
  obtain rfl := accepted_byte_iff.mp isColon'
  refine ⟨ofDecimal year, ofDecimal month, ofDecimal day, ofDecimal hour, ofDecimal minute,
    ofDecimal second, separator, tail, separates, ofDecimal_accepted isYear,
    ofDecimal_accepted isMonth, ofDecimal_accepted isDay, ofDecimal_accepted isHour,
    ofDecimal_accepted isMinute, ofDecimal_accepted isSecond, ?_⟩
  unfold written
  rw [← (accepted_digits_iff.mp isYear).1, ← (accepted_digits_iff.mp isMonth).1,
    ← (accepted_digits_iff.mp isDay).1, ← (accepted_digits_iff.mp isHour).1,
    ← (accepted_digits_iff.mp isMinute).1, ← (accepted_digits_iff.mp isSecond).1]
  exact ⟨rfl, rfl⟩

/-! ## The pieces of the parser -/

theorem LocalFields.invalid_eq_false {fields : LocalFields} :
    fields.invalid = false <-> 1 ≤ fields.year ∧ CivilDate.Valid ⟨fields.year, fields.month, fields.day⟩ ∧
      fields.hour ≤ 23 ∧ fields.min ≤ 59 ∧ fields.sec ≤ 59 := by
  simp only [LocalFields.invalid, Bool.or_eq_false_iff, decide_eq_false_iff_not, not_lt]
  constructor
  · rintro ⟨⟨⟨⟨⟨⟨⟨year, january⟩, december⟩, first⟩, last⟩, hour⟩, minute⟩, second⟩
    rw [daysInMonth_eq ⟨january, december⟩] at last
    exact ⟨year, ⟨⟨january, december⟩, ⟨first, last⟩⟩, hour, minute, second⟩
  · rintro ⟨year, ⟨inYear, ⟨first, last⟩⟩, hour, minute, second⟩
    rw [← daysInMonth_eq inYear] at last
    exact ⟨⟨⟨⟨⟨⟨⟨year, inYear.1⟩, inYear.2⟩, first⟩, last⟩, hour⟩, minute⟩, second⟩

/-- The months and days that exist have two digits. -/
theorem CivilDate.Valid.two_digits {year month day : Nat}
    (valid : CivilDate.Valid ⟨year, month, day⟩) : month < 10 ^ 2 ∧ day < 10 ^ 2 := by
  rcases valid with ⟨⟨-, december⟩, ⟨-, last⟩⟩
  dsimp only at december last
  have longest : monthLength year month ≤ 31 := by
    unfold monthLength
    split_ifs <;> decide
  constructor
  · omega
  · omega

theorem parseFields_text (time : DateTime) (tail : LuaText) :
    parseFields (time.text ++ tail) = .ok (time.fields, tail) := by
  have narrow := CivilDate.Valid.two_digits time.exists_date
  have year := time.year_range
  have hour := time.hour_le
  have minute := time.minute_le
  have second := time.second_le
  have legal : time.fields.invalid = false := by
    rw [LocalFields.invalid_eq_false]
    unfold DateTime.fields
    exact ⟨by dsimp only; omega, time.exists_date, by dsimp only; omega, by dsimp only; omega,
      by dsimp only; omega⟩
  unfold parseFields DateTime.text
  rw [timestampPattern_written time.separates]
  dsimp only
  rw [fieldsPattern_written time.separates]
  dsimp only
  rw [tonumber_decimal (by omega), tonumber_decimal narrow.1, tonumber_decimal narrow.2,
    tonumber_decimal (by omega), tonumber_decimal (by omega), tonumber_decimal (by omega)]
  exact if_neg (Bool.eq_false_iff.mp legal)

theorem parseFields_eq_ok {value tail : LuaText} {fields : LocalFields}
    (parsed : parseFields value = .ok (fields, tail)) :
    Exists fun time : DateTime => value = time.text ++ tail ∧ fields = time.fields := by
  unfold parseFields at parsed
  cases matched : Item.captures timestampPattern value with
  | none =>
      rw [matched] at parsed
      cases parsed
  | some found =>
      rcases timestampPattern_eq_some matched with ⟨year, month, day, hour, minute, second, separator,
        rest, separates, yearFits, monthFits, dayFits, hourFits, minuteFits, secondFits, rfl, rfl⟩
      rw [matched] at parsed
      dsimp only at parsed
      rw [fieldsPattern_written separates] at parsed
      dsimp only at parsed
      rw [tonumber_decimal yearFits, tonumber_decimal monthFits, tonumber_decimal dayFits,
        tonumber_decimal hourFits, tonumber_decimal minuteFits, tonumber_decimal secondFits] at parsed
      split at parsed
      · cases parsed
      · rename_i legal
        obtain ⟨rfl, rfl⟩ := Prod.mk.inj (Except.ok.inj parsed)
        rcases LocalFields.invalid_eq_false.mp (Bool.eq_false_iff.mpr legal) with
          ⟨first, valid, hourIn, minuteIn, secondIn⟩
        dsimp only at first hourIn minuteIn secondIn
        exact ⟨⟨year, month, day, hour, minute, second, separator, by omega, valid, by omega,
          by omega, by omega, separates⟩, rfl, rfl⟩

/-- What may follow the fraction: no digit, and no point where there is none. -/
def Ends (rest : LuaText) : Prop :=
  forall byte, rest.head? = some byte -> isDigit byte = false ∧ byte ≠ byteOf '.'

theorem fractionPattern_text {first : UInt8} {others rest : LuaText} (isFirst : isDigit first = true)
    (all : forall digit, digit ∈ others -> isDigit digit = true) (ends : Ends rest) :
    Item.captures fractionPattern ([byteOf '.'] ++ (first :: others ++ rest)) =
      some [first :: others, rest] := by
  have taken : (others ++ rest).takeWhile isDigit = others := by
    rw [List.takeWhile_append_of_pos all]
    cases rest with
    | nil => rw [List.takeWhile_nil, List.append_nil]
    | cons byte rest =>
        rw [List.takeWhile_cons_of_neg (Bool.eq_false_iff.mp (ends byte rfl).1), List.append_nil]
  have dropped : (others ++ rest).dropWhile isDigit = rest := by
    rw [List.dropWhile_append_of_pos all]
    cases rest with
    | nil => rfl
    | cons byte rest => rw [List.dropWhile_cons_of_neg (Bool.eq_false_iff.mp (ends byte rfl).1)]
  unfold Item.captures fractionPattern
  rw [captures_plain (accepted_byte _), List.cons_append, captures, captures, if_pos isFirst]
  apply captures_star
  rw [taken, dropped, captures, captures_remainder]
  rfl

theorem fractionPattern_eq_some {tail : LuaText} {found : List LuaText}
    (matched : Item.captures fractionPattern tail = some found) :
    Exists fun first => Exists fun others => Exists fun rest =>
      isDigit first = true ∧ (forall digit, digit ∈ others -> isDigit digit = true) ∧
      tail = [byteOf '.'] ++ (first :: others ++ rest) ∧ found = [first :: others, rest] := by
  unfold Item.captures fractionPattern at matched
  rcases captures_plain_eq_some matched with ⟨point, after, rfl, isPoint, later⟩
  obtain rfl := accepted_byte_iff.mp isPoint
  rw [captures] at later
  cases after with
  | nil => cases later
  | cons first after =>
      by_cases isFirst : isDigit first = true
      · rw [captures, if_pos isFirst] at later
        refine ⟨first, after.takeWhile isDigit, after.dropWhile isDigit, isFirst,
          fun _ member => List.mem_takeWhile_imp member, ?_, ?_⟩
        · have whole := @List.takeWhile_append_dropWhile _ isDigit after
          exact congrArg (fun text => [byteOf '.'] ++ (first :: text)) whole.symm
        · have greedy := @captures_star _ isDigit (.closing :: Item.remainder) [] [first] after
            [first :: after.takeWhile isDigit, after.dropWhile isDigit]
            (by rw [captures, captures_remainder]; rfl)
          exact Option.some.inj (later.symm.trans greedy)
      · rw [captures, if_neg isFirst] at later
        cases later

/-- Padding to three digits gives the milliseconds. -/
theorem tonumber_padded {digits : LuaText} (present : digits ≠ []) (length : digits.length ≤ 3) :
    tonumber ((digits ++ [byteOf '0', byteOf '0']).take 3) = fractionMillis digits := by
  have zero : (byteOf '0').toNat - 48 = 0 := rfl
  unfold tonumber fractionMillis ofDecimal
  rcases digits with _ | ⟨tenths, _ | ⟨hundredths, _ | ⟨thousandths, _ | ⟨other, others⟩⟩⟩⟩
  · exact absurd rfl present
  · simp [zero]
    omega
  · simp [zero]
    omega
  · simp
    omega
  · simp only [List.length_cons] at length
    omega

theorem parseFraction_text (fraction : Fraction) {rest : LuaText} (ends : Ends rest) :
    parseFraction (fraction.text ++ rest) = .ok (fraction.millis, rest) := by
  unfold parseFraction Fraction.text
  by_cases absent : fraction.digits = []
  · have noPoint : rest.take 1 ≠ [byteOf '.'] := by
      intro point
      cases rest with
      | nil => cases point
      | cons byte rest => exact (ends byte rfl).2 (List.cons.inj point).1
    have nothing : fraction.millis = 0 := by
      rw [Fraction.millis, absent]
      rfl
    rw [if_pos absent, List.nil_append, if_neg noPoint, nothing]
  · have padded := tonumber_padded absent fraction.length_le
    have length := fraction.length_le
    have all := fraction.all_digits
    rw [if_neg absent]
    cases digits : fraction.digits with
    | nil => exact absurd digits absent
    | cons first others =>
        rw [digits] at padded length all
        rcases List.forall_mem_cons.mp all with ⟨isFirst, isOther⟩
        have matched := fractionPattern_text isFirst isOther ends
        have pointed : (byteOf '.' :: first :: others ++ rest).take 1 = [byteOf '.'] := rfl
        rw [if_pos pointed]
        rw [List.singleton_append] at matched
        rw [List.cons_append, matched]
        dsimp only
        rw [if_neg (Nat.not_lt.mpr length), padded, Fraction.millis, digits]

theorem parseFraction_eq_ok {tail rest : LuaText} {millis : Int}
    (parsed : parseFraction tail = .ok (millis, rest)) :
    Exists fun fraction : Fraction => tail = fraction.text ++ rest ∧ millis = fraction.millis := by
  unfold parseFraction at parsed
  split at parsed
  · cases matched : Item.captures fractionPattern tail with
    | none =>
        rw [matched] at parsed
        cases parsed
    | some found =>
        rcases fractionPattern_eq_some matched with
          ⟨first, others, after, isFirst, isOther, rfl, rfl⟩
        rw [matched] at parsed
        dsimp only at parsed
        split at parsed
        · cases parsed
        · rename_i short
          obtain ⟨padded, rfl⟩ := Prod.mk.inj (Except.ok.inj parsed)
          refine ⟨⟨first :: others, List.forall_mem_cons.mpr ⟨isFirst, isOther⟩, Nat.not_lt.mp short⟩,
            ?_, ?_⟩
          · rfl
          · rw [← padded]
            exact tonumber_padded (List.cons_ne_nil _ _) (Nat.not_lt.mp short)
  · obtain ⟨rfl, rfl⟩ := Prod.mk.inj (Except.ok.inj parsed)
    exact ⟨⟨[], fun _ member => absurd member List.not_mem_nil, Nat.zero_le _⟩, rfl, rfl⟩

theorem zonePattern_text {sign : UInt8} (signed : isSign sign = true) (hour minute : Nat) :
    Item.captures zonePattern ([sign] ++ (decimal 2 hour ++ ([byteOf ':'] ++ decimal 2 minute))) =
      some [[sign], decimal 2 hour, decimal 2 minute] := by
  unfold Item.captures zonePattern
  rw [captures_captured (accepted_one.mpr ⟨_, rfl, signed⟩), captures_captured (accepted_digits 2 _),
    captures_plain (accepted_byte _)]
  have last := @captures_captured _ (digits 2) [] [[sign], decimal 2 hour] ([] ++ [byteOf ':'])
    (decimal 2 minute) [] (accepted_digits 2 _)
  rw [List.append_nil (decimal 2 minute)] at last
  exact last

theorem zonePattern_eq_some {tail : LuaText} {found : List LuaText}
    (matched : Item.captures zonePattern tail = some found) :
    Exists fun sign => Exists fun hour => Exists fun minute =>
      isSign sign = true ∧ hour < 10 ^ 2 ∧ minute < 10 ^ 2 ∧
      tail = [sign] ++ (decimal 2 hour ++ ([byteOf ':'] ++ decimal 2 minute)) ∧
      found = [[sign], decimal 2 hour, decimal 2 minute] := by
  unfold Item.captures zonePattern at matched
  rcases captures_captured_eq_some matched with ⟨_, _, rfl, signed, matched⟩
  rcases captures_captured_eq_some matched with ⟨hour, _, rfl, isHour, matched⟩
  rcases captures_plain_eq_some matched with ⟨_, _, rfl, isColon, matched⟩
  rcases captures_captured_eq_some matched with ⟨minute, rest, rfl, isMinute, closed⟩
  rcases accepted_one.mp signed with ⟨sign, rfl, isSigned⟩
  obtain rfl := accepted_byte_iff.mp isColon
  cases rest with
  | cons byte rest => cases closed
  | nil =>
      obtain rfl := Option.some.inj closed
      refine ⟨sign, ofDecimal hour, ofDecimal minute, isSigned, ofDecimal_accepted isHour,
        ofDecimal_accepted isMinute, ?_⟩
      rw [← (accepted_digits_iff.mp isHour).1, ← (accepted_digits_iff.mp isMinute).1,
        List.append_nil]
      exact ⟨rfl, rfl⟩

/-- The text of a zone, if there is one. -/
def zoneText (zone : Option Zone) : LuaText :=
  (zone.map Zone.text).getD []

theorem parseZone_text (zone : Option Zone) :
    parseZone (zoneText zone) = .ok (zone.map Zone.seconds) := by
  cases zone with
  | none => rfl
  | some zone =>
      cases zone with
      | utc letter named =>
          have zulu : [letter] = [byteOf 'Z'] ∨ [letter] = [byteOf 'z'] :=
            named.imp (congrArg fun byte => [byte]) (congrArg fun byte => [byte])
          exact (if_neg (List.cons_ne_nil _ _)).trans (if_pos zulu)
      | offset sign hour minute signed hour_le minute_le =>
          have long : forall letter, zoneText (some (.offset sign hour minute signed hour_le minute_le)) ≠
              [letter] := by
            intro letter same
            have lengths := congrArg List.length same
            simp [zoneText, Zone.text] at lengths
          have present : zoneText (some (.offset sign hour minute signed hour_le minute_le)) ≠ [] :=
            List.cons_ne_nil _ _
          have inside : ¬ (23 < tonumber (decimal 2 hour) ∨ 59 < tonumber (decimal 2 minute)) := by
            rw [tonumber_decimal (by omega), tonumber_decimal (by omega)]
            omega
          have matched : Item.captures zonePattern
              (zoneText (some (.offset sign hour minute signed hour_le minute_le))) = _ :=
            zonePattern_text signed hour minute
          unfold parseZone
          rw [if_neg present, if_neg (not_or.mpr ⟨long _, long _⟩), matched]
          dsimp only
          rw [if_neg inside, tonumber_decimal (by omega), tonumber_decimal (by omega)]
          unfold Zone.seconds
          simp only [List.cons.injEq, and_true, Option.map_some]

theorem parseZone_eq_ok {tail : LuaText} {offset : Option Int} (parsed : parseZone tail = .ok offset) :
    Exists fun zone : Option Zone => tail = zoneText zone ∧ offset = zone.map Zone.seconds := by
  have given := parsed
  unfold parseZone at parsed
  split at parsed
  · rename_i absent
    obtain rfl := Except.ok.inj parsed
    exact ⟨none, absent, rfl⟩
  · split at parsed
    · rename_i zulu
      obtain rfl := Except.ok.inj parsed
      rcases zulu with rfl | rfl
      · exact ⟨some (.utc (byteOf 'Z') (Or.inl rfl)), rfl, rfl⟩
      · exact ⟨some (.utc (byteOf 'z') (Or.inr rfl)), rfl, rfl⟩
    · cases matched : Item.captures zonePattern tail with
      | none =>
          rw [matched] at parsed
          cases parsed
      | some found =>
          rcases zonePattern_eq_some matched with
            ⟨sign, hour, minute, signed, hourFits, minuteFits, rfl, rfl⟩
          rw [matched] at parsed
          dsimp only at parsed
          rw [tonumber_decimal hourFits, tonumber_decimal minuteFits] at parsed
          split at parsed
          · cases parsed
          · rename_i inside
            have zone := parseZone_text
              (some (.offset sign hour minute signed (by omega) (by omega)))
            exact ⟨some (.offset sign hour minute signed (by omega) (by omega)), rfl,
              Except.ok.inj (given.symm.trans zone)⟩

theorem zoneText_ends (zone : Option Zone) : Ends (zoneText zone) := by
  intro byte here
  cases zone with
  | none => cases here
  | some zone =>
      cases zone with
      | utc letter named =>
          obtain rfl := Option.some.inj here
          rcases named with rfl | rfl <;> decide
      | offset sign hour minute signed _ _ =>
          obtain rfl := Option.some.inj here
          rcases (Bool.or_eq_true _ _).mp signed with plus | minus
          · rw [eq_of_beq plus]
            decide
          · rw [eq_of_beq minus]
            decide

/-! ## The whole parser -/

/-- The deadline of a moment, with or without a zone. -/
def Moment.deadline (os : LocalTime) (moment : Moment) : Option Zone -> Except String Int
  | some zone => .ok (moment.instant zone)
  | none => moment.localInstant os

theorem Moment.pieces (moment : Moment) (zone : Option Zone) :
    parseFields (moment.text ++ zoneText zone) =
        .ok (moment.time.fields, moment.fraction.text ++ zoneText zone) ∧
      parseFraction (moment.fraction.text ++ zoneText zone) =
        .ok (moment.fraction.millis, zoneText zone) := by
  unfold Moment.text
  rw [List.append_assoc]
  exact ⟨parseFields_text _ _, parseFraction_text _ (zoneText_ends zone)⟩

/-- The source's epoch is the instant of the moment. -/
theorem Moment.zoned_epoch (moment : Moment) (zone : Zone) :
    (daysFromCivil moment.time.fields.year moment.time.fields.month moment.time.fields.day * 86400 +
        moment.time.fields.hour * 3600 + moment.time.fields.min * 60 + moment.time.fields.sec -
        zone.seconds) * 1000 + moment.fraction.millis = moment.instant zone := by
  unfold Moment.instant DateTime.seconds DateTime.fields
  dsimp only
  rw [daysFromCivil_eq ⟨_, _, _⟩ moment.time.exists_date.month]

theorem parseAtString_text (os : LocalTime) (moment : Moment) (zone : Option Zone) :
    parseAtString os (moment.text ++ zoneText zone) = moment.deadline os zone := by
  rcases moment.pieces zone with ⟨fields, fraction⟩
  unfold parseAtString
  rw [fields]
  dsimp only
  rw [fraction]
  dsimp only
  rw [parseZone_text]
  cases zone with
  | some zone => exact congrArg Except.ok (moment.zoned_epoch zone)
  | none =>
      unfold Moment.deadline Moment.localInstant
      simp only [Option.map_none]
      cases localEpoch os moment.time.fields with
      | error error => rfl
      | ok epoch => rfl

/-- A text that is accepted is a moment, with or without a zone. -/
theorem parseAtString_eq_ok {os : LocalTime} {value : LuaText} {deadline : Int}
    (parsed : parseAtString os value = .ok deadline) :
    Exists fun moment : Moment => Exists fun zone => value = moment.text ++ zoneText zone := by
  unfold parseAtString at parsed
  cases first : parseFields value with
  | error error =>
      rw [first] at parsed
      cases parsed
  | ok found =>
      rcases found with ⟨fields, tail⟩
      rcases parseFields_eq_ok first with ⟨time, rfl, rfl⟩
      rw [first] at parsed
      dsimp only at parsed
      cases second : parseFraction tail with
      | error error =>
          rw [second] at parsed
          cases parsed
      | ok found =>
          rcases found with ⟨millis, rest⟩
          rcases parseFraction_eq_ok second with ⟨fraction, rfl, rfl⟩
          rw [second] at parsed
          dsimp only at parsed
          cases third : parseZone rest with
          | error error =>
              rw [third] at parsed
              cases parsed
          | ok offset =>
              rcases parseZone_eq_ok third with ⟨zone, rfl, -⟩
              exact ⟨⟨time, fraction⟩, zone, (List.append_assoc ..).symm⟩

/-- What stands after the fraction is part of the text. -/
theorem zoneText_of_text {first second : Moment} {zone other : Option Zone}
    (same : first.text ++ zoneText zone = second.text ++ zoneText other) :
    zoneText zone = zoneText other := by
  rcases first.pieces zone with ⟨fields, fraction⟩
  rcases second.pieces other with ⟨fields', fraction'⟩
  rw [same, fields'] at fields
  have tails := (Prod.mk.inj (Except.ok.inj fields)).2
  rw [← tails, fraction'] at fraction
  exact (Prod.mk.inj (Except.ok.inj fraction)).2.symm

/-! ## Writing timestamps -/

/-- Milliseconds of a day. -/
def dayMillis : Int := 86400000

/-- The date of an instant in a zone. -/
def dateIn (zone : Zone) (instant : Int) : CivilDate :=
  ofDayNumber ((instant + zone.seconds * 1000) / dayMillis)

/-- An instant as a zone writes it, with all its digits. -/
def formatTimestamp (zone : Zone) (instant : Int) : LuaText :=
  let date := dateIn zone instant
  let rest := ((instant + zone.seconds * 1000) % dayMillis).toNat
  written date.year.toNat date.month.toNat date.day.toNat (rest / 3600000) (rest / 60000 % 60)
    (rest / 1000 % 60) (byteOf 'T') ++ (byteOf '.' :: decimal 3 (rest % 1000)) ++ zone.text

theorem fractionMillis_decimal {millis : Nat} (small : millis < 1000) :
    fractionMillis (decimal 3 millis) = millis := by
  unfold fractionMillis
  simp only [decimal, List.nil_append, List.cons_append, List.zipWith_cons_cons,
    List.zipWith_nil_left, List.sum_cons, List.sum_nil, toNat_digit, Nat.add_sub_cancel_left]
  push_cast
  omega

/-- What is written is a moment whose instant in the zone was written. -/
theorem formatTimestamp_eq (zone : Zone) (instant : Int)
    (inRange : 1 ≤ (dateIn zone instant).year ∧ (dateIn zone instant).year ≤ 9999) :
    Exists fun moment : Moment => formatTimestamp zone instant = moment.text ++ zone.text ∧
      moment.instant zone = instant := by
  have valid : (dateIn zone instant).Valid := ofDayNumber_valid _
  have number : (dateIn zone instant).dayNumber = (instant + zone.seconds * 1000) / dayMillis :=
    dayNumber_ofDayNumber _
  have whole := Int.mul_ediv_add_emod (instant + zone.seconds * 1000) dayMillis
  have nonneg := Int.emod_nonneg (instant + zone.seconds * 1000) (show dayMillis ≠ 0 by decide)
  have small := Int.emod_lt_of_pos (instant + zone.seconds * 1000) (show 0 < dayMillis by decide)
  have separates : isSeparator (byteOf 'T') = true := rfl
  unfold formatTimestamp
  dsimp only
  rw [← number] at whole
  obtain ⟨rest, same⟩ := Int.eq_ofNat_of_zero_le nonneg
  rw [same] at whole small ⊢
  rw [Int.toNat_natCast]
  revert valid inRange whole
  generalize dateIn zone instant = date
  rcases date with ⟨year, month, day⟩
  intro inRange valid whole
  have january := valid.month.1
  have first := valid.day.1
  dsimp only at inRange january first
  obtain ⟨year, rfl⟩ := Int.eq_ofNat_of_zero_le (show 0 ≤ year by omega)
  obtain ⟨month, rfl⟩ := Int.eq_ofNat_of_zero_le (show 0 ≤ month by omega)
  obtain ⟨day, rfl⟩ := Int.eq_ofNat_of_zero_le (show 0 ≤ day by omega)
  unfold dayMillis at whole small
  let time : DateTime := ⟨year, month, day, rest / 3600000, rest / 60000 % 60, rest / 1000 % 60,
    byteOf 'T', by omega, valid, by omega, by omega, by omega, separates⟩
  let fraction : Fraction := ⟨decimal 3 (rest % 1000),
    fun _ member => isDigit_of_mem_decimal member, (decimal_length 3 _).le⟩
  have present : decimal 3 (rest % 1000) ≠ [] :=
    List.ne_nil_of_length_pos (by rw [decimal_length]; decide)
  refine ⟨⟨time, fraction⟩, ?_, ?_⟩
  · unfold Moment.text Fraction.text
    dsimp only [fraction]
    rw [if_neg present]
    rfl
  · have millis : fraction.millis = (rest % 1000 : Nat) := fractionMillis_decimal (by omega)
    unfold Moment.instant DateTime.seconds
    dsimp only [time]
    rw [millis]
    push_cast
    omega

/-- With an explicit zone a text is accepted exactly when it is a moment and a
zone, and denotes the instant; without one the local time library decides;
everything else is rejected.  What is written in a zone reads back as it was. -/
theorem parse_at_string (os : LocalTime) :
    (forall (value : LuaText) (deadline : Int), parseAtString os value = .ok deadline <->
      (Exists fun moment : Moment => Exists fun zone : Zone => value = moment.text ++ zone.text ∧
        deadline = moment.instant zone) ∨
      (Exists fun moment : Moment => value = moment.text ∧
        moment.localInstant os = .ok deadline)) ∧
    (forall (moment other : Moment) (zone : Zone), moment.text ++ zone.text ≠ other.text) ∧
    (forall (zone : Zone) (instant : Int),
      1 ≤ (dateIn zone instant).year ∧ (dateIn zone instant).year ≤ 9999 ->
      parseAtString os (formatTimestamp zone instant) = .ok instant) := by
  refine ⟨?_, ?_, ?_⟩
  · intro value deadline
    constructor
    · intro parsed
      rcases parseAtString_eq_ok parsed with ⟨moment, zone, rfl⟩
      rw [parseAtString_text] at parsed
      cases zone with
      | some zone => exact Or.inl ⟨moment, zone, rfl, (Except.ok.inj parsed).symm⟩
      | none => exact Or.inr ⟨moment, List.append_nil _, parsed⟩
    · rintro (⟨moment, zone, rfl, rfl⟩ | ⟨moment, rfl, parsed⟩)
      · exact parseAtString_text os moment (some zone)
      · have text := parseAtString_text os moment none
        rw [zoneText, Option.map_none, Option.getD_none, List.append_nil] at text
        exact text.trans parsed
  · intro moment other zone same
    have zones := @zoneText_of_text moment other (some zone) none
      (same.trans (List.append_nil _).symm)
    cases zone with
    | utc letter named => cases zones
    | offset sign hour minute signed hour_le minute_le => cases zones
  · intro zone instant inRange
    rcases formatTimestamp_eq zone instant inRange with ⟨moment, text, reads⟩
    rw [text]
    exact (parseAtString_text os moment (some zone)).trans (congrArg Except.ok reads)

end Scheduler
end ServiceRuntime
